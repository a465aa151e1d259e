import Mathlib
import OtaUpgrade.Proofs.Session.Chronicle
import OtaUpgrade.Proofs.Session.Expiry

/-!
A session that has its guard to itself never hangs. After every run it rests, has ended, or waits
with its timeout armed, and in the last case three timeouts at most bring it to its end. Neither its
own events nor their order matter: the one induction is over runs (`run_invariant`), and all the
rest is what a single event keeps.
-/
namespace OtaUpgrade.Session

/-- Where a session can stand between two events. -/
inductive Standing where
  /-- Not begun; there is nothing to wait for. -/
  | rests
  | waits
  | ended
  deriving DecidableEq, Repr

/-- A session stands so. -/
def Standing.Holds (s : Session) : Standing → Prop
  | rests => s.phase = .idle ∧ s.finished = false ∧ s.timer.armed = none
  | waits => .idle < s.phase ∧ s.phase < .complete ∧ s.finished = false ∧ s.Armed
  | ended => s.phase = .complete ∧ s.finished = true ∧ s.timer.armed = none

/-- What a session with a guard of its own promises about time. -/
structure Timely (s : Session) : Prop where
  stands : ∃! k : Standing, k.Holds s
  balanced : s.timer.Balanced
  /-- Every number up to the last one was given to one timeout. -/
  numbered : s.timer.lastId = s.timer.scheduled
  latest : ∀ x, s.timer.armed = some x → x.id = s.timer.lastId
  /-- A timeout that is gone does not come back, and all that come after it have larger numbers. -/
  increasing : ∀ x, s.timer.armed = some x → ∀ es more y,
    (s.run es).crash? = none → (s.run es).session.timer.armed ≠ some x →
      ((s.run es).session.run more).crash? = none →
        ((s.run es).session.run more).session.timer.armed = some y → x.id < y.id
  /-- Three timeouts in a row end the upgrade, unless its device's driver breaks down. -/
  ends : Standing.waits.Holds s →
    (s.feed (.replicate 3 .expiry)).session.finished = true ∨
      (s.feed (.replicate 3 .expiry)).crash? = some .device ∧
        ∃ d, s.device = some d ∧ d.breaksOn ≠ []

/-! ## Runs -/

/-- What one event keeps holds throughout a run. -/
theorem run_invariant {P : Session → Prop}
    (told : ∀ {s} (e : Event), P s → (s.handle e).crash? = none → P (s.handle e).session)
    {s : Session} (h : P s) (es : List Event) (hc : (s.run es).crash? = none) :
    P (s.run es).session := by
  induction es generalizing s with
  | nil => exact h
  | cons e es ih =>
    -- a run is a life with the guard left alone
    rw [← live_map_event, List.map_cons] at hc ⊢
    cases hx : (s.handle e).crash? with
    | some c =>
      rw [live_crash hx, hx] at hc
      cases hc
    | none =>
      rw [live_event hx, live_map_event] at hc ⊢
      exact ih (told e h hx) hc

/-- A run keeps the timeout. -/
theorem Timed.run {s : Session} (ht : s.Timed) (h : s.Sound) (es : List Event)
    (hc : (s.run es).crash? = none) :
    (s.run es).session.Sound ∧ (s.run es).session.Timed ∧
      Timer.Later s.timer (s.run es).session.timer :=
  run_invariant (P := fun r => r.Sound ∧ r.Timed ∧ Timer.Later s.timer r.timer)
    (fun e hr hx =>
      have hnext := hr.2.1.handle hr.1 e hx
      ⟨hr.1.handle e hx, hnext.1, hr.2.2.trans hnext.2⟩)
    ⟨h, ht, .refl _⟩ es hc

section

variable {s : Session} (h : s.Sound) (ht : s.Timed)

include h ht

theorem Timed.stands : ∃! k : Standing, k.Holds s := by
  have hend := h.finished_iff
  cases hp : s.phase with
  | idle =>
    have hf : s.finished = false := by simpa [hp] using hend
    refine ⟨.rests, ⟨hp, hf, ht.unarmed (by rw [hp]; rfl)⟩, ?_⟩
    rintro (_ | _ | _) ⟨hk, -⟩
    · rfl
    · rw [hp] at hk
      exact absurd hk (by decide)
    · rw [hp] at hk
      cases hk
  | complete =>
    have hf : s.finished = true := by simpa [hp] using hend
    refine ⟨.ended, ⟨hp, hf, ht.unarmed (by rw [hp]; rfl)⟩, ?_⟩
    rintro (_ | _ | _) ⟨hk, hk'⟩
    · rw [hp] at hk
      cases hk
    · rw [hp] at hk'
      exact absurd hk'.1 (by decide)
    · rfl
  | _ =>
    have hf : s.finished = false := by simpa [hp] using hend
    refine ⟨.waits, ⟨by rw [hp]; decide, by rw [hp]; decide, hf, ht.armed (by rw [hp]; rfl)⟩, ?_⟩
    rintro (_ | _ | _) ⟨hk, -⟩
    · rw [hp] at hk
      cases hk
    · rfl
    · rw [hp] at hk
      cases hk

/-- The armed timeout runs out. -/
theorem Timed.expire (hu : s.phase.underWay = true) (hf : s.finished = false) {n : Nat}
    (hn : s.expiriesLeft ≤ n + 1) :
    ∃ id, s.expiry? = some (.timeout id) ∧ Nears s n (s.handle (.timeout id)) := by
  obtain ⟨x, hx, -, -⟩ := ht.armed hu
  refine ⟨x.id, by rw [expiry?, hx]; rfl, ?_⟩
  have hs := step_complete h hf (.timeout x.id)
  generalize s.handle (.timeout x.id) = t at hs
  cases hs with
  | reply hno => exact absurd rfl (hno _)
  | stale hd => simp [Timer.due?, hx] at hd
  | expired hd he hr =>
    have hfired := h.withTimer (h.not_idle_of_due hd) s.timer.fire
    exact (hr.nears hfired hf ht.asking he hn).after (s := s) (Nat.le_refl n) (fun _ hd => hd) _

end

/-- As many timeouts as are left bring a session to its end. -/
theorem Timed.ends {s : Session} (ht : s.Timed) (h : s.Sound) {n : Nat} (hn : s.expiriesLeft ≤ n)
    (h3 : n ≤ 3) :
    (s.feed (.replicate n .expiry)).session.finished = true ∨
      (s.feed (.replicate n .expiry)).crash? = some .device ∧
        ∃ d, s.device = some d ∧ d.breaksOn ≠ [] := by
  -- each expiry brings `expiriesLeft` down with `n`; with none left the session is over
  induction n generalizing s with
  | zero => exact .inl (h.finished_iff.mpr (complete_of_expiriesLeft (Nat.le_zero.mp hn)))
  | succ n ih =>
    cases hf : s.finished with
    | true =>
      rw [feed_of_finished hf]
      exact .inl hf
    | false =>
      have hu := Phase.underWay_of_ne (h.not_idle_of_expiriesLeft (Nat.le_trans hn h3))
        (h.not_complete hf)
      obtain ⟨id, hid, hnear⟩ := ht.expire h hu hf hn
      rw [List.replicate_succ, feed]
      simp only [hf, Bool.false_eq_true, if_false, arriving?, hid]
      cases hnear with
      | waits hc hleft hd =>
        split
        · next c hr => exact absurd hr (Turn.reaction_ne_crash hc c)
        · rcases ih (ht.handle h _ hc).1 (h.handle _ hc) hleft (Nat.le_of_succ_le h3) with
            hend | ⟨hcr, d, hdev, hb⟩
          · exact .inl hend
          · exact .inr ⟨hcr, d, hd d hdev, hb⟩
      | breaks hc hd =>
        rw [Turn.reaction_of_crash? hc]
        exact .inr ⟨hc, hd⟩

theorem Timed.timely {s : Session} (ht : s.Timed) (h : s.Sound) : s.Timely where
  stands := ht.stands h
  balanced := ht.regular.balanced
  numbered := ht.regular.numbered
  latest := ht.regular.latest
  increasing x hx es more y hc hgone hc' hy := by
    obtain ⟨hs, htimed, hlater⟩ := ht.run h es hc
    exact hlater.lt_of_gone ht.regular (htimed.run hs more hc').2.2 hx hgone hy
  ends hw := by
    have hi : s.phase ≠ .idle := by
      intro hp
      have hlt := hw.1
      rw [hp] at hlt
      exact absurd hlt (by decide)
    exact ht.ends h (expiriesLeft_le hi) (Nat.le_refl 3)

/-- A session never hangs: whatever it is told, and in whatever order, it is timely. -/
theorem timely_run (config : Config) (mode : Mode) (image : Option Image) (device : Option Device)
    (collaborators : Collaborators) (guard : Guard) (es : List Event)
    (hc : ((fresh config mode image device collaborators guard).run es).crash? = none) :
    ((fresh config mode image device collaborators guard).run es).session.Timely := by
  obtain ⟨h, ht, -⟩ :=
    (Timed.fresh config mode image device collaborators guard).run (.fresh ..) es hc
  exact ht.timely h

/-- A peripheral that tells nothing of itself, behind the mesh, and a mesh core that was asked. -/
def askingRun : List Event :=
  [.start, .connection true none, .timeout 1, .service (some .current) none,
    .value .appInfo none none, .abort false]

theorem timely_while_asking :
    let s := fresh {} .direct (some ⟨#[1, 2, 3], by decide, by decide⟩)
      (some { name := "node", route := .meshTunnel, meshAddress := some 5,
              breaksOn := [.enableNotifications true] })
      { meshCore := true } {}
    (s.run askingRun).crash? = none ∧ Standing.waits.Holds (s.run askingRun).session ∧
      (s.run askingRun).session.Timely :=
  ⟨by decide, ⟨by decide, by decide, by decide, _, rfl, by decide, by decide⟩,
    timely_run _ _ _ _ _ _ _ (by decide)⟩

end OtaUpgrade.Session
