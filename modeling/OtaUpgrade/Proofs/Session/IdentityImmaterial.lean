import Mathlib
import OtaUpgrade.Proofs.Session.Failing
import OtaUpgrade.Proofs.Session.Itinerary
import OtaUpgrade.Proofs.Session.TimeoutFailure
import OtaUpgrade.Proofs.Session.Outstanding
import OtaUpgrade.Proofs.Session.Renumbered

/-!
Who the device is does not matter. While a session finds that out, whatever it is told about it, by
the device, by the mesh core, or by no one in time, is no error, and the second thing it waits for
takes it on at the latest. And once it has gone on nothing but the recorded identity and the numbers
of its timeouts tells what it was told (`Immaterial`).
-/
namespace OtaUpgrade

/-- The event tells a session who its device is, or that it will not learn that. -/
def Event.informs : Event → Bool
  | .value .appInfo _ _ | .meshMetadata _ | .timeout _ => true
  | _ => false

namespace Session

/-- Of a run, how many events the session expected. -/
def heeded (s : Session) : List Event → Nat
  | [] => 0
  | e :: es => (if s.expects e then 1 else 0) + (s.handle e).session.heeded es

/-- All that finding out who the device is leaves a mark on. -/
inductive Unmarked (s : Session) : Session → Prop where
  | intro (phase : Phase) (wait : Wait) (timer : Timer) (guard : Guard)
      (identity : Option Identity) : Unmarked s { s with phase, wait, timer, guard, identity }

/-- What comes of an expected event that tells who the device is: the mesh core is asked as well, or
the session goes on. -/
inductive Informed (s : Session) (t : Turn) : Prop where
  | asks (hu : s.Unmarked t.session) (hw : s.wait = .appInfo) (hc : t.crash? = none)
      (hp : t.session.phase = .readAppInfo) (hm : t.session.wait = .meshMetadata)
  | goesOn (hu : s.Unmarked t.session) (hp : t.session.phase = .enableNotification)

/-- The turns are alike, but for identities and for the numbers of timeouts. -/
structure Alternates (ρ : Nat → Nat) (a b : Turn) : Prop where
  /-- Calls, requests, reports and signals. -/
  effects : b.effects = a.effects
  reaction : b.reaction = a.reaction
  session : b.session
    = { a.session with timer := b.session.timer, identity := b.session.identity }
  armed : b.session.timer.armed = a.session.timer.armed.map (Timeout.renamed ρ)

/-- It does not matter to a session who its device is. -/
structure Immaterial (s : Session) : Prop where
  harmless : ∀ e : Event, e.informs = true →
    (s.handle e).session.error = s.error ∧
      ((s.handle e).session.phase = .readAppInfo ∨
        (s.handle e).session.phase = .enableNotification)
  /-- The second event that it expects takes it on at the latest. -/
  brief : ∀ es : List Event, (∀ e ∈ es, e.informs = true) →
    (s.run es).session.phase = .readAppInfo → s.heeded es ≤ 1
  /-- Whatever it was told, it goes on the same way whatever comes then. -/
  alternates : ∀ as bs : List Event, (∀ e ∈ as, e.informs = true) →
    (∀ e ∈ bs, e.informs = true) →
    (s.run as).crash? = none → (s.run bs).crash? = none →
    (s.run as).session.phase = .enableNotification →
    (s.run bs).session.phase = .enableNotification →
    (∃ ρ, Renumbers ρ (s.run as).session.timer.lastId (s.run bs).session.timer.lastId) ∧
      ∀ ρ, Renumbers ρ (s.run as).session.timer.lastId (s.run bs).session.timer.lastId →
        ∀ es : List Event, Alternates ρ ((s.run as).session.run es)
          ((s.run bs).session.run (es.map (Event.renamed ρ)))

/-- A session between two events that has its guard to itself. -/
structure Alone (s : Session) : Prop where
  sound : s.Sound
  timed : s.Timed
  ownGuard : s.OwnGuard

theorem Unmarked.refl (s : Session) : s.Unmarked s := .intro _ _ _ _ _

theorem Unmarked.trans {s r q : Session} (h : s.Unmarked r) (h' : r.Unmarked q) :
    s.Unmarked q := by
  obtain ⟨⟩ := h
  obtain ⟨⟩ := h'
  exact .intro _ _ _ _ _

theorem Unmarked.error_eq {s r : Session} (h : s.Unmarked r) : r.error = s.error := by
  cases h
  rfl

/-- Where marks are alike as well nothing but timer and identity differs. -/
theorem Unmarked.recast {s a b : Session} (ha : s.Unmarked a) (hb : s.Unmarked b)
    (hp : b.phase = a.phase) (hw : b.wait = a.wait) (hg : b.guard = a.guard) :
    b = a.recast b.timer b.identity := by
  obtain ⟨⟩ := ha
  obtain ⟨⟩ := hb
  simp only at hp hw hg
  subst hp hw hg
  rfl

/-! ## One event -/

section event

variable {s : Session} {e : Event}

theorem proceed_enableNotification {d : Device} (hd : s.device = some d) :
    (s.proceed .enableNotification).session = s.arrive .enableNotification := by
  rw [proceed, enter_enableNotification hd, settle_after, settle_ask]
  rfl

/-- Going on to notifications leaves no other mark. -/
theorem Advance.goesOn {r : Session} {es : List Effect} (h : s.Sound)
    (hf : s.finished = false) (ha : Advance s e r es .enableNotification) (hu : s.Unmarked r) :
    Informed s (s.handle e) := by
  obtain ⟨d, hd⟩ := (ha.poised h hf).equipped nofun nofun
  have hsession : (s.handle e).session = r.arrive .enableNotification := by
    rw [ha.handle h hf, Turn.session_after, proceed_enableNotification hd]
  refine .goesOn ?_ ?_
  · rw [hsession]
    exact hu.trans (.intro _ _ _ _ _)
  · rw [hsession, phase_arrive]

theorem Sound.informed_appInfo (h : s.Sound) (hw : s.wait = .appInfo) (value : Option Bytes)
    (error : Option LinkError) : Informed s (s.handle (.value .appInfo value error)) := by
  have hp := h.phase_of_appInfo hw
  have hf := h.unfinished (by rw [hp]; nofun)
  cases hv : value.bind AppInfo.decode? with
  | some info =>
    have ha : Advance s (.value .appInfo value error) _ [] .enableNotification := .informed hw hv
    exact ha.goesOn h hf (.intro _ _ _ _ _)
  | none =>
    cases ha : s.askable? with
    | none =>
      exact (Advance.uninformed hw hv ha).goesOn h hf (.intro _ _ _ _ _)
    | some address =>
      rw [h.handle_asks hf hw hv ha]
      exact .asks (.intro _ _ _ _ _) hw rfl hp rfl

theorem Sound.informed_meshMetadata (h : s.Sound) (hw : s.wait = .meshMetadata)
    (hg : s.guard.has .componentMetadata = true) (metadata : Option ComponentMetadata) :
    Informed s (s.handle (.meshMetadata metadata)) := by
  have hp := h.phase_of_meshMetadata hw
  have hf := h.unfinished (by rw [hp]; nofun)
  exact (Advance.identified hw hg).goesOn h hf (.intro _ _ _ _ _)

/-- The step that runs out of time counts as one that told nothing. -/
theorem Sound.informed_timeout (h : s.Sound) (ht : s.Timed) (hp : s.phase = .readAppInfo) {id : Nat}
    {x : Timeout} (hd : s.timer.due? id = some x) : Informed s (s.handle (.timeout id)) := by
  have hf := h.unfinished (by rw [hp]; nofun)
  have hfired := h.withTimer (h.not_idle_of_due hd) s.timer.fire
  -- the fired session is the same but for its timer, which is marked anyway
  have fired {t : Turn} (hi : Informed ({ s with timer := s.timer.fire } : Session) t)
      (es : List Effect) : Informed s (t.after es) := by
    have hu : s.Unmarked ({ s with timer := s.timer.fire } : Session) := .intro _ _ _ _ _
    cases hi with
    | asks hu' hw hc hp hm => exact .asks (hu.trans hu') hw hc hp hm
    | goesOn hu' hp => exact .goesOn (hu.trans hu') hp
  have hw := h.awaits
  rw [hp] at hw
  cases hwait : s.wait with
  | appInfo =>
    rw [(FailsBy.reading hwait).handle_timeout h hf hd]
    exact fired (hfired.informed_appInfo hwait _ _) _
  | meshMetadata =>
    rw [(FailsBy.asking hwait).handle_timeout h hf hd]
    exact fired (hfired.informed_meshMetadata hwait (ht.asking hwait) _) _
  | nothing | write | response | chunkAck =>
    rw [hwait] at hw
    cases hw

end event

/-! ## Runs -/

section alone

variable {s : Session} (h : s.Alone)

include h

theorem Alone.handle {e : Event} (hc : (s.handle e).crash? = none) :
    (s.handle e).session.Alone :=
  ⟨h.sound.handle e hc, (h.timed.handle h.sound e hc).1, h.ownGuard.handle h.sound e hc⟩

theorem Alone.run {es : List Event} (hc : (s.run es).crash? = none) : (s.run es).session.Alone :=
  run_invariant (P := Alone) (fun _ hr hx => hr.handle hx) h es hc

theorem Alone.phase_le_run (es : List Event) : s.phase ≤ (s.run es).session.phase := by
  rw [← live_map_event]
  exact (h.sound.path_live (es.map .event)).le

theorem Alone.handle_unexpected {e : Event} (he : e.informs = true) (hx : s.expects e = false) :
    s.handle e = s.stay := by
  have hm : s.marks e = false := by
    cases e with
    | abort => cases he
    | _ => simp [marks]
  rw [h.sound.handle_inert h.ownGuard hx, hm, stopping_false]

theorem Alone.informed {e : Event} (hp : s.phase = .readAppInfo) (he : e.informs = true)
    (hx : s.expects e = true) : Informed s (s.handle e) := by
  cases e with
  | value channel value error =>
    cases channel with
    | appInfo => exact h.sound.informed_appInfo (by simpa [expects] using hx) value error
    | controlPoint | data => cases he
  | meshMetadata metadata =>
    have hx : s.guard.has .componentMetadata = true ∧ s.wait = .meshMetadata := by
      simpa [expects] using hx
    exact h.sound.informed_meshMetadata hx.2 hx.1 metadata
  | timeout id =>
    obtain ⟨x, hd⟩ := Option.isSome_iff_exists.mp hx
    exact h.sound.informed_timeout h.timed hp hd
  | start | connection | service | notifications | written | abort => cases he

/-- Once a session waits for notifications, of these events only its own timeout is expected, and
that ends the upgrade. -/
theorem Alone.phase_of_expected {e : Event} (hp : s.phase = .enableNotification)
    (he : e.informs = true) (hx : s.expects e = true) :
    (s.handle e).session.phase = .complete := by
  have hf := h.sound.unfinished (by rw [hp]; nofun)
  cases e with
  | value channel value error =>
    cases channel with
    | appInfo =>
      have hw := h.sound.phase_of_appInfo (by simpa [expects] using hx)
      rw [hp] at hw
      cases hw
    | controlPoint | data => cases he
  | meshMetadata metadata =>
    have hx : s.guard.has .componentMetadata = true ∧ s.wait = .meshMetadata := by
      simpa [expects] using hx
    have hw := h.sound.phase_of_meshMetadata hx.2
    rw [hp] at hw
    cases hw
  | timeout id =>
    obtain ⟨x, hd⟩ := Option.isSome_iff_exists.mp hx
    have hfired := h.sound.withTimer (h.sound.not_idle_of_due hd) s.timer.fire
    have hfails : Failure ({ s with timer := s.timer.fire } : Session)
        (.notifications false (some (.timeout x.ms))) _ _ .complete := .silent hp (.inl rfl)
    rw [(FailsBy.notifying hp).handle_timeout h.sound hf hd, hfails.handle hfired hf,
      Turn.session_after]
    exact (hfails.poised hfired hf).books_complete.1
  | start | connection | service | notifications | written | abort => cases he

/-- A session that is still finding out who its device is has taken one event at most. -/
theorem Alone.heeded_le {es : List Event} (hes : ∀ e ∈ es, e.informs = true)
    (hp : s.phase = .readAppInfo) (hend : (s.run es).session.phase = .readAppInfo) :
    s.heeded es ≤ if s.wait = .appInfo then 1 else 0 := by
  -- on the run: an expected event uses up that the mesh core can still be asked
  induction es generalizing s with
  | nil => exact Nat.zero_le _
  | cons e es ih =>
    obtain ⟨he, hes⟩ := List.forall_mem_cons.mp hes
    rw [heeded]
    cases hx : s.expects e with
    | false =>
      have hstay := h.handle_unexpected he hx
      have hc : (s.handle e).crash? = none := by
        rw [hstay]
        rfl
      rw [run_event hc, hstay] at hend
      rw [hstay, if_neg Bool.false_ne_true, Nat.zero_add]
      exact ih h hes hp hend
    | true =>
      cases h.informed hp he hx with
      | asks _ hw hc hp' hm =>
        rw [run_event hc] at hend
        have hrest := ih (h.handle hc) hes hp' hend
        rw [if_neg (by rw [hm]; nofun)] at hrest
        rw [if_pos rfl, if_pos hw]
        omega
      | goesOn _ hp' =>
        -- from there no phase leads back
        cases hc : (s.handle e).crash? with
        | some c =>
          rw [run_crash hc, hp'] at hend
          cases hend
        | none =>
          have hle := (h.handle hc).phase_le_run es
          rw [run_event hc, Turn.session_after] at hend
          rw [hp', hend] at hle
          exact absurd hle (by decide)

/-- Whatever a session is told until it waits for notifications leaves no other mark. -/
theorem Alone.unmarked_run {es : List Event} (hes : ∀ e ∈ es, e.informs = true)
    (hp : s.phase = .readAppInfo ∨ s.phase = .enableNotification)
    (hc : (s.run es).crash? = none) (hend : (s.run es).session.phase = .enableNotification) :
    s.Unmarked (s.run es).session := by
  induction es generalizing s with
  | nil => exact .refl s
  | cons e es ih =>
    obtain ⟨he, hes⟩ := List.forall_mem_cons.mp hes
    cases hx : (s.handle e).crash? with
    | some c =>
      rw [run_crash hx, hx] at hc
      cases hc
    | none =>
      have hnext := h.handle hx
      rw [run_event hx] at hc hend ⊢
      have hrest := ih hnext hes
      cases hexp : s.expects e with
      | false =>
        have hstay := h.handle_unexpected he hexp
        rw [hstay] at hrest hc hend ⊢
        exact hrest hp hc hend
      | true =>
        rcases hp with hp | hp
        · cases h.informed hp he hexp with
          | asks hu _ _ hp' => exact hu.trans (hrest (.inl hp') hc hend)
          | goesOn hu hp' => exact hu.trans (hrest (.inr hp') hc hend)
        · have hle := hnext.phase_le_run es
          have hend : ((s.handle e).session.run es).session.phase = .enableNotification := hend
          rw [h.phase_of_expected hp he hexp, hend] at hle
          exact absurd hle (by decide)

/-- A session that waits for notifications has nothing outstanding but its timeout. -/
theorem Alone.settled (hp : s.phase = .enableNotification) : s.wait = .nothing ∧ s.guard = {} := by
  have hw : s.wait = .nothing := by
    have haw := h.sound.awaits
    rw [hp] at haw
    cases hwait : s.wait <;> rw [hwait] at haw <;> first | rfl | cases haw
  refine ⟨hw, h.ownGuard.clear ?_ ?_⟩
  · rw [hp]
    nofun
  · rw [hw]
    nofun

end alone

/-- Two sessions that wait for notifications and are otherwise unmarked differ as renumbered ones
do. -/
theorem Alone.renumbered {s a b : Session} (ha : a.Alone) (hb : b.Alone) (hua : s.Unmarked a)
    (hub : s.Unmarked b) (hpa : a.phase = .enableNotification)
    (hpb : b.phase = .enableNotification) {ρ : Nat → Nat}
    (hρ : Renumbers ρ a.timer.lastId b.timer.lastId) :
    (Indifference.renumbering ρ).Sessions a b := by
  have heq : b = a.recast b.timer b.identity :=
    hua.recast hub (hpb.trans hpa.symm) ((hb.settled hpb).1.trans (ha.settled hpa).1.symm)
      ((hb.settled hpb).2.trans (ha.settled hpa).2.symm)
  have hconfig : b.config = a.config := by
    rw [heq]
    rfl
  obtain ⟨x, hx, hxp, hxms⟩ := ha.timed.armed (by rw [hpa]; rfl)
  obtain ⟨y, hy, hyp, hyms⟩ := hb.timed.armed (by rw [hpb]; rfl)
  have hxy : y = x.renamed ρ := by
    have hid : y.id = ρ x.id := by
      rw [hb.timed.regular.latest y hy, ha.timed.regular.latest x hx, hρ.last_eq]
    have hphase : y.phase = x.phase := by
      rw [hyp, hxp, hpb, hpa]
    have hms : y.ms = x.ms := by
      rw [hconfig, hpb, ← hpa, hxms] at hyms
      exact (Option.some.inj hyms).symm
    obtain ⟨id, p, ms⟩ := y
    simp only at hid hphase hms
    rw [hid, hphase, hms]
    rfl
  rw [heq]
  refine .recast ⟨hρ, ha.timed.regular.latest, ?_⟩ trivial
  rw [hx, hy, hxy]
  rfl

/-- An armed timeout has a number, and numbers begin with one. -/
theorem Alone.lastId_pos {s : Session} (h : s.Alone) (hu : s.phase.underWay = true) :
    0 < s.timer.lastId := by
  obtain ⟨x, hx, -⟩ := h.timed.armed hu
  have hbalanced := h.timed.regular.balanced
  have hnumbered := h.timed.regular.numbered
  rw [Timer.Balanced, hx, Option.isSome_some, if_pos rfl] at hbalanced
  omega

/-- Whatever an upgrade with its guard to itself has come through until it finds out who its device
is, that does not matter to it. -/
theorem immaterial_run (config : Config) (mode : Mode) (image : Option Image)
    (device : Option Device) (collaborators : Collaborators) (before : List Event)
    (hc : ((fresh config mode image device collaborators {}).run before).crash? = none)
    (hp : ((fresh config mode image device collaborators {}).run before).session.phase
      = .readAppInfo) :
    Immaterial ((fresh config mode image device collaborators {}).run before).session := by
  have h : (fresh config mode image device collaborators {}).Alone :=
    ⟨.fresh .., .fresh .., rfl⟩
  replace h := h.run hc
  generalize ((fresh config mode image device collaborators {}).run before).session = s at h hp
  constructor
  case harmless =>
    intro e he
    cases hx : s.expects e with
    | false =>
      rw [h.handle_unexpected he hx]
      exact ⟨rfl, .inl hp⟩
    | true =>
      cases h.informed hp he hx with
      | asks hu _ _ hp' => exact ⟨hu.error_eq, .inl hp'⟩
      | goesOn hu hp' => exact ⟨hu.error_eq, .inr hp'⟩
  case brief =>
    intro es hes hend
    refine Nat.le_trans (h.heeded_le hes hp hend) ?_
    split <;> decide
  case alternates =>
    intro as bs has hbs hca hcb hpa hpb
    have ha := h.run hca
    have hb := h.run hcb
    refine ⟨Renumbers.exists_of_pos _ (hb.lastId_pos (by rw [hpb]; rfl)), fun ρ hρ es => ?_⟩
    have hturns := (ha.renumbered hb (h.unmarked_run has (.inl hp) hca hpa)
      (h.unmarked_run hbs (.inl hp) hcb hpb) hpa hpb hρ).run_renamed es
    exact ⟨hturns.effects, hturns.reaction, hturns.session.eq_recast, hturns.session.timers.armed⟩

/-- A peripheral behind the mesh whose service has just been found. -/
theorem immaterial_run_discovered :
    let s := fresh {} .direct (some ⟨#[1, 2, 3], by decide, by decide⟩)
      (some { name := "node", route := .meshTunnel, meshAddress := some 5 })
      { meshCore := true } {}
    let before : List Event :=
      [.start, .connection true none, .service (some .current) none]
    (s.run before).crash? = none ∧ (s.run before).session.phase = .readAppInfo ∧
      Immaterial (s.run before).session :=
  ⟨by decide, by decide, immaterial_run _ _ _ _ _ _ (by decide) (by decide)⟩

end Session
end OtaUpgrade
