import Mathlib
import OtaUpgrade.Proofs.Link.Completion
import OtaUpgrade.Proofs.Link.Diagnosis
import OtaUpgrade.Proofs.Session.Sizing

/-!
The room that settings leave on a device decides how an upgrade of a peripheral goes that refuses
nothing. With room it succeeds in chunks of that size (`ample`); without any it ends when the link
comes up, for want of room (`cramped`). Either way the outcome is still there once the worker has run
out of jobs (`Runs.drained`).
-/
namespace OtaUpgrade

/-! ## What a session keeps on its way -/

namespace Scenario

/-- The scenario, in which the session keeps something else besides. -/
def keeping (c : Scenario) (I : Session → Prop) : Scenario where
  Way s queue q := c.Way s queue q ∧ I s
  Outcome s log := c.Outcome s log ∧ I s

variable {c : Scenario} {I : Session → Prop} {n : Nat} {b : Bool} {queue rest : List Event}
  {q : Peripheral} {t : Turn}

theorem Continues.keeping (h : c.Continues n b queue q t) (hi : t.crash? = none → I t.session) :
    (c.keeping I).Continues n b queue q t :=
  ⟨h.whole, h.begun, ⟨h.way, hi h.whole⟩, h.spent, h.bound⟩

theorem Proceeds.keeping (h : c.Proceeds n b rest q t) (hi : t.crash? = none → I t.session) :
    (c.keeping I).Proceeds n b rest q t := by
  cases h with
  | continues h => exact .continues (h.keeping hi)
  | closes h =>
    exact .closes ⟨h.whole, h.finished, h.empty, ⟨h.outcome, hi h.whole⟩, h.calls, h.spent⟩

/-- What every turn keeps is kept all the way. -/
theorem Sustained.keeping (hc : c.Sustained)
    (hi : ∀ {s : Session} {e : Event}, s.Sound → (s.handle e).crash? = none → I s →
      I (s.handle e).session) : (c.keeping I).Sustained where
  unfinished hw := hc.unfinished hw.1
  fromDevice hw := hc.fromDevice hw.1
  unbegun h hw := hc.unbegun h hw.1
  replied h ht hw := (hc.replied h ht hw.1).keeping fun hx => hi h hx hw.2
  told h ht he hw hb := (hc.told h ht he hw.1 hb).keeping fun hx => hi h hx hw.2
  expired h ht hx hw := (hc.expired h ht hx hw.1).keeping fun hc => hi h hc hw.2
  parted ho connected disconnects notifying :=
    ⟨hc.parted ho.1 connected disconnects notifying, ho.2⟩

end Scenario

namespace Session

variable {s : Session} {room : Nat}

/-- The session has settled its chunks on the room there is, if on any; without error it does not
end before it has. -/
structure Settled (room : Nat) (s : Session) : Prop where
  sound : s.Sound
  affords : s.Affords room
  size : s.transfer.chunkSize = 0 ∨ s.transfer.chunkSize = room
  pos : s.phase = .complete → s.error = none → 0 < s.transfer.chunkSize

theorem Settled.handle (h : s.Settled room) (e : Event) (hc : (s.handle e).crash? = none) :
    (s.handle e).session.Settled room where
  sound := h.sound.handle e hc
  affords := h.affords.handle h.sound e
  size := by
    rcases (passage_complete h.sound e).chunkSize h.affords with hs | hs
    · rw [hs]
      exact h.size
    · exact .inr hs
  pos hp he := by
    cases h.sound.deed e with
    | stays hp' ht he' =>
      rw [ht]
      exact h.pos (hp'.symm.trans hp) (he'.symm.trans he)
    | finishes hs _ _ ht =>
      have hu : s.phase.underWay = true := by
        rw [hs]
        rfl
      obtain ⟨image, hi⟩ := h.sound.imaged hu
      have hst := h.sound.stands image hi
      rw [hs] at hst
      obtain ⟨size, count, pos, -, -, hbooks⟩ := hst
      rw [ht, hbooks]
      exact pos
    | fails _ he' =>
      rw [he] at he'
      cases he'
    | connects _ hp' | discovers _ _ hp' | reads _ _ hp' | notifies _ hp' | prepares _ _ hp'
    | starts _ _ _ hp' | transfers _ _ _ _ _ hp' | next _ _ _ _ _ _ hp'
    | verifies _ _ _ _ _ _ _ hp' =>
      rw [hp] at hp'
      cases hp'

theorem Settled.fresh {config : Config} {d : Device}
    (hroom : config.chunkSizeFor? d.mtu d.overhead = some room) (mode : Mode)
    (image : Option Image) (collaborators : Collaborators) (guard : Guard) :
    (fresh config mode image (some d) collaborators guard).Settled room where
  sound := .fresh ..
  affords := (Sized.fresh hroom mode image collaborators guard).leaves.affords
  size := .inl rfl
  pos := nofun

/-- A session that has ended without error has sent chunks of the size that there was room for. -/
theorem Settled.chunkSize_eq (h : s.Settled room) (hf : s.finished = true)
    (he : s.error = none) : s.transfer.chunkSize = room := by
  have hpos := h.pos (h.sound.finished_iff.mp hf) he
  exact h.size.resolve_left (Nat.ne_of_gt hpos)

end Session

/-! ## Without room -/

/-- A session on its way to a device for which there is no room. -/
structure Cramped (d : Device) (s : Session) (queue : List Event) (q : Peripheral) : Prop where
  room : s.config.chunkSizeFor? d.mtu d.overhead = some 0
  device : s.device = some d
  sturdy : d.breaksOn = []
  image : ∃ image, s.image = some image
  unfinished : s.finished = false
  error : s.error = none
  notices : q.notices = []
  welcome : q.setup.refusesConnection = false
  /-- The upgrade is about to begin, or the link to come up. -/
  stage : s.phase = .idle ∧ s.guard.has .connection = false ∧ queue = [] ∨
    s.phase = .connect ∧ queue = [.connection true none]

namespace Cramped

variable {d : Device} {s : Session} {e : Event} {queue rest : List Event} {q : Peripheral} {b : Bool}

/-- The upgrade ends when the link comes up, for want of room. -/
def course (d : Device) : Scenario where
  Way := Cramped d
  Outcome s _ := s.error = some ⟨.connect, .invalidMtu d.mtu⟩

theorem withGuard (h : Cramped d s queue q) (hi : s.phase ≠ .idle) (guard : Guard) :
    Cramped d { s with guard } queue q :=
  ⟨h.room, h.device, h.sturdy, h.image, h.unfinished, h.error, h.notices, h.welcome,
    .inr (h.stage.resolve_left fun hs => hi hs.1)⟩

/-- The link that comes up is closed again. -/
theorem replied (hs : s.Sound) (h : Cramped d s (e :: rest) q) :
    (course d).Proceeds s.movesLeft true rest q (s.handle e) := by
  obtain ⟨-, -, hnone⟩ | ⟨hp, hq⟩ := h.stage
  · cases hnone
  obtain ⟨rfl, rfl⟩ := List.cons.inj hq
  obtain ⟨s', hfail⟩ : ∃ s', Session.Failure s (.connection true none) s' (.invalidMtu d.mtu)
      .complete := ⟨_, .mtu hp h.device h.room⟩
  have hkept := hfail.kept
  have hmoves : (s'.recordError (.invalidMtu d.mtu)).movesFrom .complete < s.movesLeft :=
    Session.movesFrom_lt (by rw [hp]; decide) (by simp [hkept.transfer]) (by simp [hkept.transfer])
  rw [hfail.handle hs h.unfinished]
  refine .closes (Scenario.closes_of_complete ?_ ?_ h.sturdy h.notices ?_ (Nat.le_of_lt hmoves))
  · simp [hkept.finished, h.unfinished]
  · simp [hkept.device, h.device]
  · show (s'.recordError (.invalidMtu d.mtu)).error = _
    simp [Session.recordError_eq, hkept.error, h.error, hkept.phase, hp]

/-- The device is asked to connect, and does. -/
theorem connects (h : Cramped d s [] q) :
    (course d).Continues (s.movesFrom .connect) b [] q (s.proceed .connect) := by
  obtain ⟨-, hfree, -⟩ | ⟨-, hq⟩ := h.stage
  · obtain ⟨image, hi⟩ := h.image
    have hanswered : Link.answered q .connect = ([.connection true none],
        q.withLog { q.log with connected := true, connects := q.log.connects + 1 }) := by
      simp [Link.answered, Carriage.perform, Link.connect, Link.takeNotices, h.welcome, h.notices,
        DeviceCall.completion?, Peripheral.withLog]
    rw [Session.proceed, Session.enter_connect hi h.device hfree, Session.settle_after,
      Session.settle_ask]
    have hway : Cramped d { s.arrive .connect with guard := s.guard.begin .connection }
        [.connection true none]
        (q.withLog { q.log with connected := true, connects := q.log.connects + 1 }) :=
      ⟨h.room, h.device, h.sturdy, ⟨image, hi⟩, h.unfinished, h.error, h.notices, h.welcome,
        .inr ⟨rfl, rfl⟩⟩
    exact (Scenario.continues_ask (c := course d) h.sturdy (by rintro ⟨⟩) hanswered (by decide) hway
      (Session.movesLeft_arrived rfl rfl rfl)).after rfl rfl rfl
  · cases hq

theorem told (hs : s.Sound) (h : Cramped d s queue q)
    (he : e = .start ∨ s.phase ≠ .idle ∧ ∃ known, e = .meshMetadata known)
    (hb : s.phase ≠ .idle → b = true) :
    (course d).Continues s.movesLeft b queue q (s.handle e) := by
  obtain ⟨hp, hfree, rfl⟩ | ⟨hp, hq⟩ := h.stage
  · obtain rfl : e = .start := he.resolve_right fun hn => hn.1 hp
    have ha : Session.Advance s .start _ _ _ := .start hp
    have hbegun : Cramped d { s with running := true } [] q :=
      ⟨h.room, h.device, h.sturdy, h.image, h.unfinished, h.error, h.notices, h.welcome,
        .inl ⟨hp, hfree, rfl⟩⟩
    rw [ha.handle hs h.unfinished]
    exact (hbegun.connects.mono (Nat.le_of_lt (ha.movesFrom_lt hs))).after rfl rfl rfl
  · have hi : s.phase ≠ .idle := by
      rw [hp]
      nofun
    have hread : s.phase ≠ .readAppInfo := by
      rw [hp]
      nofun
    obtain rfl : b = true := hb hi
    obtain ⟨guard, hguard⟩ :=
      Setback.handle_told hs h.unfinished hi hread (he.imp_right And.right)
    rw [hguard]
    exact Scenario.continues_stay hi (h.withGuard hi guard) (Nat.le_refl _)

theorem sustained (d : Device) : (course d).Sustained where
  unfinished hw := hw.unfinished
  fromDevice hw e he := by
    obtain ⟨-, -, hq⟩ | ⟨-, hq⟩ := hw.stage <;> rw [hq] at he
    · cases he
    · rw [List.mem_singleton.mp he]
      rfl
  unbegun h hw hp := by
    obtain ⟨-, -, hq⟩ | ⟨hc, -⟩ := hw.stage
    · exact hq
    · rw [hp] at hc
      cases hc
  replied h _ hw := replied h hw
  told h _ he hw hb := told h hw he hb
  expired h _ hx hw := by
    obtain ⟨hp, -, -⟩ | ⟨-, hq⟩ := hw.stage
    · rw [(h.idle hp).2.2] at hx
      cases hx
    · cases hq
  parted ho _ _ _ := ho

end Cramped

/-! ## The outcome -/

namespace Adapter

/-- A worker that is to close the link, and to do nothing else, changes no more than the state of
the link. -/
theorem work_parting {a : Adapter Peripheral} (hj : ∀ c ∈ a.jobs, c = .disconnect) (count : Nat) :
    ∃ connected disconnects notifying,
      (a.work count).1.link.log = { a.link.log with connected, disconnects, notifying } := by
  induction count generalizing a with
  | zero => exact ⟨_, _, _, rfl⟩
  | succ count ih =>
    obtain ⟨⟨connected, disconnects, notifying, hlog⟩, hjobs⟩ := ClosedLoop.step_parting hj
    obtain ⟨connected', disconnects', notifying', hrest⟩ := ih hjobs
    rw [hlog] at hrest
    exact ⟨connected', disconnects', notifying', hrest⟩

end Adapter

namespace Scenario

variable {c : Scenario} {l : ClosedLoop Peripheral}

/-- What an upgrade has come to is still there when the worker has run out of jobs. -/
theorem Over.drain (hc : c.Sustained) (h : c.Over l) : l.drain.Ended Peripheral.log c.Outcome := by
  obtain ⟨connected, disconnects, notifying, hlog⟩ :=
    Adapter.work_parting h.jobs l.adapter.workload
  obtain ⟨whole, finished, outcome⟩ := h.ended
  refine ⟨whole, finished, ?_⟩
  show c.Outcome l.host.session (l.adapter.work l.adapter.workload).1.link.log
  rw [hlog]
  exact hc.parted outcome connected disconnects notifying

end Scenario

end OtaUpgrade
