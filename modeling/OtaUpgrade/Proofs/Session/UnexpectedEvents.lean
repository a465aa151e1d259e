import Mathlib
import OtaUpgrade.Proofs.Session.Advancing
import OtaUpgrade.Proofs.Session.Entries
import OtaUpgrade.Proofs.Session.Hosted
import OtaUpgrade.Proofs.Session.Stopping

/-!
Unexpected events are inert. A session that has its guard to itself keeps nothing of an event that
it does not expect (`Sound.handle_inert`), but for the mark of a request to stop that comes while
the upgrade is given up already; and that mark changes nothing any more (`Sound.handle_stopping`).
So a run with such events put in anywhere is the run without them (`Padded.undergo`).
-/
namespace OtaUpgrade

theorem Guard.finish_of_not {g : Guard} {r : Request} (h : g.has r = false) : g.finish r = g := by
  obtain ⟨connection, componentMetadata⟩ := g
  cases r <;> cases h <;> rfl

namespace Session

/-! ## What a session acts on is expected -/

section expects

variable {s : Session} {e : Event}

theorem expects_of_answer {answer : Option Bytes} (he : e.answer? = some answer) :
    s.expects e = (commandOf? s.phase).isSome := by
  unfold Event.answer? at he
  split at he <;> first | rfl | cases he

theorem expects_of_grants (hg : e.grants = true) :
    s.expects e = (commandOf? s.phase).isSome := by
  obtain rfl | ⟨error, rfl⟩ := e.eq_of_grants hg <;> rfl

theorem expects_abort {dfu : Bool} (ha : s.phase ≠ .abort) (hc : s.phase ≠ .complete) :
    s.expects (.abort dfu) = true := by
  simp [expects, ha, hc]

theorem Failure.expects {s' : Session} {cause : Cause} {p : Phase} (h : Failure s e s' cause p)
    (hs : s.Sound) : s.expects e = true := by
  cases h with
  | unprepared hp he | unstarted hp he | unverified hp he =>
    rw [expects_of_answer he, hp]
    rfl
  | unwritten hc => simp [Session.expects, hc]
  | chunk hp => simp [Session.expects, hs.chunkAck_iff.mpr hp]
  | disconnected hu => exact hu
  | stoppedDownload hp =>
    refine expects_abort ?_ ?_ <;> intro hq <;> rw [hq] at hp <;> cases hp
  | mtu hp | unconnected hp | unsupported hp | silent hp | stopped hp =>
    simp [Session.expects, hp, Phase.underWay]

theorem Advance.expects {s' : Session} {es : List Effect} {p : Phase} (h : Advance s e s' es p)
    (hs : s.Sound) : s.expects e = true := by
  cases h with
  | prepared hp hg | started hp hg | verified hp hg =>
    rw [expects_of_grants hg, hp]
    rfl
  | informed hw | uninformed hw => simp [Session.expects, hw]
  | identified hw hg => simp [Session.expects, hw, hg]
  | transferred hp => simp [Session.expects, hs.chunkAck_iff.mpr hp]
  | gaveUp hp he =>
    obtain he | ⟨error, rfl⟩ | ⟨error, rfl⟩ := he
    · obtain ⟨answer, he⟩ := Option.isSome_iff_exists.mp he
      rw [expects_of_answer he, hp]
      rfl
    · simp [Session.expects, hp, Phase.underWay]
    · simp [Session.expects, hp, commandOf?]
  | start hp | connected hp | discovered hp | notifying hp | rebooted hp =>
    simp [Session.expects, hp, Phase.underWay]

theorem Reply.eq_rest {t : Turn} (hr : Reply s e t) (hs : s.Sound) (hx : s.expects e = false) :
    t = (s.noting e).stay := by
  have expected (h : s.expects e = true) : t = (s.noting e).stay :=
    absurd (hx.symm.trans h) Bool.false_ne_true
  cases hr with
  | rest => rfl
  | advance ha => exact expected (ha.expects hs)
  | failure ha => exact expected (ha.expects hs)
  | closing hu hb =>
    refine expected (expects_abort ?_ ?_) <;> intro hq <;> rw [hq] at hb <;> cases hb
  | written hc => exact expected hc
  | asks hw => exact expected (by simp [Session.expects, hw])
  | next hp => exact expected (by simp [Session.expects, hs.chunkAck_iff.mpr hp])
  | overflow hp => exact expected (by simp [Session.expects, hp])

/-- An event that is not expected leaves its mark on the books and nothing else. -/
theorem Sound.handle_unexpected (h : s.Sound) (hf : s.finished = false)
    (hx : s.expects e = false) : s.handle e = (s.noting e).stay := by
  have hs := step_complete h hf e
  generalize s.handle e = t at hs
  cases hs with
  | reply _ hr => exact hr.eq_rest h hx
  | stale => rfl
  | expired hd => simp [Session.expects, hd] at hx

end expects

/-! ## The mark of stopping -/

/-- The session, marked as stopped on behalf of mesh DFU if `mark` says so. -/
def stopping (s : Session) (mark : Bool) : Session :=
  { s with stopRequested := s.stopRequested || mark }

/-- The event asks on behalf of mesh DFU to stop an upgrade that is given up already. -/
def marks (s : Session) (e : Event) : Bool :=
  s.phase == .abort && e == .abort true

@[simp] theorem stopping_false (s : Session) : s.stopping false = s := by
  simp [stopping]

theorem stopping_stopping (s : Session) (a b : Bool) :
    (s.stopping a).stopping b = s.stopping (a || b) := by
  simp [stopping, Bool.or_assoc]

/-! ## A guard of one's own -/

/-- The guard says just what the session itself has outstanding. -/
def OwnGuard (s : Session) : Prop :=
  s.guard = { connection := s.phase == .connect, componentMetadata := s.wait == .meshMetadata }

section ownGuard

variable {s r : Session} {e : Event} {p q : Phase} {t : Turn}

theorem OwnGuard.clear (h : s.OwnGuard) (hp : s.phase ≠ .connect) (hw : s.wait ≠ .meshMetadata) :
    s.guard = {} := by
  rw [OwnGuard] at h
  rw [h]
  simp [hp, hw]

theorem OwnGuard.connection_iff (h : s.OwnGuard) :
    s.guard.has .connection = true ↔ s.phase = .connect := by
  rw [OwnGuard] at h
  rw [h]
  exact beq_iff_eq

theorem OwnGuard.metadata_iff (h : s.OwnGuard) :
    s.guard.has .componentMetadata = true ↔ s.wait = .meshMetadata := by
  rw [OwnGuard] at h
  rw [h]
  exact beq_iff_eq

theorem OwnGuard.of_clear (hg : s.guard = {}) (hp : s.phase ≠ .connect)
    (hw : s.wait ≠ .meshMetadata) : s.OwnGuard := by
  rw [OwnGuard, hg]
  simp [hp, hw]

theorem OwnGuard.congr {s' : Session} (h : s.OwnGuard) (hg : s'.guard = s.guard)
    (hp : s'.phase = s.phase) (hw : s'.wait = s.wait) : s'.OwnGuard := by
  rw [OwnGuard, hg, hp, hw]
  exact h

theorem Sound.wait_ne (h : s.Sound) (hp : s.phase ≠ .readAppInfo) : s.wait ≠ .meshMetadata :=
  fun hw => hp (h.phase_of_meshMetadata hw)

/-- Whoever enters a phase with its guard clear has on it what the phase asks for. -/
theorem Halt.ownGuard (h : Halt s p t) (hg : p = .complete ∨ s.guard = {})
    (hc : t.crash? = none) : t.session.OwnGuard := by
  have clear (hp : p ≠ .complete) : s.guard = {} := hg.resolve_left hp
  cases h with
  | connecting _ _ hb =>
    rw [clear (by decide)] at hb
    cases hb
  | connect =>
    show s.guard.begin .connection = _
    rw [clear (by decide)]
    rfl
  | askMesh =>
    show s.guard.begin .componentMetadata = _
    rw [clear (by decide)]
    rfl
  | broken => cases hc
  | closed => rfl
  | _ => exact .of_clear (clear (by decide)) nofun nofun

theorem Slip.ownGuard (h : Slip s p q r t) (hg : s.guard = {}) : q = .complete ∨ r.guard = {} := by
  cases h with
  | skip => exact .inr hg
  | _ => exact .inl rfl

variable (h : s.Sound) (ho : s.OwnGuard)

include h ho

/-- What takes an upgrade on is taken off the guard. -/
theorem Advance.ownGuard {es : List Effect} (ha : Advance s e r es p) :
    p = .complete ∨ r.guard = {} := by
  have clear {q : Phase} (hp : s.phase = q) (h1 : q ≠ .connect) (h2 : q ≠ .readAppInfo) :
      s.guard = {} :=
    ho.clear (by rw [hp]; exact h1) (h.wait_ne (by rw [hp]; exact h2))
  cases ha with
  | start hp | discovered hp | notifying hp | prepared hp | started hp | transferred hp =>
    exact .inr (clear hp (by decide) (by decide))
  | connected hp =>
    have hw := h.wait_ne (by rw [hp]; decide)
    right
    show s.guard.finish .connection = _
    rw [show s.guard = _ from ho]
    simp [hw, Guard.finish, Guard.set]
  | informed hw | uninformed hw =>
    have hp := h.phase_of_appInfo hw
    exact .inr (ho.clear (by rw [hp]; decide) (by rw [hw]; decide))
  | identified hw =>
    have hp := h.phase_of_meshMetadata hw
    right
    show s.guard.finish .componentMetadata = _
    rw [show s.guard = _ from ho]
    simp [hp, Guard.finish, Guard.set]
  | verified | rebooted | gaveUp => exact .inl rfl

/-- An upgrade is given up with its guard clear; at its end the guard is cleared anyway. -/
theorem Failure.ownGuard {cause : Cause} (ha : Failure s e r cause p) :
    p = .complete ∨ r.guard = {} := by
  have clear (h1 : s.phase ≠ .connect) (h2 : s.phase ≠ .readAppInfo) : s.guard = {} :=
    ho.clear h1 (h.wait_ne h2)
  have clearAt {q : Phase} (hp : s.phase = q) (h1 : q ≠ .connect) (h2 : q ≠ .readAppInfo) :
      s.guard = {} :=
    clear (by rw [hp]; exact h1) (by rw [hp]; exact h2)
  cases ha with
  | disconnected hu hc =>
    split
    · exact .inl rfl
    · rename_i hb
      right
      show s.guard.finish .connection = _
      rw [clear hc (by rintro hp; rw [hp] at hb; exact hb rfl)]
      rfl
  | unstarted hp | unverified hp | chunk hp => exact .inr (clearAt hp (by decide) (by decide))
  | unwritten hc =>
    refine .inr (clear ?_ ?_) <;> rintro hp <;> rw [hp] at hc <;> cases hc
  | stoppedDownload hc =>
    refine .inr (clear ?_ ?_) <;> rintro hp <;> rw [hp] at hc <;> cases hc
  | mtu | unconnected | unsupported | silent | unprepared | stopped => exact .inl rfl

theorem Move.ownGuard (hm : Move s e p r t) : p = .complete ∨ r.guard = {} := by
  cases hm with
  | advance ha => exact ha.ownGuard h ho
  | failure ha => exact (ha.ownGuard h ho).imp_right (guard_recordError _ _).trans

/-- An unexpected event finds nothing on the guard to take off, and no link to take for lost. -/
theorem OwnGuard.noting (hf : s.finished = false) (hx : s.expects e = false) :
    s.noting e = s.stopping (s.marks e) := by
  have hguard : s.guard = _ := ho
  have hdone : s.phase ≠ .complete := h.not_complete hf
  have answered (hp : s.phase ≠ .connect) : s.guard.finish .connection = s.guard :=
    Guard.finish_of_not (by simp [hguard, hp, Guard.has])
  cases e with
  | connection connected error =>
    rw [show s.marks _ = false by simp [marks], stopping_false]
    cases connected with
    | true => simp [Session.noting, answered (by simpa [expects] using hx)]
    | false =>
      have hp : s.phase = .idle := by simpa [expects, Phase.underWay, hdone] using hx
      have hc := (h.idle hp).2.1
      simp [Session.noting, answered (by simp [hp]), ← hc]
  | meshMetadata metadata =>
    have hw : s.wait ≠ .meshMetadata := by
      intro hw
      simp [expects, hguard, hw, Guard.has] at hx
    have hg : s.guard.finish .componentMetadata = s.guard :=
      Guard.finish_of_not (by simp [hguard, hw, Guard.has])
    rw [show s.marks _ = false by simp [marks], stopping_false]
    simp [Session.noting, hg]
  | abort dfu =>
    have hp : s.phase = .abort := by simpa [expects, hdone] using hx
    cases dfu <;> simp [Session.noting, stopping, marks, hp]
  | start | service | notifications | written | value | timeout =>
    rw [show s.marks _ = false by simp [marks], stopping_false]
    rfl

theorem Answer.ownGuard (hf : s.finished = false) (ha : Answer s e t) (hc : t.crash? = none) :
    t.session.OwnGuard := by
  cases ha with
  | rest hx =>
    rw [show (s.noting e).stay.session = s.noting e from rfl, ho.noting h hf hx]
    exact ho.congr rfl rfl rfl
  | closing => exact ho.congr (by simp [Session.noting]) (by simp) (by simp)
  | written hw =>
    have clear : ∀ p, commandOf? p ≠ none → p ≠ .connect ∧ p ≠ .readAppInfo := by
      intro p
      cases p <;> simp [commandOf?]
    obtain ⟨h1, h2⟩ := clear s.phase (Option.isSome_iff_ne_none.mp hw)
    exact .of_clear (ho.clear h1 (h.wait_ne h2)) h1 (by rintro ⟨⟩)
  | asks hw =>
    have hp := h.phase_of_appInfo hw
    have hg : s.guard = {} := ho.clear (by rw [hp]; decide) (by rw [hw]; decide)
    show s.guard.begin .componentMetadata
      = { connection := s.phase == .connect, componentMetadata := true }
    rw [hg, hp]
    rfl
  | next hp =>
    have hw := h.wait_ne (by rw [hp]; decide)
    have hne : s.phase ≠ .connect := by rw [hp]; decide
    exact .of_clear (ho.clear hne hw) hne (by rintro ⟨⟩)
  | overflow => cases hc

theorem Passage.ownGuard {entries : List (Phase × Session)} (hf : s.finished = false)
    (hp : Passage s e entries t) (hc : t.crash? = none) : t.session.OwnGuard := by
  induction hp with
  | ended | stale => exact ho
  | rests ha => exact ha.ownGuard h ho hf hc
  | enters hm _ hh => exact hh.ownGuard (hm.ownGuard h ho) hc
  | slips hm _ hs _ hh =>
    have hg := (hm.ownGuard h ho).resolve_left (by rintro rfl; cases hs)
    exact hh.ownGuard (hs.ownGuard hg) hc
  | @expired s _ _ _ _ _ hd _ _ ih =>
    exact ih (h.withTimer (h.not_idle_of_due hd) s.timer.fire) (ho.congr rfl rfl rfl) hf hc

/-- A session that has its guard to itself keeps it so. -/
theorem OwnGuard.handle (e : Event) (hc : (s.handle e).crash? = none) :
    (s.handle e).session.OwnGuard := by
  cases hf : s.finished with
  | true =>
    rw [handle_of_finished hf]
    exact ho
  | false => exact (passage_complete h e).ownGuard h ho hf hc

/-- Nothing comes of an unexpected event, but for the mark of stopping. -/
theorem Sound.handle_inert (hx : s.expects e = false) :
    s.handle e = (s.stopping (s.marks e)).stay := by
  cases hf : s.finished with
  | true =>
    have hp := h.finished_iff.mp hf
    rw [handle_of_finished hf, show s.marks e = false by simp [marks, hp], stopping_false]
  | false => rw [h.handle_unexpected hf hx, ho.noting h hf hx]

end ownGuard

/-! ## The mark has no effect -/

end Session

/-- The turn with the session marked. -/
def Turn.stopping (t : Turn) (mark : Bool) : Turn :=
  { t with session := t.session.stopping mark }

namespace Session

section stopping

variable {s : Session} {e : Event} (mark : Bool)

theorem Sound.stopping (h : s.Sound) : (s.stopping mark).Sound :=
  h.stay rfl rfl rfl rfl rfl rfl rfl h.idle

theorem noting_stopping : (s.stopping mark).noting e = (s.noting e).stopping mark := by
  cases e with
  | abort dfu => simp [noting, stopping, Bool.or_right_comm]
  | connection connected error => cases connected <;> rfl
  | _ => rfl

/-- The end of an upgrade that is given up is the same with the mark: that it failed is reason
enough to stop the distribution. -/
theorem proceed_complete_stopping (hf : s.finished = false) (he : s.error.isSome = true) :
    (s.stopping mark).proceed .complete = (s.proceed .complete).stopping mark := by
  have hfarewell : (s.stopping mark).farewell = s.farewell := by
    have hsignals : (s.stopping mark).closed.closingSignals = s.closed.closingSignals := by
      unfold closingSignals
      simp only [error_closed, show (s.stopping mark).error = s.error from rfl, he, Bool.or_true]
      rfl
    unfold farewell
    rw [hsignals]
    rfl
  rw [proceed_complete hf, proceed_complete (s := s.stopping mark) hf, hfarewell]
  show (if s.breaksOnParting then _ else _) = _
  split <;> rfl

variable (h : s.Sound)

include h

/-- What is taken as the end of giving up is so with the mark as well. -/
theorem Sound.handle_gaveUp_stopping (hf : s.finished = false) (hp : s.phase = .abort)
    (he : e.answer?.isSome = true ∨ (∃ error, e = .connection false error) ∨
      ∃ error, e = .written .controlPoint (.failed error)) :
    (s.stopping mark).handle e = (s.handle e).stopping mark := by
  rw [(Advance.gaveUp hp he).handle h hf,
    (Advance.gaveUp (s := s.stopping mark) hp he).handle (h.stopping mark) hf, Turn.after_nil,
    Turn.after_nil, noting_stopping]
  have herr : (s.noting e).cancelTimer.error.isSome = true :=
    (congrArg Option.isSome (s.error_noting e)).trans (h.abort hp)
  exact proceed_complete_stopping (s := (s.noting e).cancelTimer) mark
    ((s.finished_noting e).trans hf) herr

theorem Sound.handle_timeout_stopping (hf : s.finished = false) (hp : s.phase = .abort) {id : Nat}
    (hx : s.expects (.timeout id) = true) :
    (s.stopping mark).handle (.timeout id) = (s.handle (.timeout id)).stopping mark := by
  obtain ⟨timeout, hd⟩ := Option.isSome_iff_exists.mp hx
  have he : s.failureEvent? (.timeout timeout.ms)
      = some (.written .controlPoint (.failed (.timeout timeout.ms))) := by
    rw [failureEvent?, hp]
  have hfired := h.withTimer (h.not_idle_of_due hd) s.timer.fire
  rw [handle_timeout hf hd he nofun, handle_timeout (s := s.stopping mark) hf hd he nofun]
  exact congrArg (Turn.after · _) (hfired.handle_gaveUp_stopping mark hf hp (.inr (.inr ⟨_, rfl⟩)))

/-- While an upgrade is given up only its end is waited for, or that the command is written. -/
theorem Sound.handle_expected_stopping (hf : s.finished = false) (hp : s.phase = .abort)
    (hx : s.expects e = true) : (s.stopping mark).handle e = (s.handle e).stopping mark := by
  have elsewhere {q : Phase} (hq : s.phase = q) (hne : q ≠ .abort) : False :=
    hne (hq.symm.trans hp)
  cases e with
  | connection connected error =>
    cases connected with
    | true => simp [expects, hp] at hx
    | false => exact h.handle_gaveUp_stopping mark hf hp (.inr (.inl ⟨error, rfl⟩))
  | written channel result =>
    cases channel with
    | controlPoint =>
      cases result with
      | ok response =>
        cases response with
        | some answer => exact h.handle_gaveUp_stopping mark hf hp (.inl rfl)
        | none =>
          rw [h.handle_written hf hx, (h.stopping mark).handle_written hf hx]
          rfl
      | failed error => exact h.handle_gaveUp_stopping mark hf hp (.inr (.inr ⟨error, rfl⟩))
    | data =>
      have hw : s.wait = .chunkAck := by simpa [expects] using hx
      exact (elsewhere (h.chunkAck_iff.mp hw) (by decide)).elim
    | appInfo => cases hx
  | value channel answer error =>
    cases channel with
    | controlPoint => exact h.handle_gaveUp_stopping mark hf hp (.inl rfl)
    | appInfo =>
      have hw : s.wait = .appInfo := by simpa [expects] using hx
      exact (elsewhere (h.phase_of_appInfo hw) (by decide)).elim
    | data => cases hx
  | meshMetadata metadata =>
    have hw : s.wait = .meshMetadata := by
      simp only [expects, Bool.and_eq_true, beq_iff_eq] at hx
      exact hx.2
    exact (elsewhere (h.phase_of_meshMetadata hw) (by decide)).elim
  | timeout id => exact h.handle_timeout_stopping mark hf hp hx
  | start | service | notifications | abort => simp [expects, hp] at hx

/-- Once an upgrade is given up the mark changes nothing. -/
theorem Sound.handle_stopping (hp : s.phase.isEnding = true) :
    (s.stopping mark).handle e = (s.handle e).stopping mark := by
  cases hf : s.finished with
  | true =>
    rw [handle_of_finished hf, handle_of_finished (s := s.stopping mark) hf]
    rfl
  | false =>
    have hp : s.phase = .abort := by
      simpa [Phase.isEnding, h.not_complete hf] using hp
    cases hx : s.expects e with
    | false =>
      rw [h.handle_unexpected hf hx, (h.stopping mark).handle_unexpected hf hx, noting_stopping]
      rfl
    | true => exact h.handle_expected_stopping mark hf hp hx

end stopping

end Session

namespace Host

/-- The host with its session marked. -/
def stopping (h : Host) (mark : Bool) : Host :=
  { h with session := h.session.stopping mark }

@[simp] theorem stopping_false (h : Host) : h.stopping false = h := by
  simp [stopping]

theorem stopping_stopping (h : Host) (a b : Bool) :
    (h.stopping a).stopping b = h.stopping (a || b) := by
  simp [stopping, Session.stopping_stopping]

/-- A mark is there only where it has no effect. -/
theorem handle_stopping {h : Host} {mark : Bool} (hs : h.session.Sound)
    (hm : mark = true → h.session.phase.isEnding = true) (e : Event) :
    (h.stopping mark).handle e = (h.handle e).stopping mark := by
  have hturn : (h.session.stopping mark).handle e = (h.session.handle e).stopping mark := by
    cases mark with
    | true => exact hs.handle_stopping true (hm rfl)
    | false => simp [Turn.stopping]
  show (h.stopping mark).absorb ((h.session.stopping mark).handle e) = _
  rw [hturn]
  rfl

/-- An unexpected event leaves the host as it is, but for the mark. -/
theorem handle_inert {h : Host} (hs : h.session.Sound) (ho : h.session.OwnGuard)
    (hw : h.crash = none) (hst : h.status = h.session.status) {e : Event}
    (hx : h.session.expects e = false) : h.handle e = h.stopping (h.session.marks e) := by
  rw [handle, hs.handle_inert ho hx]
  obtain ⟨session, inbox, asked, status, crash, trace⟩ := h
  obtain rfl : crash = none := hw
  obtain rfl : status = session.status := hst
  simp [absorb, stopping, Session.stay, Turn.crash?, Trace.meshRequests]
  rfl

end Host

namespace Session

/-! ## Runs with unexpected events -/

/-- The second run of events is the first with unexpected events put in. It leaves the mark of
stopping if one of those does; a session that breaks down is told no more. -/
inductive Padded : Session → List Event → List Event → Bool → Prop where
  | nil (s : Session) : Padded s [] [] false
  | told {s : Session} {e : Event} {es es' : List Event} {mark : Bool}
      (hc : (s.handle e).crash? = none) (rest : Padded (s.handle e).session es es' mark) :
      Padded s (e :: es) (e :: es') mark
  | crashed {s : Session} {e : Event} {es es' : List Event} {c : Crash}
      (hc : (s.handle e).crash? = some c) : Padded s (e :: es) (e :: es') false
  | inserted {s : Session} {e : Event} {es es' : List Event} {mark : Bool}
      (hx : s.expects e = false) (rest : Padded s es es' mark) :
      Padded s es (e :: es') (s.marks e || mark)

theorem isEnding_of_marks {s : Session} {e : Event} (h : s.marks e = true) :
    s.phase.isEnding = true := by
  simp only [marks, Bool.and_eq_true, beq_iff_eq] at h
  rw [h.1]
  rfl

/-- Whatever unexpected is put in, the host undergoes the same. -/
theorem Padded.undergo {s : Session} {es es' : List Event} {mark : Bool}
    (hp : Padded s es es' mark) {h : Host} (hh : h.session = s) (hs : s.Sound) (ho : s.OwnGuard)
    (hw : h.crash = none) (hst : h.status = h.session.status) {before : Bool}
    (hb : before = true → s.phase.isEnding = true) :
    (h.stopping before).undergo (es'.map .event)
      = (h.undergo (es.map .event)).stopping (before || mark) := by
  -- on the padding: a mark left so far stays without effect on what is still to come
  induction hp generalizing h before with
  | nil => rw [Bool.or_false]; rfl
  | @told s e es es' mark hc rest ih =>
    subst hh
    have hturn := Host.handle_stopping hs hb e
    have hc' : ((h.stopping before).session.handle e).crash? = none := by
      rw [← Host.crash_handle, hturn]
      exact hc
    rw [List.map_cons, List.map_cons, Host.undergo_event hc, Host.undergo_event hc', hturn]
    have hst' : (h.handle e).status = (h.handle e).session.status := by
      show (if (h.session.handle e).crash?.isSome then _ else _) = _
      rw [hc]
      rfl
    exact ih rfl (hs.handle e hc) (ho.handle hs e hc) hc hst'
      fun hm => (hs.deed e).isEnding (hb hm)
  | @crashed s e es es' c hc =>
    subst hh
    have hturn := Host.handle_stopping hs hb e
    have hc' : ((h.stopping before).session.handle e).crash? = some c := by
      rw [← Host.crash_handle, hturn]
      exact hc
    rw [List.map_cons, List.map_cons, Host.undergo_crash hc, Host.undergo_crash hc', hturn,
      Bool.or_false]
  | @inserted s e es es' mark hx rest ih =>
    subst hh
    have hhandle := Host.handle_inert hs ho hw hst hx
    have hturn : (h.stopping before).handle e = h.stopping (before || h.session.marks e) := by
      rw [Host.handle_stopping hs hb, hhandle, Host.stopping_stopping, Bool.or_comm]
    have hc' : ((h.stopping before).session.handle e).crash? = none := by
      rw [← Host.crash_handle, hturn]
      exact hw
    rw [List.map_cons, Host.undergo_event hc', hturn, ih rfl hs ho hw hst, Bool.or_assoc]
    intro hm
    rcases Bool.or_eq_true_iff.mp hm with hm | hm
    · exact hb hm
    · exact isEnding_of_marks hm

/-- Unexpected events change nothing, wherever they come: the session, all that it has done and what
it publishes are the same without them, but for the mark of stopping that a request on behalf of
mesh DFU leaves in an upgrade given up already. -/
theorem unexpected_inert (config : Config) (mode : Mode) (image : Option Image)
    (device : Option Device) (collaborators : Collaborators) {es es' : List Event} {mark : Bool}
    (hp : Padded (fresh config mode image device collaborators {}) es es' mark) :
    (fresh config mode image device collaborators {}).hosted (es'.map .event)
      = ((fresh config mode image device collaborators {}).hosted (es.map .event)).stopping
          mark := by
  have hs := Sound.fresh config mode image device collaborators {}
  have hnone : false = true → Phase.idle.isEnding = true := nofun
  have h := hp.undergo (h := { session := fresh config mode image device collaborators {} })
    rfl hs rfl rfl rfl hnone
  rwa [Host.stopping_false, Bool.false_or] at h

/-- An upgrade that is stopped while it prepares the download. -/
def interrupted : List Event :=
  [.start, .connection true none, .service (some .legacy) none, .notifications true none,
    .abort false, .connection false none]

/-- The same with an answer to nothing, a connection reported twice, a request to stop that comes
too late, a timeout given up before, and a report after the end. -/
def interruptedLate : List Event :=
  [.meshMetadata none, .start, .connection true none, .connection true none,
    .service (some .legacy) none, .notifications true none, .abort false, .abort true, .timeout 1,
    .connection false none, .connection false none]

/-- An upgrade of three bytes over a link of its own. -/
def interruptible : Session :=
  fresh {} .direct (Image.ofBytes [1, 2, 3]).toOption (some { name := "node" }) {} {}

theorem unexpected_inert_interrupted :
    Padded interruptible interrupted interruptedLate true ∧
      interruptible.hosted (interruptedLate.map .event)
        = (interruptible.hosted (interrupted.map .event)).stopping true := by
  have marked {s : Session} {es es' : List Event} {mark : Bool} (h : Padded s es es' mark)
      (hm : mark = true) : Padded s es es' true := hm ▸ h
  have hp : Padded interruptible interrupted interruptedLate true := by
    refine marked (.inserted ?_ (.told ?_ (.told ?_ (.inserted ?_ (.told ?_ (.told ?_ (.told ?_
      (.inserted ?_ (.inserted ?_ (.told ?_ (.inserted ?_ (.nil _)))))))))))) ?_
    all_goals decide +kernel
  exact ⟨hp, unexpected_inert {} .direct (Image.ofBytes [1, 2, 3]).toOption
    (some { name := "node" }) {} hp⟩

end Session
end OtaUpgrade
