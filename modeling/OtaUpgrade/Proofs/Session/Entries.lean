import Mathlib
import OtaUpgrade.Proofs.Session.SoundStep
import OtaUpgrade.Session.Trace

/-!
The phases that a session passes through within one event. An event makes it enter no phase, one,
or, where the first is slipped through, two: `Passage` lists the ways, with the session about to
enter each phase, and there are no others (`passage_complete`).
-/
namespace OtaUpgrade

/-- The effect only tells observers how the upgrade goes on. -/
def Effect.isRemark : Effect → Bool
  | .report (.progress _) | .report (.log _ _) => true
  | _ => false

namespace Trace

/-- Nothing but remarks. -/
def Remarks (es : List Effect) : Prop :=
  ∀ x ∈ es, x.isRemark = true

theorem Remarks.nil : Remarks [] :=
  fun _ hx => absurd hx List.not_mem_nil

theorem Remarks.singleton {x : Effect} (h : x.isRemark = true) : Remarks [x] :=
  List.forall_mem_singleton.mpr h

theorem Remarks.append {as bs : List Effect} (ha : Remarks as) (hb : Remarks bs) :
    Remarks (as ++ bs) := by
  intro x hx
  rcases List.mem_append.mp hx with hx | hx
  · exact ha x hx
  · exact hb x hx

/-- Remarks ask nothing of the device. -/
theorem Remarks.calls {es : List Effect} (h : Remarks es) : Trace.calls es = [] := by
  refine List.filterMap_eq_nil_iff.mpr fun x hx => ?_
  have hx := h x hx
  cases x <;> first | rfl | cases hx

end Trace

namespace Session

/-- The phases entered while a turn is followed through at most `depth` of them, each with the
session about to enter it. -/
def entering : (depth : Nat) → Turn → List (Phase × Session)
  | 0, _ => []
  | depth + 1, turn =>
    match turn.reaction with
    | .stay | .crash _ => []
    | .enter next => (next, turn.session) :: entering depth (turn.session.enter next)
    | .fail cause next =>
      (next, turn.session.recordError cause) ::
        entering depth ((turn.session.recordError cause).enter next)

/-- The phases entered over an event, in order, each with the session about to enter it. -/
def entries (s : Session) (e : Event) : List (Phase × Session) :=
  entering (s.dispatch e).reaction.reach (s.dispatch e)

/-- The phases entered while a turn is followed to where the session rests. -/
def passing (t : Turn) : List (Phase × Session) :=
  entering t.reaction.reach t

/-! ## Following a turn -/

section following

variable {t : Turn} {p : Phase} {s : Session}

theorem entering_of_rest (hd : t.departure? = none) (depth : Nat) : entering depth t = [] := by
  cases depth with
  | zero => rfl
  | succ depth =>
    unfold entering
    rcases Turn.departure?_eq_none.mp hd with hr | ⟨c, hr⟩ <;> rw [hr]

theorem entering_of_departure (hd : t.departure? = some (p, s)) (depth : Nat) :
    entering (depth + 1) t = (p, s) :: entering depth (s.enter p) := by
  unfold Turn.departure? at hd
  rw [entering]
  cases hr : t.reaction with
  | stay | crash =>
    rw [hr] at hd
    cases hd
  | enter | fail =>
    rw [hr] at hd
    cases hd
    rfl

theorem entering_succ {depth : Nat} (h : t.reaction.reach ≤ depth) :
    entering (depth + 1) t = entering depth t := by
  -- on the depth: each phase entered leads to later ones only
  induction depth generalizing t with
  | zero =>
    have hd := Turn.departure?_of_reach (Nat.le_zero.mp h)
    rw [entering_of_rest hd, entering_of_rest hd]
  | succ depth ih =>
    cases hd : t.departure? with
    | none => rw [entering_of_rest hd, entering_of_rest hd]
    | some x =>
      obtain ⟨p, s⟩ := x
      have hlt := reach_enter_lt s p
      rw [Turn.reach_departure hd] at h
      rw [entering_of_departure hd, entering_of_departure hd, ih (by omega)]

/-- More depth than a turn can reach enters nothing more. -/
theorem entering_of_reach_le {depth : Nat} (h : t.reaction.reach ≤ depth) :
    entering depth t = passing t := by
  induction depth, h using Nat.le_induction with
  | base => rfl
  | succ depth h ih => rw [entering_succ h, ih]

theorem entering_after (depth : Nat) (t : Turn) (es : List Effect) :
    entering depth (t.after es) = entering depth t := by
  cases depth <;> rfl

@[simp] theorem passing_after (t : Turn) (es : List Effect) : passing (t.after es) = passing t :=
  entering_after _ t es

theorem passing_of_reach (h : t.reaction.reach = 0) : passing t = [] :=
  entering_of_rest (Turn.departure?_of_reach h) _

theorem passing_of_departure (hd : t.departure? = some (p, s)) :
    passing t = (p, s) :: passing (s.enter p) := by
  have hlt := reach_enter_lt s p
  obtain ⟨n, hn⟩ : ∃ n, p.remaining = n + 1 := ⟨p.remaining - 1, by omega⟩
  rw [passing, Turn.reach_departure hd, hn, entering_of_departure hd,
    entering_of_reach_le (by omega)]

theorem passing_moveTo (s : Session) (p : Phase) :
    passing (s.moveTo p) = (p, s) :: passing (s.enter p) :=
  passing_of_departure (Turn.departure?_of_enter rfl)

theorem passing_failTo (s : Session) (cause : Cause) (p : Phase) :
    passing (s.failTo cause p)
      = (p, s.recordError cause) :: passing ((s.recordError cause).enter p) :=
  passing_of_departure (Turn.departure?_of_fail rfl)

end following

/-! ## Passages -/

/-- The answers to an event, other than a timeout, that make a session enter a phase, each with the
session about to enter it. -/
inductive Move (s : Session) : Event → Phase → Session → Turn → Prop where
  | advance {e : Event} {s' : Session} {es : List Effect} {p : Phase} (h : Advance s e s' es p) :
      Move s e p s' ((s'.moveTo p).after es)
  | failure {e : Event} {s' : Session} {cause : Cause} {p : Phase} (h : Failure s e s' cause p) :
      Move s e p (s'.recordError cause) (s'.failTo cause p)

/-- The ways through an event: the phases entered and the turn that it comes to. -/
inductive Passage : Session → Event → List (Phase × Session) → Turn → Prop where
  | ended {s : Session} {e : Event} (hf : s.finished = true) : Passage s e [] s.stay
  | stale {s : Session} {id : Nat} (hd : s.timer.due? id = none) :
      Passage s (.timeout id) [] s.stay
  | rests {s : Session} {e : Event} {t : Turn} (h : Answer s e t) : Passage s e [] t
  | enters {s r : Session} {e : Event} {p : Phase} {t t' : Turn} (hm : Move s e p r t)
      (hr : r.Poised p) (hh : Halt r p t') : Passage s e [(p, r)] (t'.after t.effects)
  | slips {s r r' : Session} {e : Event} {p q : Phase} {t t' t'' : Turn} (hm : Move s e p r t)
      (hr : r.Poised p) (hs : Slip r p q r' t') (hr' : r'.Poised q) (hh : Halt r' q t'') :
      Passage s e [(p, r), (q, r')] ((t''.after t'.effects).after t.effects)
  | expired {s : Session} {id : Nat} {timeout : Timeout} {e : Event}
      {entries : List (Phase × Session)} {t : Turn} (hd : s.timer.due? id = some timeout)
      (he : s.failureEvent? (.timeout timeout.ms) = some e)
      (ht : Passage { s with timer := s.timer.fire } e entries t) :
      Passage s (.timeout id) entries
        (t.after [.report (.log .warn s!"{timeout.phase.name} timed out after {timeout.ms}ms")])

theorem Slip.poised {s r : Session} {p q : Phase} {t : Turn} (h : Slip s p q r t)
    (hs : s.Poised p) : r.Poised q := by
  cases h with
  | noImage | noDevice => exact hs.arrive_complete.recordError _
  | skip => exact hs.arrive_notify rfl
  | unlinked => exact hs.arrive_complete

theorem Slip.remarks {s r : Session} {p q : Phase} {t : Turn} (h : Slip s p q r t) :
    Trace.Remarks t.effects := by
  cases h <;> exact .singleton rfl

theorem Slip.passing_eq {s r : Session} {p q : Phase} {t : Turn} (h : Slip s p q r t) :
    passing t = (q, r) :: passing (r.enter q) := by
  cases h with
  | noImage | noDevice => rw [passing_after, passing_failTo]
  | skip | unlinked => rw [passing_after, passing_moveTo]

/-- Whatever is slipped through to is not slipped through itself. -/
theorem Slip.halts {s r : Session} {p q : Phase} {t : Turn} (h : Slip s p q r t)
    (hs : s.Poised p) : Halt r q (r.enter q) := by
  cases entrance_complete (h.poised hs) with
  | halts hh => exact hh
  | slips h' => cases h <;> cases h'

theorem remarks_chunkReport (s : Session) : Trace.Remarks s.chunkReport := by
  unfold chunkReport
  split
  · exact .nil
  · exact .singleton rfl

section passage

variable {s : Session} {e : Event} {t : Turn}

theorem Move.passing_eq {p : Phase} {r : Session} (h : Move s e p r t) :
    passing t = (p, r) :: passing (r.enter p) := by
  cases h with
  | advance => rw [passing_after, passing_moveTo]
  | failure => exact passing_failTo _ _ _

theorem Move.settle_eq {p : Phase} {r : Session} (h : Move s e p r t) :
    settle t = (settle (r.enter p)).after t.effects := by
  cases h with
  | advance =>
    rw [settle_after, settle_moveTo, Turn.effects_after]
    simp [proceed, moveTo]
  | failure =>
    rw [settle_failTo]
    rfl

theorem Move.remarks {p : Phase} {r : Session} (h : Move s e p r t) :
    Trace.Remarks t.effects := by
  cases h with
  | advance ha =>
    cases ha with
    | transferred => exact s.remarks_chunkReport.append .nil
    | rebooted => exact .singleton rfl
    | _ => exact .nil
  | failure => exact .nil

variable (h : s.Sound)

include h

theorem Move.poised (hf : s.finished = false) {p : Phase} {r : Session} (hm : Move s e p r t) :
    r.Poised p := by
  cases hm with
  | advance ha => exact ha.poised h hf
  | failure ha => exact ha.poised h hf

theorem Move.passage (hf : s.finished = false) {p : Phase} {r : Session} (hm : Move s e p r t) :
    Passage s e (passing t) (settle t) := by
  have hr := hm.poised h hf
  have hentrance := entrance_complete hr
  rw [hm.passing_eq, hm.settle_eq]
  generalize r.enter p = t' at hentrance
  cases hentrance with
  | halts hh =>
    rw [passing_of_reach hh.reach, settle_of_reach hh.reach]
    exact .enters hm hr hh
  | slips hs =>
    have hh := hs.halts hr
    rw [hs.passing_eq, hs.settle_eq, proceed, passing_of_reach hh.reach, settle_of_reach hh.reach]
    exact .slips hm hr hs (hs.poised hr) hh

theorem Response.passage (hf : s.finished = false) (hr : Response s e t) :
    Passage s e (passing t) (settle t) := by
  cases hr with
  | answer ha =>
    rw [passing_of_reach ha.reach, settle_of_reach ha.reach]
    exact .rests ha
  | advance ha => exact (Move.advance ha).passage h hf
  | failure ha => exact (Move.failure ha).passage h hf

/-- There is no other way through an event. -/
theorem passage_complete (e : Event) : Passage s e (s.entries e) (s.handle e) := by
  cases hf : s.finished with
  | true =>
    rw [handle_of_finished hf, show s.entries e = [] by simp [entries, dispatch, hf, entering]]
    exact .ended hf
  | false =>
    have hd := dispatch_complete h hf e
    rw [show s.entries e = passing (s.dispatch e) from rfl, Session.handle]
    generalize s.dispatch e = t at hd
    cases hd with
    | response _ hr => exact hr.passage h hf
    | stale hd =>
      rw [settle_stay]
      exact .stale hd
    | expired hd he hr =>
      rw [passing_after, settle_after]
      exact .expired hd he (hr.passage (h.withTimer (h.not_idle_of_due hd) s.timer.fire) hf)

/-! ## Entering verification -/

omit h in
/-- Only the last acknowledgement leads to verification. -/
theorem Move.verify {r : Session} (hm : Move s e .verify r t) :
    r = s.acknowledged ∧ s.phase = .dataTransfer ∧ s.acknowledged.transfer.isDone = true := by
  cases hm with
  | advance ha =>
    cases ha with
    | transferred hp hall => exact ⟨rfl, hp, hall⟩
  | failure ha => rcases ha.gives_up with hp | hp <;> cases hp

/-- Whoever enters verification has everything acknowledged. -/
theorem Passage.verify {entries : List (Phase × Session)} (hp : Passage s e entries t)
    {r : Session} (hr : (.verify, r) ∈ entries) {image : Image} (hi : s.image = some image) :
    r.transfer.chunkSize = s.transfer.chunkSize ∧ r.transfer.Stands image .verify := by
  induction hp with
  | ended | stale | rests => cases hr
  | enters hm =>
    cases List.mem_singleton.mp hr
    obtain ⟨rfl, hp, hall⟩ := hm.verify
    obtain ⟨size, count, pos, lt, hst⟩ := h.flying hp hi
    have hack := transfer_acknowledged lt hst
    rw [hack, Transfer.isDone_after_self] at hall
    rw [hack, hst]
    exact ⟨rfl, size, count, pos, lt, hall, rfl⟩
  | slips _ _ hs =>
    -- neither is it slipped through nor slipped through to
    rcases List.mem_pair.mp hr with hx | hx <;> cases hx <;> cases hs
  | @expired s _ _ _ _ _ hd _ _ ih =>
    exact ih (h.withTimer (h.not_idle_of_due hd) s.timer.fire) hr hi

theorem Sound.entries_verify {e : Event} {r : Session}
    (hr : (.verify, r) ∈ s.entries e) {image : Image} (hi : s.image = some image) :
    r.transfer.chunkSize = s.transfer.chunkSize ∧ r.transfer.Stands image .verify :=
  (passage_complete h e).verify h hr hi

end passage

end Session
end OtaUpgrade
