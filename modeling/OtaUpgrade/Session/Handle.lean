import OtaUpgrade.Session.Response

/-!
Handling events to the end. A turn may go on to another phase, whose entry may go on in turn; as
every entry leads to a later phase (`later_enter`), this settles (`settle_of_departure`). A run
handles events one after the other until the session breaks down.
-/
namespace OtaUpgrade

namespace Reaction

/-- How many phases come at or after the one that is entered next. -/
def reach : Reaction → Nat
  | stay | crash _ => 0
  | enter next | fail _ next => next.remaining

/-- The reaction goes on to no phase, or to one of which this holds. -/
def Onto (P : Phase → Prop) : Reaction → Prop
  | stay | crash _ => True
  | enter next | fail _ next => P next

/-- A reaction that reaches no phase waits or has broken down. -/
theorem eq_of_reach {r : Reaction} (h : r.reach = 0) : r = .stay ∨ ∃ c, r = .crash c := by
  cases r with
  | stay => exact .inl rfl
  | crash c => exact .inr ⟨c, rfl⟩
  | enter next | fail _ next => exact absurd h (Nat.ne_of_gt next.remaining_pos)

section onto

variable {P Q : Phase → Prop} {r : Reaction}

theorem onto_of_reach (h : r.reach = 0) : r.Onto P := by
  rcases eq_of_reach h with rfl | ⟨c, rfl⟩ <;> trivial

theorem Onto.mono (h : r.Onto P) (hpq : ∀ p, P p → Q p) : r.Onto Q := by
  cases r with
  | stay | crash => trivial
  | enter | fail => exact hpq _ h

/-- What goes on to later phases only reaches fewer of them. -/
theorem Onto.reach_lt {p : Phase} (h : r.Onto (p < ·)) : r.reach < p.remaining := by
  cases r with
  | stay | crash => exact p.remaining_pos
  | enter | fail => exact Phase.remaining_lt h

end onto

end Reaction

namespace Turn

/-- The phase that the turn goes on to, and the session about to enter it. -/
def departure? (t : Turn) : Option (Phase × Session) :=
  match t.reaction with
  | .stay | .crash _ => none
  | .enter next => some (next, t.session)
  | .fail cause next => some (next, t.session.recordError cause)

variable {t : Turn} {p : Phase} {s : Session}

theorem departure?_of_enter (h : t.reaction = .enter p) : t.departure? = some (p, t.session) := by
  rw [departure?, h]

theorem departure?_of_fail {cause : Cause} (h : t.reaction = .fail cause p) :
    t.departure? = some (p, t.session.recordError cause) := by
  rw [departure?, h]

theorem departure?_eq_none :
    t.departure? = none ↔ t.reaction = .stay ∨ ∃ c, t.reaction = .crash c := by
  unfold departure?
  cases t.reaction <;> simp

theorem departure?_of_reach (h : t.reaction.reach = 0) : t.departure? = none :=
  departure?_eq_none.mpr (Reaction.eq_of_reach h)

theorem reaction_of_departure (h : t.departure? = some (p, s)) :
    t.reaction = .enter p ∨ ∃ cause, t.reaction = .fail cause p := by
  unfold departure? at h
  cases hr : t.reaction with
  | stay | crash =>
    rw [hr] at h
    cases h
  | enter next =>
    rw [hr] at h
    cases h
    exact .inl rfl
  | fail cause next =>
    rw [hr] at h
    cases h
    exact .inr ⟨cause, rfl⟩

theorem reach_departure (h : t.departure? = some (p, s)) : t.reaction.reach = p.remaining := by
  rcases reaction_of_departure h with hr | ⟨cause, hr⟩ <;> rw [hr] <;> rfl

theorem onto_departure {P : Phase → Prop} (h : t.departure? = some (p, s))
    (hp : t.reaction.Onto P) : P p := by
  rcases reaction_of_departure h with hr | ⟨cause, hr⟩ <;> rw [hr] at hp <;> exact hp

end Turn

/-- The phases that entering a phase can go on to at once, whatever the session is like. -/
def Phase.onward : Phase → List Phase
  | idle | complete => []
  | readAppInfo => [enableNotification]
  | dataTransfer => [abort]
  | verify => [abort, complete]
  | connect | serviceDiscover | enableNotification | prepareForDownload | startDownload | abort =>
    [complete]

theorem Phase.lt_of_mem_onward {p q : Phase} (h : q ∈ p.onward) : p < q := by
  have later : ∀ q ∈ p.onward, p < q := by cases p <;> decide
  exact later q h

namespace Session

/-- Follows a turn through at most `depth` phases. -/
def follow : (depth : Nat) → Turn → Turn
  | 0, turn => turn
  | depth + 1, turn =>
    match turn.reaction with
    | .stay | .crash _ => turn
    | .enter next => follow depth ((turn.session.enter next).after turn.effects)
    | .fail cause next =>
      follow depth (((turn.session.recordError cause).enter next).after turn.effects)

/-- Follows a turn until the session waits or has broken down. -/
def settle (turn : Turn) : Turn :=
  follow turn.reaction.reach turn

/-- Handles one event. -/
def handle (s : Session) (e : Event) : Turn :=
  settle (s.dispatch e)

/-- Handles events in order; a session that breaks down handles no more. -/
def run (s : Session) : List Event → Turn
  | [] => s.stay
  | e :: es =>
    let turn := s.handle e
    match turn.reaction with
    | .crash _ => turn
    | _ => (run turn.session es).after turn.effects

/-! ## Settling -/

@[simp] theorem reach_after (turn : Turn) (effects : List Effect) :
    (turn.after effects).reaction.reach = turn.reaction.reach := rfl

@[simp] theorem reach_stay (s : Session) (effects : List Effect) :
    (s.stay effects).reaction.reach = 0 := rfl

@[simp] theorem reach_crashed (s : Session) (crash : Crash) :
    (s.crashed crash).reaction.reach = 0 := rfl

@[simp] theorem reach_ask (s : Session) (d : Device) (c : DeviceCall) :
    (s.ask d c).reaction.reach = 0 := by
  unfold ask
  dsimp only
  split <;> rfl

@[simp] theorem reach_sendCommand (s : Session) (d : Device) (c : Command) :
    (s.sendCommand d c).reaction.reach = 0 :=
  reach_ask _ _ _

theorem reach_finish (s : Session) : s.finish.reaction.reach = 0 := by
  unfold finish
  split
  · rfl
  · dsimp only
    split
    · rename_i h
      rw [h]
      rfl
    · rfl

section entry

variable {s : Session} {P : Phase → Prop}

/-- An action that needs the device ends the upgrade where there is none. -/
theorem onto_withDevice {action : Device → Turn} (h : ∀ d, (action d).reaction.reach = 0)
    (hc : P .complete) : (s.withDevice action).reaction.Onto P := by
  unfold withDevice
  split
  · exact Reaction.onto_of_reach (h _)
  · exact hc

theorem onto_askMeshCore {rearm : Bool} (h : P .enableNotification) :
    (s.askMeshCore rearm).reaction.Onto P := by
  unfold askMeshCore
  split
  · exact h
  · split
    · trivial
    · exact h

theorem onto_enterConnect (h : P .complete) : s.enterConnect.reaction.Onto P := by
  unfold enterConnect
  split
  · exact h
  · refine onto_withDevice (fun d => ?_) h
    split <;> simp

theorem onto_enterReadAppInfo (h : P .enableNotification) :
    s.enterReadAppInfo.reaction.Onto P := by
  unfold enterReadAppInfo
  split
  · split
    · exact Reaction.onto_of_reach (reach_ask _ _ _)
    · exact onto_askMeshCore h
  · exact onto_askMeshCore h

theorem onto_sendNextChunk (h : P .abort) : s.sendNextChunk.reaction.Onto P := by
  unfold sendNextChunk
  split
  · exact h
  · split
    · exact h
    · exact h
    · -- with an image and a device the chunk goes out, or the session breaks down over it
      refine Reaction.onto_of_reach ?_
      split
      · exact reach_crashed _ _
      · dsimp only
        split
        · exact reach_crashed _ _
        · split
          · exact reach_ask _ _ _
          · exact reach_crashed _ _

theorem onto_enterVerify (ha : P .abort) (hc : P .complete) :
    s.enterVerify.reaction.Onto P := by
  unfold enterVerify
  split
  · exact ha
  · exact onto_withDevice (fun d => reach_sendCommand s d _) hc

theorem onto_enterAbort (h : P .complete) : s.enterAbort.reaction.Onto P := by
  unfold enterAbort
  split
  · cases s.device with
    | none => exact h
    | some d => exact Reaction.onto_of_reach (reach_sendCommand s d .abort)
  · exact h

variable (s)

/-- The action of a phase rests there or goes on along an edge of the graph. -/
theorem onward_entryAction (phase : Phase) :
    (s.entryAction phase).reaction.Onto (· ∈ phase.onward) := by
  cases phase with
  | idle => trivial
  | connect => exact onto_enterConnect (by decide)
  | serviceDiscover => exact onto_withDevice (fun d => reach_ask s d _) (by decide)
  | readAppInfo => exact onto_enterReadAppInfo (by decide)
  | enableNotification => exact onto_withDevice (fun d => reach_ask s d _) (by decide)
  | prepareForDownload => exact onto_withDevice (fun d => reach_sendCommand s d _) (by decide)
  | startDownload => exact onto_withDevice (fun d => reach_sendCommand s d _) (by decide)
  | dataTransfer => exact onto_sendNextChunk (by decide)
  | verify => exact onto_enterVerify (by decide) (by decide)
  | abort => exact onto_enterAbort (by decide)
  | complete => exact Reaction.onto_of_reach s.reach_finish

theorem onward_enter (phase : Phase) : (s.enter phase).reaction.Onto (· ∈ phase.onward) :=
  onward_entryAction _ _

/-- The action of a phase waits or goes on to a later phase. -/
theorem later_entryAction (phase : Phase) : (s.entryAction phase).reaction.Onto (phase < ·) :=
  (s.onward_entryAction phase).mono fun _ => Phase.lt_of_mem_onward

theorem later_enter (phase : Phase) : (s.enter phase).reaction.Onto (phase < ·) :=
  later_entryAction _ _

end entry

/-- Entering a phase leads to later phases only. -/
theorem reach_enter_lt (s : Session) (phase : Phase) :
    (s.enter phase).reaction.reach < phase.remaining :=
  (s.later_enter phase).reach_lt

section follow

variable {turn : Turn} {p : Phase} {s : Session}

theorem follow_of_rest (hd : turn.departure? = none) (depth : Nat) : follow depth turn = turn := by
  cases depth with
  | zero => rfl
  | succ depth =>
    unfold follow
    rcases Turn.departure?_eq_none.mp hd with hr | ⟨c, hr⟩ <;> rw [hr]

theorem follow_of_departure (hd : turn.departure? = some (p, s)) (depth : Nat) :
    follow (depth + 1) turn = follow depth ((s.enter p).after turn.effects) := by
  unfold Turn.departure? at hd
  rw [follow]
  cases hr : turn.reaction with
  | stay | crash =>
    rw [hr] at hd
    cases hd
  | enter | fail =>
    rw [hr] at hd
    cases hd
    rfl

/-- More depth than a turn can reach changes nothing. -/
theorem follow_of_reach_le {depth : Nat} (h : turn.reaction.reach ≤ depth) :
    follow depth turn = settle turn := by
  suffices ∀ (a b : Nat) (turn : Turn), turn.reaction.reach ≤ a → turn.reaction.reach ≤ b →
      follow a turn = follow b turn from this _ _ _ h (Nat.le_refl _)
  intro a
  induction a with
  | zero =>
    intro b turn ha hb
    have hd := Turn.departure?_of_reach (Nat.le_zero.mp ha)
    rw [follow_of_rest hd, follow_of_rest hd]
  | succ a ih =>
    intro b turn ha hb
    cases hd : turn.departure? with
    | none => rw [follow_of_rest hd, follow_of_rest hd]
    | some x =>
      obtain ⟨p, s⟩ := x
      have hlt := reach_enter_lt s p
      rw [Turn.reach_departure hd] at ha hb
      obtain ⟨b, rfl⟩ : ∃ b', b = b' + 1 := ⟨b - 1, by omega⟩
      rw [follow_of_departure hd, follow_of_departure hd]
      exact ih _ _ (by rw [reach_after]; omega) (by rw [reach_after]; omega)

/-- A turn followed far enough goes on no more. -/
theorem reach_follow {depth : Nat} (h : turn.reaction.reach ≤ depth) :
    (follow depth turn).reaction.reach = 0 := by
  -- on the depth: each phase entered leads to later ones only
  induction depth generalizing turn with
  | zero => exact Nat.le_zero.mp h
  | succ depth ih =>
    cases hd : turn.departure? with
    | none =>
      rw [follow_of_rest hd]
      rcases Turn.departure?_eq_none.mp hd with hr | ⟨c, hr⟩ <;> rw [hr] <;> rfl
    | some x =>
      obtain ⟨p, s⟩ := x
      have hlt := reach_enter_lt s p
      rw [Turn.reach_departure hd] at h
      rw [follow_of_departure hd]
      exact ih (by rw [reach_after]; omega)

/-- Whatever settles waits or has broken down. -/
theorem reaction_settle (turn : Turn) :
    (settle turn).reaction = .stay ∨ ∃ c, (settle turn).reaction = .crash c :=
  Reaction.eq_of_reach (reach_follow (Nat.le_refl _))

theorem settle_of_stay (h : turn.reaction = .stay) : settle turn = turn :=
  follow_of_rest (Turn.departure?_eq_none.mpr (.inl h)) _

theorem settle_of_departure (hd : turn.departure? = some (p, s)) :
    settle turn = settle ((s.enter p).after turn.effects) := by
  have hlt := reach_enter_lt s p
  obtain ⟨n, hn⟩ : ∃ n, p.remaining = n + 1 := ⟨p.remaining - 1, by omega⟩
  rw [settle, Turn.reach_departure hd, hn, follow_of_departure hd]
  exact follow_of_reach_le (by rw [reach_after]; omega)

theorem settle_of_enter (h : turn.reaction = .enter p) :
    settle turn = settle ((turn.session.enter p).after turn.effects) :=
  settle_of_departure (Turn.departure?_of_enter h)

theorem settle_of_fail {cause : Cause} (h : turn.reaction = .fail cause p) :
    settle turn = settle (((turn.session.recordError cause).enter p).after turn.effects) :=
  settle_of_departure (Turn.departure?_of_fail h)

end follow

/-! ## Runs -/

@[simp] theorem run_nil (s : Session) : s.run [] = s.stay := rfl

theorem handle_of_finished {s : Session} (h : s.finished = true) (e : Event) :
    s.handle e = s.stay := by
  simp [handle, dispatch, h, settle, stay, Reaction.reach, follow]

end Session
end OtaUpgrade
