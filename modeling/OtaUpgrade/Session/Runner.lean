import OtaUpgrade.Session.Handle

/-!
Feeding a session from a queue until it is finished. Between two events the armed timeout may
expire; a queue that is closed and empty ends the feeding, whether the session is finished or not.
-/
namespace OtaUpgrade

/-- What a session in waiting comes upon next. -/
inductive Arrival where
  | event (e : Event)
  /-- The armed timeout is over before anything arrives. -/
  | expiry
  deriving DecidableEq, Repr

namespace Session

/-- The event by which the armed timeout expires. -/
def expiry? (s : Session) : Option Event :=
  s.timer.armed.map fun timeout => .timeout timeout.id

/-- The event that an arrival brings; without an armed timeout nothing expires. -/
def arriving? (s : Session) : Arrival → Option Event
  | .event e => some e
  | .expiry => s.expiry?

/-- Feeds a session with what arrives, until it is finished, has broken down, or nothing more
arrives. -/
def feed (s : Session) : List Arrival → Turn
  | [] => s.stay
  | a :: rest =>
    if s.finished then s.stay
    else
      match s.arriving? a with
      | none => feed s rest
      | some e =>
        let turn := s.handle e
        match turn.reaction with
        | .crash _ => turn
        | _ => (feed turn.session rest).after turn.effects

/-- What a runner says of the session it fed. -/
def feedOutcome (s : Session) (arrivals : List Arrival) : Except UpgradeError Unit :=
  (s.feed arrivals).session.outcome

theorem feed_of_finished {s : Session} (h : s.finished = true) (arrivals : List Arrival) :
    s.feed arrivals = s.stay := by
  cases arrivals <;> simp [feed, h]

end Session
end OtaUpgrade
