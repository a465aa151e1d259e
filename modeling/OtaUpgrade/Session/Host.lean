import OtaUpgrade.Session.Runner
import OtaUpgrade.Session.Trace

/-!
A session in its surroundings: the inbox in which its events wait, the requests to the mesh core
that have no answer yet, and everything it has done so far. Whoever hosts a session decides what
happens next; each step here is one such decision.
-/
namespace OtaUpgrade

/-- A session with its inbox. -/
structure Host where
  session : Session
  inbox : Inbox := {}
  /-- Requests to the mesh core that have no answer yet. -/
  asked : Nat := 0
  /-- What others see; a session that breaks down leaves what they saw before. -/
  status : SessionStatus := session.status
  /-- What broke the session down. -/
  crash : Option Crash := none
  /-- What the session has done to the outside, in order. -/
  trace : Array Effect := #[]

namespace Host

/-- The session can still take events. -/
def live (h : Host) : Bool :=
  !h.session.finished && h.crash.isNone

/-- The host after a turn of its session. -/
def absorb (h : Host) (turn : Turn) : Host :=
  { h with
    session := turn.session
    asked := h.asked + (Trace.meshRequests turn.effects).length
    status := if turn.crash?.isSome then h.status else turn.session.status
    crash := turn.crash?
    trace := h.trace ++ turn.effects }

/-- Hands an event to the session, past the inbox. -/
def handle (h : Host) (e : Event) : Host :=
  h.absorb (h.session.handle e)

/-- The oldest event in the inbox, and the host without it. -/
def next? (h : Host) : Option (Event × Host) :=
  match h.inbox.waiting with
  | [] => none
  | e :: rest => some (e, { h with inbox := { h.inbox with waiting := rest } })

/-- Puts events into the inbox. -/
def post (h : Host) (es : List Event) : Host :=
  { h with inbox := h.inbox.postAll es }

/-- Answers every request to the mesh core. A core that knows nothing stays silent. -/
def answerMesh (h : Host) (known : Option ComponentMetadata) : Host :=
  match known with
  | none => { h with asked := 0 }
  | some m => { h.post (List.replicate h.asked (.meshMetadata (some m))) with asked := 0 }

/-- How the session ended, or stands. One that broke down counts as aborted where it was last
seen. -/
def outcome (h : Host) : Except UpgradeError Unit :=
  if h.crash.isSome then .error ⟨h.status.phase, .aborted⟩ else h.session.outcome

/-- Lets the session take at most `count` events. The mesh core answers before the session takes
the next one; with `clock`, the armed timeout expires when no event waits. -/
def run (h : Host) (known : Option ComponentMetadata) (clock : Bool) : (count : Nat) → Host
  | 0 => h
  | count + 1 =>
    if !h.live then h
    else
      let h := h.answerMesh known
      match h.next? with
      | some (e, h) => (h.handle e).run known clock count
      | none =>
        match clock, h.session.expiry? with
        | true, some e => (h.handle e).run known clock count
        | _, _ => h

/-- More events than a session takes up without anyone posting another: those that wait, answers of
the mesh core, and a few timeouts until it gives up. -/
def patience (h : Host) : Nat :=
  h.inbox.waiting.length + h.asked + 16

/-- Lets the session take all that waits. -/
def catchUp (h : Host) (known : Option ComponentMetadata) : Host :=
  h.run known false h.patience

/-- Lets the session come to its end, with timeouts when nothing waits. -/
def runOut (h : Host) (known : Option ComponentMetadata) : Host :=
  h.run known true h.patience

end Host
end OtaUpgrade
