import OtaUpgrade.Link.Adapter
import OtaUpgrade.Session.Host

/-!
A session and the adapter it drives, in a closed loop: the session's calls become the worker's jobs,
and what the worker posts waits in the session's inbox. The loop goes on move by move; any order of
moves is possible. `playOut` plays the moves until nothing but the clock could move the session, and
then lets the armed timeout expire.
-/
namespace OtaUpgrade

/-- A session in a loop with its adapter. -/
structure ClosedLoop (σ : Type) where
  host : Host
  adapter : Adapter σ

/-- Something that can happen next. -/
inductive Move where
  /-- The session takes the oldest event from its inbox. -/
  | deliver
  /-- The adapter's worker takes a step. -/
  | work
  /-- The armed timeout is over. -/
  | expire
  /-- The mesh core answers what it was asked, or stays silent. -/
  | answer (known : Option ComponentMetadata)
  /-- The caller asks to stop. -/
  | abort (dfu : Bool)
  deriving DecidableEq, Repr

namespace ClosedLoop

variable {σ : Type}

/-- Puts what was posted into the session's inbox. -/
def receive (l : ClosedLoop σ) (es : List Event) : ClosedLoop σ :=
  { l with host := l.host.post es }

/-- Carries an effect over to the adapter. -/
def exert (l : ClosedLoop σ) (e : Effect) : ClosedLoop σ :=
  match e with
  | .bind => { l with adapter := l.adapter.bind 0 }
  | .release => { l with adapter := l.adapter.release }
  | .call c =>
    let (adapter, posting) := l.adapter.submit c
    { l with adapter }.receive posting.events
  | _ => l

/-- The loop after its session has handled an event. A session that breaks down lets go of its
adapter. -/
def handle (l : ClosedLoop σ) (e : Event) : ClosedLoop σ :=
  let turn := l.host.session.handle e
  let l := turn.effects.foldl exert { l with host := l.host.absorb turn }
  if l.host.crash.isSome then { l with adapter := l.adapter.release } else l

/-- Makes a move. A session that is over takes no more events. -/
def move [Link σ] (l : ClosedLoop σ) : Move → ClosedLoop σ
  | .deliver =>
    match l.host.live, l.host.next? with
    | true, some (e, host) => { l with host }.handle e
    | _, _ => l
  | .work =>
    let (adapter, posting) := l.adapter.step
    { l with adapter }.receive posting.events
  | .expire =>
    match l.host.live, l.host.session.expiry? with
    | true, some e => l.handle e
    | _, _ => l
  | .answer known => { l with host := l.host.answerMesh known }
  | .abort dfu => l.receive [.abort dfu]

/-- Makes moves, one after the other. -/
def play [Link σ] (l : ClosedLoop σ) (moves : List Move) : ClosedLoop σ :=
  moves.foldl move l

/-- The move to make as long as the session is not over: the mesh core answers first, then events
are taken, then the worker works, and only then the clock moves on. -/
def nextMove? (l : ClosedLoop σ) (known : Option ComponentMetadata) : Option Move :=
  if !l.host.live then none
  else if 0 < l.host.asked then some (.answer known)
  else if !l.host.inbox.waiting.isEmpty then some .deliver
  else if !l.adapter.idle then some .work
  else if l.host.session.timer.armed.isSome then some .expire
  else none

/-- Plays at most `count` moves until the session is over. -/
def playOut [Link σ] (l : ClosedLoop σ) (known : Option ComponentMetadata) :
    (count : Nat) → ClosedLoop σ
  | 0 => l
  | count + 1 =>
    match l.nextMove? known with
    | none => l
    | some m => (l.move m).playOut known count

/-- Lets the worker run out of jobs. -/
def drain [Link σ] (l : ClosedLoop σ) : ClosedLoop σ :=
  let (adapter, es) := l.adapter.drain
  { l with adapter }.receive es

/-- More moves than an upgrade can take: every chunk is written by one job, each job takes the worker
three steps and the session one or two events, and `extra` notices may come on top. -/
def moveLimit (l : ClosedLoop σ) (extra : Nat) : Nat :=
  8 * (l.host.session.transfer.imageSize + extra + 32)

end ClosedLoop
end OtaUpgrade
