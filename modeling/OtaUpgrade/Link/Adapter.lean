import OtaUpgrade.Link.Carriage

/-!
An adapter makes the calls of a session on a link, one after the other, on a worker of its own. The
worker takes the oldest job, executes it, collects the notices raised meanwhile, and posts the
completion and the notices to the inbox that is bound at that moment; with none bound they are
dropped. A link whose driver breaks down takes the worker with it.
-/
namespace OtaUpgrade

/-- What the worker has in hand. -/
inductive WorkerStage where
  | resting
  | executed (completion : Event)
  | collected (completion : Event) (notices : List Notice)
  deriving DecidableEq, Repr

/-- An adapter with its worker. -/
structure Adapter (σ : Type) where
  name : String
  carriage : Carriage
  link : σ
  /-- Jobs not yet taken up, oldest first. -/
  jobs : List DeviceCall := []
  stage : WorkerStage := .resting
  /-- The worker still runs. -/
  alive : Bool := true
  /-- The inbox that events are posted to, by number. -/
  sink : Option Nat := none

/-- Events posted to an inbox. -/
abbrev Posting := Option (Nat × List Event)

/-- The events of a posting. -/
def Posting.events (p : Posting) : List Event :=
  (p.map Prod.snd).getD []

namespace Adapter

variable {σ : Type}

/-- The adapter as the session sees it. -/
def device [Link σ] (a : Adapter σ) : Device :=
  { name := a.name
    mtu := Link.mtu a.link
    overhead := a.carriage.overhead
    route := a.carriage.route
    meshAddress := a.carriage.meshAddress }

/-- Posts events from now on to an inbox. -/
def bind (a : Adapter σ) (sink : Nat) : Adapter σ :=
  { a with sink := some sink }

/-- Posts no more events. -/
def release (a : Adapter σ) : Adapter σ :=
  { a with sink := none }

/-- What is posted now, if an inbox is bound. -/
def posting (a : Adapter σ) (es : List Event) : Posting :=
  a.sink.map fun sink => (sink, es)

/-- Queues a job. Without a worker it is completed at once by a failure. -/
def submit (a : Adapter σ) (call : DeviceCall) : Adapter σ × Posting :=
  if a.alive then ({ a with jobs := a.jobs ++ [call] }, none)
  else (a, a.posting [call.failure .linkClosed])

/-- The worker stops and its jobs are lost. -/
def stopped (a : Adapter σ) : Adapter σ :=
  { a with jobs := [], alive := false }

/-- The worker's next step. -/
def step [Link σ] (a : Adapter σ) : Adapter σ × Posting :=
  match a.stage with
  | .resting =>
    match a.jobs with
    | [] => (a, none)
    | call :: jobs =>
      let (completion, carriage, link) := a.carriage.perform a.link call
      let a := { a with jobs, carriage, link }
      match completion with
      | some e => ({ a with stage := .executed e }, none)
      | none => (a.stopped, none)
  | .executed e =>
    let (notices, link) := Link.takeNotices a.link
    ({ a with stage := .collected e notices, link }, none)
  | .collected e notices =>
    ({ a with stage := .resting }, a.posting (e :: notices.map a.carriage.noticed))

/-- The worker has nothing to do. -/
def idle (a : Adapter σ) : Bool :=
  a.jobs.isEmpty && a.stage == .resting

/-- Steps the worker at most so often, and tells the events posted. -/
def work [Link σ] (a : Adapter σ) : (count : Nat) → Adapter σ × List Event
  | 0 => (a, [])
  | count + 1 =>
    let (a, posting) := a.step
    let (a, es) := a.work count
    (a, posting.events ++ es)

/-- Steps after which a worker with this much to do has nothing left. -/
def workload (a : Adapter σ) : Nat :=
  3 * (a.jobs.length + 1)

/-- Lets the worker run out of jobs. -/
def drain [Link σ] (a : Adapter σ) : Adapter σ × List Event :=
  a.work a.workload

end Adapter
end OtaUpgrade
