import OtaUpgrade.Session.Basic

/-!
Views of what a session did to the outside. Each view keeps the effects of one kind, in order, so a
view of two stretches one after the other is the two views one after the other.
-/
namespace OtaUpgrade

namespace Effect

/-- The call to the device. -/
def call? : Effect → Option DeviceCall
  | call c => some c
  | _ => none

/-- The report to the observer. -/
def report? : Effect → Option Report
  | report r => some r
  | _ => none

/-- The node that the mesh core is asked about. -/
def meshRequest? : Effect → Option UInt16
  | askMesh address => some address
  | _ => none

/-- The signal to the orchestrator. -/
def signal? : Effect → Option DfuSignal
  | signal s => some s
  | _ => none

end Effect

/-- The payload, if the call writes to this channel. -/
def DeviceCall.payload? (channel : Characteristic) : DeviceCall → Option Bytes
  | .write c data => if c = channel then some data else none
  | _ => none

/-- The last progress of an upgrade, if this is it. -/
def Report.complete? : Report → Option Progress
  | .complete p => some p
  | _ => none

/-- A progress on the way. -/
def Report.progress? : Report → Option Progress
  | .progress p => some p
  | _ => none

namespace Trace

/-- The calls to the device. -/
def calls (es : List Effect) : List DeviceCall := es.filterMap Effect.call?

/-- What the observer was told. -/
def reports (es : List Effect) : List Report := es.filterMap Effect.report?

/-- The nodes that the mesh core was asked about. -/
def meshRequests (es : List Effect) : List UInt16 := es.filterMap Effect.meshRequest?

/-- What the orchestrator was told. -/
def signals (es : List Effect) : List DfuSignal := es.filterMap Effect.signal?

/-- The payloads written to a channel. -/
def writes (channel : Characteristic) (es : List Effect) : List Bytes :=
  (calls es).filterMap (DeviceCall.payload? channel)

/-- The commands written to the control point. -/
def commands (es : List Effect) : List Command :=
  (writes .controlPoint es).filterMap fun payload => (Command.decode payload).toOption

/-- The progress reports on the way. -/
def progress (es : List Effect) : List Progress := (reports es).filterMap Report.progress?

/-- The final reports. -/
def completions (es : List Effect) : List Progress := (reports es).filterMap Report.complete?

/-- How often the device was let go. -/
def releases (es : List Effect) : Nat := es.count .release

/-- The device knows where to post its events, if it did `before`. -/
def bound (before : Bool) (es : List Effect) : Bool :=
  es.foldl
    (fun b e =>
      match e with
      | .bind => true
      | .release => false
      | _ => b)
    before

@[simp] theorem calls_append (as bs : List Effect) : calls (as ++ bs) = calls as ++ calls bs :=
  List.filterMap_append

@[simp] theorem reports_append (as bs : List Effect) :
    reports (as ++ bs) = reports as ++ reports bs :=
  List.filterMap_append

@[simp] theorem meshRequests_append (as bs : List Effect) :
    meshRequests (as ++ bs) = meshRequests as ++ meshRequests bs :=
  List.filterMap_append

@[simp] theorem signals_append (as bs : List Effect) :
    signals (as ++ bs) = signals as ++ signals bs :=
  List.filterMap_append

@[simp] theorem writes_append (channel : Characteristic) (as bs : List Effect) :
    writes channel (as ++ bs) = writes channel as ++ writes channel bs := by
  simp [writes]

@[simp] theorem releases_append (as bs : List Effect) :
    releases (as ++ bs) = releases as + releases bs :=
  List.count_append

end Trace
end OtaUpgrade
