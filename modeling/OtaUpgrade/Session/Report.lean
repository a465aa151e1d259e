import OtaUpgrade.Session.Failure
import OtaUpgrade.Image

/-!
What a session tells the outside: observers follow its progress, and in an upload for mesh DFU the
orchestrator learns how it ended.
-/
namespace OtaUpgrade

/-- The weight of a log message. -/
inductive Level where
  | trace
  | debug
  | info
  | warn
  | error
  deriving DecidableEq, Repr

/-- Every level, from the lightest on. -/
def Level.all : List Level := [trace, debug, info, warn, error]

/-- The level's name in one word. -/
def Level.label : Level → String
  | trace => "Trace"
  | debug => "Debug"
  | info => "Info"
  | warn => "Warn"
  | error => "Error"

/-- Where an upgrade stands, for observers. -/
structure Progress where
  phase : Phase
  wait : Wait
  error : Option UpgradeError := none
  imageSize : Nat
  transferred : Nat
  deriving DecidableEq, Repr

namespace Progress

/-- The number of the error's cause, zero without an error. -/
def errorCode (p : Progress) : Nat :=
  (p.error.map UpgradeError.code).getD 0

/-- The wording of the error. -/
def errorText (p : Progress) : Option String :=
  p.error.map UpgradeError.text

/-- The share transferred in whole percent, as one byte; `none` when a hundred times the count of
bytes does not fit a word. -/
def percent? (p : Progress) : Option UInt8 :=
  if p.imageSize = 0 then some 0
  else if p.transferred * 100 < wordLimit then some (UInt8.ofNat (p.transferred * 100 / p.imageSize))
  else none

/-- The progress in one line. -/
def text (p : Progress) : String :=
  s!"{p.phase.name} [{p.wait.text}] {p.transferred}/{p.imageSize} bytes"

end Progress

/-- Something an observer is told. -/
inductive Report where
  /-- A phase was entered, or a chunk acknowledged. -/
  | progress (p : Progress)
  /-- The upgrade is over. -/
  | complete (p : Progress)
  | log (level : Level) (message : String)
  deriving DecidableEq, Repr

/-- Something the orchestrator of mesh DFU is told. -/
inductive DfuSignal where
  | uploadFinished (metadata : DfuMetadata) (error : Option UpgradeError)
  | stopDistribution
  deriving DecidableEq, Repr

end OtaUpgrade
