import OtaUpgrade.Session.Trace

/-!
How observers take what a session reports. Some write log records, one for each report; one keeps the
reports; one takes no notice.
-/
namespace OtaUpgrade

/-- The level's tag in front of a log line. -/
def Level.tag : Level → String
  | trace => "TRACE"
  | debug => "DEBUG"
  | info => "INFO"
  | warn => "WARN"
  | error => "ERROR"

/-- An entry of a log. -/
structure Record where
  level : Level
  message : String
  /-- Names with values, in order. -/
  fields : List (String × String) := []
  deriving DecidableEq, Repr

/-- The record in one line. -/
def Record.line (r : Record) : String :=
  String.intercalate " "
    (r.level.tag :: r.message :: r.fields.map fun (name, value) => name ++ "=" ++ value)

/-! ## Records of a report -/

namespace Progress

/-- The share transferred, with a percent sign. -/
def share? (p : Progress) : Option String :=
  p.percent?.map fun percent => s!"{percent.toNat}%"

/-- The record that traces a progress. -/
def traced? (p : Progress) : Option Record :=
  p.share?.map fun share =>
    { level := .debug
      message := "Progress"
      fields := [("state", p.phase.name), ("sub_state", p.wait.text), ("progress", share)] }

/-- The record by which a console shows a progress: the phase, and during the transfer how far it has
come. -/
def shown? (p : Progress) : Option Record :=
  if p.phase = .dataTransfer then
    p.share?.map fun share =>
      { level := .info
        message := "".pushn ' ' (4 - share.length) ++ share ++ " " ++ p.text }
  else
    some { level := .info, message := p.phase.name }

/-- The record of a last progress. -/
def closing (p : Progress) : Record :=
  match p.error with
  | none =>
    { level := .info
      message := "Upgrade complete"
      fields := [("bytes", toString p.transferred)] }
  | some e =>
    { level := .error
      message := "Upgrade failed: " ++ e.text
      fields := [("code", Hex.literal 4 e.code)] }

end Progress

namespace Report

/-- The record that traces a report. -/
def traced? : Report → Option Record
  | progress p => p.traced?
  | complete p => some p.closing
  | log level message => some { level, message }

/-- The record by which a console shows a report. -/
def shown? : Report → Option Record
  | progress p => p.shown?
  | r => r.traced?

end Report

/-! ## Observers -/

/-- What observers do with reports. -/
inductive Observer where
  | silent
  | tracing
  | console
  | collecting
  deriving DecidableEq, Repr

namespace Observer

/-- Every kind of observer. -/
def all : List Observer := [silent, tracing, console, collecting]

/-- The observer's name. -/
def name : Observer → String
  | silent => "null"
  | tracing => "tracing"
  | console => "console"
  | collecting => "collecting"

/-- The records an observer writes of a report; `none` when it cannot tell the share transferred. -/
def records? (o : Observer) (r : Report) : Option (List Record) :=
  match o with
  | silent | collecting => some []
  | tracing => r.traced?.map fun record => [record]
  | console => r.shown?.map fun record => [record]

/-- The reports an observer keeps. -/
def kept (o : Observer) (rs : List Report) : List Report :=
  if o = collecting then rs else []

end Observer
end OtaUpgrade
