import OtaUpgrade.Toml.Node
import OtaUpgrade.Toml.Number
import OtaUpgrade.Toml.Text

/-!
Writing TOML documents: plain values first, then tables of plain values, each behind its header and a
blank line. Only integers and texts are plain here, and keys are written as they are. That every
integer fits is settled before anything is written.
-/
namespace OtaUpgrade.Toml

/-- Why a document cannot be written. -/
inductive WriteError where
  /-- A value is neither a text nor an integer. -/
  | kind
  /-- An integer does not fit 64 bits with a sign. -/
  | integer
  /-- The same mark stands more often in a row than a byte can count. -/
  | stretch
  deriving DecidableEq, Repr

/-- The wording of the error. -/
def WriteError.message : WriteError → String
  | kind => "unsupported type"
  | integer => "out-of-range value"
  | stretch => "attempt to add with overflow"

/-- The value, if it is an integer, fits. -/
def Node.fits : Node → Bool
  | .integer i => (fitting? i).isSome
  | _ => true

/-- Every integer of a document fits. -/
def Entries.fit (es : Entries) : Bool :=
  es.all fun (_, node) =>
    match node with
    | .table _ inner => inner.all fun (_, node) => node.fits
    | node => node.fits

/-- The marks of a text can be counted, stretch by stretch. -/
def isCountable (s : String) : Bool :=
  longestRun '"' 0 s.toList ≤ 255 && longestRun '\'' 0 s.toList ≤ 255

/-- A plain value as it stands behind its key. -/
def writeValue : Node → Except WriteError String
  | .text s => if isCountable s then .ok (write s) else .error .stretch
  | .integer i => .ok (toString i)
  | _ => .error .kind

/-- The line that gives a key its value. -/
def writePair (key : String) (node : Node) : Except WriteError String := do
  let value ← writeValue node
  return s!"{key} = {value}\n"

/-- The lines of a table. -/
def writePairs : Entries → Except WriteError String
  | [] => .ok ""
  | (key, node) :: es => do
    let line ← writePair key node
    let lines ← writePairs es
    return line ++ lines

/-- The lines of a document. -/
def writeEntries : Entries → Except WriteError String
  | [] => .ok ""
  | (key, .table _ inner) :: es => do
    let lines ← writePairs inner
    let rest ← writeEntries es
    return s!"\n[{key}]\n" ++ lines ++ rest
  | (key, node) :: es => do
    let line ← writePair key node
    let rest ← writeEntries es
    return line ++ rest

/-- The document with these entries. -/
def writeDocument (es : Entries) : Except WriteError String :=
  if es.fit then writeEntries es else .error .integer

end OtaUpgrade.Toml
