import OtaUpgrade.Toml.Moment
import OtaUpgrade.Toml.Node

/-!
Reading TOML documents. A document is a row of statements: a key with its value, a header that opens
a table, a comment, or nothing, each up to the end of its line. A reader takes what it can from the
front of the text and yields the rest; a text that it cannot take is no TOML. Values go at most
`nestingLimit` deep.
-/
namespace OtaUpgrade.Toml

/-- Arrays, tables in braces and dotted keys stay below this depth. -/
def nestingLimit : Nat := 80

/-- What a reader takes from the front of a text, and the rest. -/
abbrev Taken (α : Type) := Option (α × List Char)

/-! ## Blanks, lines and comments -/

/-- Drops spaces and tabs. -/
def skipBlanks (cs : List Char) : List Char :=
  cs.dropWhile isBlank

/-- Takes the end of a line. -/
def takeLineEnd? : List Char → Option (List Char)
  | '\n' :: rest => some rest
  | '\r' :: '\n' :: rest => some rest
  | _ => none

/-- Drops a comment, up to the end of its line. -/
def skipComment : List Char → List Char
  | '#' :: rest => rest.dropWhile isPlain
  | cs => cs

/-- Takes what may follow a statement on its line: blanks, a comment, and the line's end or the end
of the text. -/
def finishLine? (cs : List Char) : Option (List Char) :=
  match skipComment (skipBlanks cs) with
  | [] => some []
  | cs => takeLineEnd? cs

/-- Drops blanks, comments and line ends, at most `count` lines. -/
def skipLines : (count : Nat) → List Char → List Char
  | 0, cs => skipBlanks cs
  | count + 1, cs =>
    match takeLineEnd? (skipComment (skipBlanks cs)) with
    | some rest => skipLines count rest
    | none => skipBlanks cs

/-- Drops all blanks, comments and line ends. -/
def skipSpace (cs : List Char) : List Char :=
  skipLines cs.length cs

/-! ## Keys -/

/-- Characters of a key without marks around it. -/
def isBare (c : Char) : Bool :=
  c.isAlphanum || c == '_' || c == '-'

/-- Takes one part of a key. -/
def takeKeyPart? (cs : List Char) : Taken String :=
  match cs with
  | '"' :: rest => (readBasic rest).map fun (cs, rest) => (String.ofList cs, rest)
  | '\'' :: rest => (readLiteral rest).map fun (cs, rest) => (String.ofList cs, rest)
  | cs =>
    let part := cs.takeWhile isBare
    if part.isEmpty then none else some (String.ofList part, cs.drop part.length)

/-- Takes a key of at most `count` parts, with points between them. -/
def takeKeyParts? : (count : Nat) → List Char → Taken (List String)
  | 0, _ => none
  | count + 1, cs =>
    match takeKeyPart? (skipBlanks cs) with
    | none => none
    | some (part, rest) =>
      match skipBlanks rest with
      | '.' :: rest =>
        match takeKeyParts? count rest with
        | some (parts, rest) => some (part :: parts, rest)
        | none => none
      | rest => some ([part], rest)

/-- Takes a key. -/
def takeKey? (cs : List Char) : Taken (List String) :=
  takeKeyParts? (nestingLimit - 1) cs

/-! ## Values -/

/-- Takes the items of an array, up to its closing bracket. -/
def takeItems? (item : List Char → Taken Node) : (count : Nat) → List Char → Taken (List Node)
  | 0, _ => none
  | count + 1, cs =>
    match skipSpace cs with
    | ']' :: rest => some ([], rest)
    | cs =>
      match item cs with
      | none => none
      | some (node, rest) =>
        match skipSpace rest with
        | ']' :: rest => some ([node], rest)
        | ',' :: rest =>
          match takeItems? item count rest with
          | some (nodes, rest) => some (node :: nodes, rest)
          | none => none
        | _ => none

/-- Takes a key and its value. -/
def takePair? (item : List Char → Taken Node) (cs : List Char) : Taken (List String × Node) :=
  match takeKey? cs with
  | some (key, '=' :: rest) =>
    match item (skipBlanks rest) with
    | some (node, rest) => some ((key, node), rest)
    | none => none
  | _ => none

/-- Adds the value of a key, which may be dotted. -/
def addPair? (es : Entries) (key : List String) (node : Node) : Option Entries :=
  match key.getLast? with
  | some last => es.addDotted? last node key.dropLast
  | none => none

/-- Takes the pairs of a table in braces, up to its closing brace. -/
def takePairs? (item : List Char → Taken Node) : (count : Nat) → Entries → List Char → Taken Entries
  | 0, _, _ => none
  | count + 1, es, cs =>
    match takePair? item cs with
    | none => none
    | some ((key, node), rest) =>
      match addPair? es key node with
      | none => none
      | some es =>
        match skipBlanks rest with
        | '\x7d' :: rest => some (es, rest)
        | ',' :: rest => takePairs? item count es rest
        | _ => none

/-- Takes a number, a date or a time. -/
def takeNumber? (cs : List Char) : Taken Node :=
  match readMoment? cs with
  | some rest => some (.moment, rest)
  | none =>
    match readFloat? cs with
    | some rest => some (.float, rest)
    | none => (readInteger? cs).map fun (i, rest) => (.integer i, rest)

/-- Takes a value that has no parts. -/
def takeScalar? : List Char → Taken Node
  | 't' :: 'r' :: 'u' :: 'e' :: rest => some (.boolean true, rest)
  | 'f' :: 'a' :: 'l' :: 's' :: 'e' :: rest => some (.boolean false, rest)
  | '"' :: rest => (readText? ('"' :: rest)).map fun (s, rest) => (.text s, rest)
  | '\'' :: rest => (readText? ('\'' :: rest)).map fun (s, rest) => (.text s, rest)
  | cs => takeNumber? cs

/-- Takes a value with parts at most `depth` deep. -/
def takeValue? : (depth : Nat) → List Char → Taken Node
  | 0, '[' :: _ => none
  | 0, '\x7b' :: _ => none
  | depth + 1, '[' :: rest =>
    (takeItems? (takeValue? depth) rest.length rest).map fun (nodes, rest) => (.array nodes, rest)
  | depth + 1, '\x7b' :: rest =>
    match skipBlanks rest with
    | '\x7d' :: rest => some (.table .braces [], rest)
    | cs =>
      (takePairs? (takeValue? depth) cs.length [] cs).map fun (es, rest) =>
        (.table .braces es, rest)
  | _, cs => takeScalar? cs

/-! ## Statements -/

/-- What was read so far: the whole tree, and the header whose table the next keys belong to. -/
structure Document where
  entries : Entries := []
  header : List String := []

namespace Document

/-- Adds the value of a key to the table of the header. -/
def addPair? (d : Document) (key : List String) (node : Node) : Option Document :=
  (d.entries.within? (Toml.addPair? · key node) d.header).map fun entries => { d with entries }

/-- Goes on with the table of another header. -/
def open? (d : Document) (header : List String) (change : String → Entries → Option Entries) :
    Option Document :=
  match header.getLast? with
  | none => none
  | some last =>
    (d.entries.within? (change last) header.dropLast).map fun entries => { entries, header }

/-- Reads one statement with its line, behind the blanks before it. -/
def statement? (d : Document) (cs : List Char) : Taken Document :=
  match cs with
  | '[' :: '[' :: rest =>
    match takeKey? rest with
    | some (header, ']' :: ']' :: rest) =>
      match d.open? header Entries.openNext?, finishLine? rest with
      | some d, some rest => some (d, rest)
      | _, _ => none
    | _ => none
  | '[' :: rest =>
    match takeKey? rest with
    | some (header, ']' :: rest) =>
      match d.open? header Entries.openTable?, finishLine? rest with
      | some d, some rest => some (d, rest)
      | _, _ => none
    | _ => none
  | '#' :: _ | '\n' :: _ | '\r' :: _ => (finishLine? cs).map (d, ·)
  | cs =>
    match takePair? (takeValue? (nestingLimit - 1)) cs with
    | none => none
    | some ((key, node), rest) =>
      match d.addPair? key node, finishLine? rest with
      | some d, some rest => some (d, rest)
      | _, _ => none

/-- Reads at most `count` statements, up to the end of the text. -/
def statements? (d : Document) : (count : Nat) → List Char → Option Document
  | 0, _ => none
  | count + 1, cs =>
    match skipBlanks cs with
    | [] => some d
    | cs =>
      match d.statement? cs with
      | some (d, rest) => d.statements? count rest
      | none => none

end Document

/-- Reads a document. A byte-order mark may stand in front. -/
def read? (text : String) : Option Entries :=
  let cs :=
    match text.toList with
    | '\ufeff' :: cs => cs
    | cs => cs
  (({} : Document).statements? (cs.length + 1) cs).map Document.entries

end OtaUpgrade.Toml
