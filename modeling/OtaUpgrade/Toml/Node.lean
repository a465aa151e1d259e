/-!
The tree that a TOML document describes, and how statements add to it. Tables remember how they came
about, because that decides what may still be added: a header may open a table that so far was only
passed through, a dotted key may only extend tables that dotted keys made, and a table written in
braces is closed. No key is given a value twice.
-/
namespace OtaUpgrade.Toml

/-- How a table came about. -/
inductive Origin where
  /-- By its own header. -/
  | header
  /-- On the way to another header. -/
  | passed
  /-- By a dotted key. -/
  | dotted
  /-- In braces. -/
  | braces
  deriving DecidableEq, Repr

/-- A part of a document. Of floats and of dates and times only their kind is kept. -/
inductive Node where
  | text (s : String)
  | integer (i : Int)
  | boolean (b : Bool)
  | float
  | moment
  | array (items : List Node)
  | table (origin : Origin) (entries : List (String × Node))
  /-- Tables that one header opened, each time anew. -/
  | tables (items : List (List (String × Node)))
  deriving Repr

/-- Keys with what they stand for, in order of appearance. -/
abbrev Entries := List (String × Node)

namespace Entries

/-- What a key stands for. -/
def find? (es : Entries) (key : String) : Option Node :=
  es.lookup key

/-- Puts something else in the place of a key that is there. -/
def replace (es : Entries) (key : String) (node : Node) : Entries :=
  es.map fun (k, n) => if k = key then (k, node) else (k, n)

/-- Adds a key that is not there. -/
def add? (es : Entries) (key : String) (node : Node) : Option Entries :=
  if (es.find? key).isSome then none else some (es ++ [(key, node)])

/-- Gives a value to a key behind a path of dotted keys. -/
def addDotted? (es : Entries) (key : String) (node : Node) : (path : List String) → Option Entries
  | [] => es.add? key node
  | k :: path =>
    match es.find? k with
    | none =>
      match addDotted? [] key node path with
      | some inner => some (es ++ [(k, .table .dotted inner)])
      | none => none
    | some (.table .dotted inner) =>
      (addDotted? inner key node path).map fun inner => es.replace k (.table .dotted inner)
    | some (.table .passed inner) =>
      if path.isEmpty then none
      else (addDotted? inner key node path).map fun inner => es.replace k (.table .passed inner)
    | some (.tables items) =>
      if path.isEmpty then none
      else
        (addDotted? (items.getLast?.getD []) key node path).map fun inner =>
          es.replace k (.tables (items.dropLast ++ [inner]))
    | some _ => none

/-- Changes the table at the end of a path of headers. Tables on the way that do not exist yet are
passed through; of tables that one header opened the last one counts. -/
def within? (es : Entries) (change : Entries → Option Entries) : (path : List String) → Option Entries
  | [] => change es
  | k :: path =>
    match es.find? k with
    | none =>
      match within? [] change path with
      | some inner => some (es ++ [(k, .table .passed inner)])
      | none => none
    | some (.table .braces _) => none
    | some (.table origin inner) =>
      (within? inner change path).map fun inner => es.replace k (.table origin inner)
    | some (.tables items) =>
      (within? (items.getLast?.getD []) change path).map fun inner =>
        es.replace k (.tables (items.dropLast ++ [inner]))
    | some _ => none

/-- Opens a table under a key. -/
def openTable? (key : String) (es : Entries) : Option Entries :=
  match es.find? key with
  | none => some (es ++ [(key, .table .header [])])
  | some (.table .passed inner) => some (es.replace key (.table .header inner))
  | some _ => none

/-- Opens one more of the tables under a key. -/
def openNext? (key : String) (es : Entries) : Option Entries :=
  match es.find? key with
  | none => some (es ++ [(key, .tables [[]])])
  | some (.tables items) => some (es.replace key (.tables (items ++ [[]])))
  | some _ => none

end Entries
end OtaUpgrade.Toml
