/-!
Text in TOML: four ways to write a string, and how each is read. Between quotation marks a backslash
escapes; between apostrophes everything stands for itself; tripled marks let a string go over several
lines. `write` chooses the plainest way that shows the text as it is, and falls back to escapes.
-/
namespace OtaUpgrade.Toml

/-- Space and tab. -/
def isBlank (c : Char) : Bool :=
  c == ' ' || c == '\t'

/-- Characters that may stand in a text or a comment: no control character but the tab. -/
def isPlain (c : Char) : Bool :=
  c == '\t' || (0x20 ≤ c.toNat && c.toNat != 0x7f)

/-- Characters that stand for themselves between quotation marks. -/
def isUnescaped (c : Char) : Bool :=
  isPlain c && c != '"' && c != '\\'

/-- The value of a hexadecimal digit. -/
def hexValue? (c : Char) : Option Nat :=
  if '0' ≤ c ∧ c ≤ '9' then some (c.toNat - 48)
  else if 'a' ≤ c ∧ c ≤ 'f' then some (c.toNat - 87)
  else if 'A' ≤ c ∧ c ≤ 'F' then some (c.toNat - 55)
  else none

/-- The character whose code the digits give. -/
def scalar? (digits : List Char) : Option Char :=
  let code := digits.foldl (fun n c => n.bind fun n => (hexValue? c).map (16 * n + ·)) (some 0)
  match code with
  | none => none
  | some n => if n.isValidChar then some (Char.ofNat n) else none

/-- What a one-letter escape stands for. -/
def escaped? : Char → Option Char
  | 'b' => some '\x08'
  | 't' => some '\t'
  | 'n' => some '\n'
  | 'f' => some '\x0c'
  | 'r' => some '\r'
  | '"' => some '"'
  | '\\' => some '\\'
  | _ => none

/-- Puts a character in front of what is read behind it. -/
def prepend (c : Option Char) (r : Option (List Char × List Char)) : Option (List Char × List Char) :=
  match c, r with
  | some c, some (cs, rest) => some (c :: cs, rest)
  | _, _ => none

/-- Reads a text up to the closing quotation mark. -/
def readBasic : List Char → Option (List Char × List Char)
  | '"' :: rest => some ([], rest)
  | '\\' :: 'u' :: a :: b :: c :: d :: rest => prepend (scalar? [a, b, c, d]) (readBasic rest)
  | '\\' :: 'U' :: a :: b :: c :: d :: e :: f :: g :: h :: rest =>
    prepend (scalar? [a, b, c, d, e, f, g, h]) (readBasic rest)
  | '\\' :: e :: rest => prepend (escaped? e) (readBasic rest)
  | c :: rest => if isUnescaped c then prepend (some c) (readBasic rest) else none
  | [] => none

/-- Reads a text up to the closing apostrophe. -/
def readLiteral : List Char → Option (List Char × List Char)
  | '\'' :: rest => some ([], rest)
  | c :: rest => if isPlain c then prepend (some c) (readLiteral rest) else none
  | [] => none

/-- Where the reader of a text over several lines stands. -/
inductive Fold where
  | none
  /-- Behind a backslash at the end of a line. -/
  | ending
  /-- Behind such a line's end, before the text goes on. -/
  | skipping
  deriving DecidableEq, Repr

/-- Reads a text of several lines up to the closing quotation marks. Up to two quotation marks may
stand before those that close. -/
def readLines : Fold → List Char → Option (List Char × List Char)
  | .ending, '\n' :: rest => readLines .skipping rest
  | .ending, '\r' :: '\n' :: rest => readLines .skipping rest
  | .ending, c :: rest => if isBlank c then readLines .ending rest else Option.none
  | .skipping, '\n' :: rest => readLines .skipping rest
  | .skipping, '\r' :: '\n' :: rest => readLines .skipping rest
  | .skipping, ' ' :: rest => readLines .skipping rest
  | .skipping, '\t' :: rest => readLines .skipping rest
  | _, '"' :: '"' :: '"' :: '"' :: '"' :: rest => some (['"', '"'], rest)
  | _, '"' :: '"' :: '"' :: '"' :: rest => some (['"'], rest)
  | _, '"' :: '"' :: '"' :: rest => some ([], rest)
  | _, '"' :: rest => prepend (some '"') (readLines .none rest)
  | _, '\n' :: rest => prepend (some '\n') (readLines .none rest)
  | _, '\r' :: '\n' :: rest => prepend (some '\n') (readLines .none rest)
  | _, '\\' :: 'u' :: a :: b :: c :: d :: rest =>
    prepend (scalar? [a, b, c, d]) (readLines .none rest)
  | _, '\\' :: 'U' :: a :: b :: c :: d :: e :: f :: g :: h :: rest =>
    prepend (scalar? [a, b, c, d, e, f, g, h]) (readLines .none rest)
  | _, '\\' :: '\n' :: rest => readLines .skipping rest
  | _, '\\' :: '\r' :: '\n' :: rest => readLines .skipping rest
  | _, '\\' :: e :: rest =>
    if isBlank e then readLines .ending rest
    else prepend (escaped? e) (readLines .none rest)
  | _, c :: rest =>
    if isUnescaped c then prepend (some c) (readLines .none rest) else Option.none
  | _, [] => Option.none

/-- Reads a text of several lines up to the closing apostrophes. -/
def readLiteralLines : List Char → Option (List Char × List Char)
  | '\'' :: '\'' :: '\'' :: '\'' :: '\'' :: rest => some (['\'', '\''], rest)
  | '\'' :: '\'' :: '\'' :: '\'' :: rest => some (['\''], rest)
  | '\'' :: '\'' :: '\'' :: rest => some ([], rest)
  | '\n' :: rest => prepend (some '\n') (readLiteralLines rest)
  | '\r' :: '\n' :: rest => prepend (some '\n') (readLiteralLines rest)
  | c :: rest => if isPlain c then prepend (some c) (readLiteralLines rest) else none
  | [] => none

/-- A line's end right behind opening marks is not part of the text. -/
def dropLineEnd : List Char → List Char
  | '\n' :: rest => rest
  | '\r' :: '\n' :: rest => rest
  | cs => cs

/-- Reads a text in any of the four ways. -/
def readText? : List Char → Option (String × List Char)
  | '"' :: '"' :: '"' :: rest =>
    (readLines .none (dropLineEnd rest)).map fun (cs, rest) => (String.ofList cs, rest)
  | '\'' :: '\'' :: '\'' :: rest =>
    (readLiteralLines (dropLineEnd rest)).map fun (cs, rest) => (String.ofList cs, rest)
  | '"' :: rest => (readBasic rest).map fun (cs, rest) => (String.ofList cs, rest)
  | '\'' :: rest => (readLiteral rest).map fun (cs, rest) => (String.ofList cs, rest)
  | _ => none

/-! ## Writing -/

/-- Characters that can only be written by an escape. -/
def needsCode (c : Char) : Bool :=
  c != '\n' && !isPlain c

/-- The longest stretch of a character, given the length of the stretch just before. -/
def longestRun (mark : Char) : (before : Nat) → List Char → Nat
  | before, [] => before
  | before, c :: cs =>
    if c = mark then longestRun mark (before + 1) cs
    else max before (longestRun mark 0 cs)

/-- The ways to write a text. -/
inductive Style where
  | basic
  | literal
  | lines
  | literalLines
  deriving DecidableEq, Repr

/-- The plainest way to write a text. -/
def Style.of (cs : List Char) : Style :=
  let coded := cs.any needsCode
  let broken := cs.contains '\n'
  let backslashes := cs.contains '\\'
  let quotes := longestRun '"' 0 cs
  let apostrophes := longestRun '\'' 0 cs
  if !coded && !backslashes && quotes == 0 && !broken then basic
  else if !coded && apostrophes == 0 && !broken then literal
  else if !coded && !backslashes && quotes ≤ 2 then lines
  else if !coded && apostrophes ≤ 2 then literalLines
  else if broken then lines
  else basic

/-- The upper-case hexadecimal digit of a value below sixteen. -/
def hexDigit (n : Nat) : Char :=
  if n < 10 then Char.ofNat (48 + n) else Char.ofNat (55 + n)

/-- A character by its code, in four digits. -/
def codeEscape (c : Char) : List Char :=
  let n := c.toNat
  ['\\', 'u', hexDigit (n / 4096 % 16), hexDigit (n / 256 % 16), hexDigit (n / 16 % 16),
    hexDigit (n % 16)]

/-- A character other than a quotation mark as it is written between such marks; `broken` where
lines may end in between. -/
def escape (broken : Bool) (c : Char) : List Char :=
  match c with
  | '\x08' => ['\\', 'b']
  | '\t' => ['\\', 't']
  | '\n' => if broken then ['\n'] else ['\\', 'n']
  | '\x0c' => ['\\', 'f']
  | '\r' => ['\\', 'r']
  | '\\' => ['\\', '\\']
  | c => if isPlain c then [c] else codeEscape c

/-- A text between quotation marks. At most `allowed` of them stand in a row without an escape;
`before` counts those just written. -/
def escapeAll (broken : Bool) (allowed : Nat) : (before : Nat) → List Char → List Char
  | _, [] => []
  | before, c :: cs =>
    if c = '"' then
      if before < allowed then '"' :: escapeAll broken allowed (before + 1) cs
      else '\\' :: '"' :: escapeAll broken allowed 0 cs
    else escape broken c ++ escapeAll broken allowed 0 cs

/-- A text as it is written. A text with a line's end starts on a line of its own. -/
def write (s : String) : String :=
  let cs := s.toList
  let start : List Char := if cs.contains '\n' then ['\n'] else []
  String.ofList <|
    match Style.of cs with
    | .basic => '"' :: escapeAll false 0 0 cs ++ ['"']
    | .literal => '\'' :: cs ++ ['\'']
    | .lines => ['"', '"', '"'] ++ start ++ escapeAll true 2 0 cs ++ ['"', '"', '"']
    | .literalLines => ['\'', '\'', '\''] ++ start ++ cs ++ ['\'', '\'', '\'']

end OtaUpgrade.Toml
