/-!
Reading a natural number in a base, below a limit. A plus sign may come first; nothing else but
digits may follow.
-/
namespace OtaUpgrade.Numeral

/-- Why a text is no number of the range. -/
inductive ReadError where
  | empty
  | invalidDigit
  | tooLarge
  deriving DecidableEq, Repr

/-- The wording of a refusal. -/
def ReadError.message : ReadError → String
  | .empty => "cannot parse integer from empty string"
  | .invalidDigit => "invalid digit found in string"
  | .tooLarge => "number too large to fit in target type"

/-- The value of an ASCII letter or digit as a digit of bases up to 36. -/
def digitValue? (base : Nat) (c : Char) : Option Nat :=
  let value :=
    if '0' ≤ c ∧ c ≤ '9' then c.toNat - 48
    else if 'a' ≤ c ∧ c ≤ 'z' then c.toNat - 87
    else if 'A' ≤ c ∧ c ≤ 'Z' then c.toNat - 55
    else base
  if value < base then some value else none

/-- Reads digits behind a number already read. The first character that is no digit, or the first
digit that takes the number to the limit, ends the reading. -/
def readDigits (base limit : Nat) : (before : Nat) → List Char → Except ReadError Nat
  | before, [] => .ok before
  | before, c :: cs =>
    match digitValue? base c with
    | none => .error .invalidDigit
    | some d =>
      if before * base + d < limit then readDigits base limit (before * base + d) cs
      else .error .tooLarge

/-- Reads a number below `limit`. -/
def read (base limit : Nat) (text : String) : Except ReadError Nat :=
  match text.toList with
  | [] => .error .empty
  | ['+'] => .error .invalidDigit
  | '+' :: digits => readDigits base limit 0 digits
  | digits => readDigits base limit 0 digits

end OtaUpgrade.Numeral
