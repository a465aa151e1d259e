import OtaUpgrade.Toml.Text

/-!
Numbers in TOML. Digits may be parted by single underscores. An integer fits 64 bits with a sign; it
may be hexadecimal, octal or binary, and then has no sign. A float is only checked: it must not be
too large for a double.
-/
namespace OtaUpgrade.Toml

/-- An ASCII decimal digit. -/
def isDigit (c : Char) : Bool :=
  '0' ≤ c && c ≤ '9'

/-- A digit of a base up to sixteen. -/
def isDigitOf (base : Nat) (c : Char) : Bool :=
  (hexValue? c).any (· < base)

/-- Digits from the front on, without the underscores between them, and the rest. -/
def takeDigits (digit : Char → Bool) : List Char → List Char × List Char
  | '_' :: c :: rest =>
    if digit c then
      let (cs, rest) := takeDigits digit rest
      (c :: cs, rest)
    else ([], '_' :: c :: rest)
  | c :: rest =>
    if digit c then
      let (cs, rest) := takeDigits digit rest
      (c :: cs, rest)
    else ([], c :: rest)
  | [] => ([], [])

/-- At least one digit, the first without an underscore before it. -/
def takeDigits? (digit : Char → Bool) (cs : List Char) : Option (List Char × List Char) :=
  match cs with
  | c :: _ => if digit c then some (takeDigits digit cs) else none
  | [] => none

/-- The number that digits stand for. -/
def ofDigits (base : Nat) (digits : List Char) : Nat :=
  digits.foldl (fun n c => base * n + (hexValue? c).getD 0) 0

/-- Takes a sign off, if there is one; `true` for a minus. -/
def takeSign : List Char → Bool × List Char
  | '-' :: rest => (true, rest)
  | '+' :: rest => (false, rest)
  | cs => (false, cs)

/-- The digits of a decimal number: a zero stands alone. -/
def takeDecimal? (cs : List Char) : Option (List Char × List Char) :=
  match cs with
  | '0' :: rest => some (['0'], rest)
  | cs => takeDigits? isDigit cs

/-- The integer, if it fits. -/
def fitting? (i : Int) : Option Int :=
  if -0x8000000000000000 ≤ i ∧ i < 0x8000000000000000 then some i else none

/-- Reads digits of a base behind its mark. -/
def readBased? (base : Nat) (cs : List Char) : Option (Int × List Char) :=
  match takeDigits? (isDigitOf base) cs with
  | none => none
  | some (digits, rest) => (fitting? (ofDigits base digits)).map (·, rest)

/-- Reads an integer. -/
def readInteger? : List Char → Option (Int × List Char)
  | '0' :: 'x' :: rest => readBased? 16 rest
  | '0' :: 'o' :: rest => readBased? 8 rest
  | '0' :: 'b' :: rest => readBased? 2 rest
  | cs =>
    let (negative, cs) := takeSign cs
    match takeDecimal? cs with
    | none => none
    | some (digits, rest) =>
      let n : Int := ofDigits 10 digits
      (fitting? (if negative then -n else n)).map (·, rest)

/-- The number `digits · 10 ^ exponent` rounds to a finite double. From half a unit beyond the
largest one on, it does not. -/
def isFinite (digits : List Char) (exponent : Int) : Bool :=
  let n := ofDigits 10 digits
  let width : Int := (Nat.toDigits 10 n).length + exponent
  let bound := Nat.pow 2 1024 - Nat.pow 2 970
  if n = 0 || width < 309 then true
  else if 309 < width then false
  else n * Nat.pow 10 exponent.toNat < bound * Nat.pow 10 (-exponent).toNat

/-- Reads the fraction of a float. -/
def takeFraction? : List Char → Option (List Char × List Char)
  | '.' :: rest => takeDigits? isDigit rest
  | _ => none

/-- Reads the exponent of a float. -/
def takeExponent? : List Char → Option (Int × List Char)
  | c :: rest =>
    if c = 'e' ∨ c = 'E' then
      let (negative, rest) := takeSign rest
      match takeDigits? isDigit rest with
      | none => none
      | some (digits, rest) =>
        let n : Int := ofDigits 10 digits
        some (if negative then -n else n, rest)
    else none
  | [] => none

/-- Reads a float that is spelled out. -/
def readSpecial? (cs : List Char) : Option (List Char) :=
  match (takeSign cs).2 with
  | 'i' :: 'n' :: 'f' :: rest => some rest
  | 'n' :: 'a' :: 'n' :: rest => some rest
  | _ => none

/-- Reads a float with a fraction, an exponent, or both. One below the doubles is as good as the
least of them. -/
def readDigitFloat? (cs : List Char) : Option (List Char) :=
  let (negative, cs) := takeSign cs
  match takeDecimal? cs with
  | none => none
  | some (whole, rest) =>
    let checked (digits : List Char) (exponent : Int) (rest : List Char) : Option (List Char) :=
      if negative || isFinite digits exponent then some rest else none
    match takeFraction? rest with
    | none =>
      match takeExponent? rest with
      | none => none
      | some (exponent, rest) => checked whole exponent rest
    | some (fraction, rest) =>
      match takeExponent? rest with
      | none => checked (whole ++ fraction) (-fraction.length) rest
      | some (exponent, rest) => checked (whole ++ fraction) (exponent - fraction.length) rest

/-- Reads a float, and tells what follows it. -/
def readFloat? (cs : List Char) : Option (List Char) :=
  match readDigitFloat? cs with
  | some rest => some rest
  | none => readSpecial? cs

end OtaUpgrade.Toml
