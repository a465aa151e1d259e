import OtaUpgrade.Text.Quoted

/-!
Hexadecimal text. Bytes are written as two lower-case digits each, high half first; numbers in
messages have upper-case digits and a least width. Reading takes digits of either case and says
which rule a refused text breaks.
-/
namespace OtaUpgrade.Hex

/-- The lower-case digit of a value below sixteen. -/
def digit (n : Nat) : Char :=
  if n < 10 then Char.ofNat (48 + n) else Char.ofNat (87 + n)

/-- The two digits of a byte. -/
def pair (b : UInt8) : List Char :=
  [digit (b.toNat / 16), digit (b.toNat % 16)]

/-- The digits of a byte string. -/
def encode (bs : Bytes) : String :=
  String.ofList (bs.flatMap pair)

/-- The number in upper-case digits, filled up with zeros to `width`. -/
def upper (width n : Nat) : String :=
  let digits := (Nat.toDigits 16 n).map Char.toUpper
  String.ofList (List.replicate (width - digits.length) '0' ++ digits)

/-- The number behind `0x`, in at least `width` upper-case digits. -/
def literal (width n : Nat) : String :=
  "0x" ++ upper width n

/-- Why a text is not hexadecimal. -/
inductive DecodeError where
  | oddLength
  | badDigit (byte : UInt8) (index : Nat)
  deriving DecidableEq, Repr

/-- The wording of a refusal. -/
def DecodeError.message : DecodeError → String
  | .oddLength => "Odd number of digits"
  | .badDigit byte index => s!"Invalid character {Text.quoted byte} at position {index}"

/-- The value of a digit's code, in either case. -/
def value? (b : UInt8) : Option Nat :=
  let c := b.toNat
  if 48 ≤ c ∧ c ≤ 57 then some (c - 48)
  else if 97 ≤ c ∧ c ≤ 102 then some (c - 87)
  else if 65 ≤ c ∧ c ≤ 70 then some (c - 55)
  else none

/-- Reads pairs of digits; `index` is the place of the first in the whole text. -/
def decodePairs (index : Nat) : Bytes → Except DecodeError Bytes
  | high :: low :: rest =>
    match value? high, value? low with
    | none, _ => .error (.badDigit high index)
    | some _, none => .error (.badDigit low (index + 1))
    | some h, some l =>
      match decodePairs (index + 2) rest with
      | .ok bs => .ok (UInt8.ofNat (16 * h + l) :: bs)
      | .error e => .error e
  | _ => .ok []

/-- Reads the bytes of a text as hexadecimal digits. An odd count of them is told before any
character that is no digit. -/
def decodeBytes (text : Bytes) : Except DecodeError Bytes :=
  if text.length % 2 = 1 then .error .oddLength else decodePairs 0 text

/-- Reads a text as hexadecimal digits. -/
def decode (text : String) : Except DecodeError Bytes :=
  decodeBytes text.toUTF8.data.toList

end OtaUpgrade.Hex
