import OtaUpgrade.Crypto.ChaCha20
import OtaUpgrade.Text.Hex
import OtaUpgrade.Text.Numeral

/-!
The values of command-line options.
-/
namespace OtaUpgrade.Cli

/-- The digits of an address, without the marks in front that tell the base. -/
def dropBaseMarks : List Char → List Char
  | '0' :: 'x' :: rest => dropBaseMarks rest
  | digits => digits

/-- Reads the address of a mesh node, in hexadecimal digits. -/
def readAddress (text : String) : Except Numeral.ReadError UInt16 :=
  match Numeral.read 16 0x10000 (String.ofList (dropBaseMarks text.toList)) with
  | .ok n => .ok (UInt16.ofNat n)
  | .error e => .error e

/-- Reads a size in bytes. -/
def readSize (text : String) : Except Numeral.ReadError Nat :=
  Numeral.read 10 wordLimit text

/-- Why a text is no key. -/
inductive KeyError where
  | notHex (cause : Hex.DecodeError)
  | wrongLength (length : Nat)
  deriving DecidableEq, Repr

/-- The refusal and what it goes back to, outermost first. -/
def KeyError.causes : KeyError → List String
  | notHex cause => ["tunnel key is not hex", cause.message]
  | wrongLength length => [s!"tunnel key must be 32 bytes, got {length}"]

/-- Reads the key of a tunnel, in hexadecimal digits. -/
def readKey (text : String) : Except KeyError SecretKey :=
  match Hex.decode text with
  | .error cause => .error (.notHex cause)
  | .ok bs =>
    match SecretKey.ofBytes? bs with
    | some key => .ok key
    | none => .error (.wrongLength bs.length)

end OtaUpgrade.Cli
