import OtaUpgrade.Protocol.Opcode
import OtaUpgrade.Text.Hex

/-!
Commands written to the control point. A command is one opcode byte and then nothing, a 16-bit
number, a 32-bit number, or a company id with a firmware id; numbers are little-endian. Which of
these an opcode may carry is `Params.Fits`; a peripheral reads exactly those.
-/
namespace OtaUpgrade

/-- What a command carries. -/
inductive Params where
  | empty
  | short (value : UInt16)
  | long (value : UInt32)
  | firmware (companyId : UInt16) (firmwareId : Bytes)
  deriving DecidableEq, Repr

/-- A command for the peripheral. -/
structure Command where
  opcode : Opcode
  params : Params := .empty
  deriving DecidableEq, Repr

namespace Params

/-- The bytes behind the opcode. -/
def encode : Params → Bytes
  | empty => []
  | short value => littleEndian 2 value.toNat
  | long value => littleEndian 4 value.toNat
  | firmware companyId firmwareId => littleEndian 2 companyId.toNat ++ firmwareId

/-- How many bytes `encode` yields. -/
def size : Params → Nat
  | empty => 0
  | short _ => 2
  | long _ => 4
  | firmware _ firmwareId => 2 + firmwareId.length

/-- A peripheral takes these parameters with this opcode: preparing takes nothing or the two ids,
starting and verifying take a 32-bit number, and every other command takes nothing or a number. -/
def Fits : Opcode → Params → Bool
  | .prepareDownload, empty => true
  | .prepareDownload, firmware _ _ => true
  | .prepareDownload, _ => false
  | .startDownload, long _ => true
  | .startDownload, _ => false
  | .verify, long _ => true
  | .verify, _ => false
  | _, firmware _ _ => false
  | _, _ => true

/-- Reads the bytes behind an opcode. -/
def decode? : Opcode → Bytes → Option Params
  | .prepareDownload, [] => some empty
  | .prepareDownload, low :: high :: firmwareId =>
    some (firmware (UInt16.ofNat (ofLittleEndian [low, high])) firmwareId)
  | .prepareDownload, _ => none
  | .startDownload, bs | .verify, bs =>
    if bs.length = 4 then some (long (UInt32.ofNat (ofLittleEndian bs))) else none
  | _, bs =>
    match bs.length with
    | 0 => some empty
    | 2 => some (short (UInt16.ofNat (ofLittleEndian bs)))
    | 4 => some (long (UInt32.ofNat (ofLittleEndian bs)))
    | _ => none

theorem length_encode (p : Params) : p.encode.length = p.size := by
  cases p <;> simp [encode, size]

end Params

/-- Why a byte string is no command. -/
inductive CodecError where
  | empty
  | unknownOpcode (byte : UInt8)
  | invalidLength (opcode : Opcode) (length : Nat)
  deriving DecidableEq, Repr

/-- The refusal's name in one word. -/
def CodecError.label : CodecError → String
  | .empty => "Empty"
  | .unknownOpcode _ => "UnknownOpcode"
  | .invalidLength _ _ => "InvalidLength"

/-- The wording of a refusal. -/
def CodecError.message : CodecError → String
  | .empty => "Empty command"
  | .unknownOpcode byte => s!"Unknown opcode {Hex.literal 2 byte.toNat}"
  | .invalidLength opcode length => s!"Invalid parameter length {length} for {opcode.name}"

namespace Command

/-- Asks for a direct download. -/
def prepare : Command := ⟨.prepareDownload, .empty⟩

/-- Asks for an upload that mesh DFU will distribute. -/
def prepareDfu (companyId : UInt16) (firmwareId : Bytes) : Command :=
  ⟨.prepareDownload, .firmware companyId firmwareId⟩

/-- Announces the size of the image. -/
def start (imageSize : UInt32) : Command := ⟨.startDownload, .long imageSize⟩

/-- Asks to check the image against its checksum. -/
def verify (crc : UInt32) : Command := ⟨.verify, .long crc⟩

/-- Gives the download up. -/
def abort : Command := ⟨.abort, .empty⟩

/-- The command's bytes on the wire. -/
def encode (c : Command) : Bytes :=
  c.opcode.byte :: c.params.encode

/-- How many bytes `encode` yields. -/
def encodedSize (c : Command) : Nat :=
  1 + c.params.size

/-- The command has a shape that a peripheral reads. -/
def WellShaped (c : Command) : Prop :=
  c.params.Fits c.opcode = true

/-- Reads a command the way a peripheral does. -/
def decode : Bytes → Except CodecError Command
  | [] => .error .empty
  | b :: rest =>
    match Opcode.ofByte? b with
    | none => .error (.unknownOpcode b)
    | some opcode =>
      match Params.decode? opcode rest with
      | none => .error (.invalidLength opcode rest.length)
      | some params => .ok ⟨opcode, params⟩

/-- The command as summaries show it. -/
def text (c : Command) : String :=
  match c.params with
  | .empty => c.opcode.name
  | .short value => s!"{c.opcode.name}({Hex.literal 4 value.toNat})"
  | .long value => s!"{c.opcode.name}({Hex.literal 8 value.toNat})"
  | .firmware companyId firmwareId =>
    s!"{c.opcode.name}(cid={Hex.literal 4 companyId.toNat}, fwid={Hex.encode firmwareId})"

theorem length_encode (c : Command) : c.encode.length = c.encodedSize := by
  simp [encode, encodedSize, Params.length_encode, Nat.add_comm]

end Command
end OtaUpgrade
