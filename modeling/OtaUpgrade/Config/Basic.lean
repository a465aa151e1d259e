import OtaUpgrade.Image
import OtaUpgrade.Session.Timer

/-!
The settings of upgrades and what makes them usable. Byte fields of the DFU section are kept as the
hexadecimal text they were written in.
-/
namespace OtaUpgrade

/-- Why settings are unusable. -/
inductive ConfigError where
  | zero (field : String)
  | invalidHex (field : String) (cause : Hex.DecodeError)
  deriving DecidableEq, Repr

namespace ConfigError

/-- The refusal's name in one word. -/
def label : ConfigError → String
  | zero _ => "Zero"
  | invalidHex _ _ => "InvalidHex"

/-- The wording of a refusal. -/
def message : ConfigError → String
  | zero field => s!"`{field}` must be greater than zero"
  | invalidHex field cause => s!"Invalid hex in `{field}`: {cause.message}"

/-- The refusal and what it goes back to, outermost first. -/
def causes : ConfigError → List String
  | zero field => [(zero field).message]
  | invalidHex field cause => [(invalidHex field cause).message, cause.message]

end ConfigError

/-- What to tell mesh DFU of the image. -/
structure DfuSection where
  companyId : UInt16 := 0
  firmwareId : String := ""
  productId : UInt16 := 0
  hardwareId : UInt16 := 0
  versionMajor : UInt8 := 0
  versionMinor : UInt8 := 0
  versionPatch : UInt16 := 0
  metadata : String := ""
  deriving DecidableEq, Repr

/-- Reads the bytes of a hexadecimal field. -/
def DfuSection.hexField (field text : String) : Except ConfigError Bytes :=
  match Hex.decode text with
  | .ok bs => .ok bs
  | .error cause => .error (.invalidHex field cause)

/-- The metadata that the section describes. The firmware id is read first. -/
def DfuSection.toMetadata (d : DfuSection) : Except ConfigError DfuMetadata :=
  match DfuSection.hexField "firmware_id" d.firmwareId with
  | .error e => .error e
  | .ok firmwareId =>
    match DfuSection.hexField "metadata" d.metadata with
    | .error e => .error e
    | .ok metadata =>
      .ok
        { companyId := d.companyId
          firmwareId
          productId := d.productId
          hardwareId := d.hardwareId
          version := ⟨d.versionMajor, d.versionMinor, d.versionPatch⟩
          metadata }

/-- The settings of upgrades. -/
structure Config where
  /-- Most bytes of a chunk; what the link has room for when unset. -/
  chunkSize : Option Nat := none
  /-- Bytes of a packet that the write header takes. -/
  attOverhead : Nat := 3
  timeouts : Timeouts := {}
  dfu : Option DfuSection := none
  deriving DecidableEq, Repr

namespace Config

/-- The first rule that the settings break. -/
def check (c : Config) : Except ConfigError Unit :=
  if c.chunkSize = some 0 then .error (.zero "chunk_size")
  else if c.timeouts.baseMs = 0 then .error (.zero "timeouts.base_ms")
  else if c.timeouts.extendedMs = 0 then .error (.zero "timeouts.extended_ms")
  else if c.timeouts.connectMs = 0 then .error (.zero "timeouts.connect_ms")
  else
    match c.dfu with
    | none => .ok ()
    | some d =>
      match d.toMetadata with
      | .ok _ => .ok ()
      | .error e => .error e

/-- Most bytes of a chunk on a link with packets of `mtu` bytes and `overhead` bytes added to each
payload; zero when there is no room. `none` when the header and the overhead together do not fit a
word. -/
def chunkSizeFor? (c : Config) (mtu overhead : Nat) : Option Nat :=
  match c.chunkSize with
  | some size => some size
  | none =>
    if c.attOverhead + overhead < wordLimit then some (mtu - (c.attOverhead + overhead)) else none

end Config
end OtaUpgrade
