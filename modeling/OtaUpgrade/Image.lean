import OtaUpgrade.Checksum.Crc32
import OtaUpgrade.Text.Hex
import OtaUpgrade.Files

/-!
Firmware images and the description of an image that mesh DFU will distribute. An image is opaque:
it has at least one byte and its size fits the 32 bits in which it is announced.
-/
namespace OtaUpgrade

/-- A firmware image. -/
structure Image where
  data : Array UInt8
  size_pos : 0 < data.size
  size_lt : data.size < 0x100000000

/-- Why a byte string is no image, or could not be had. -/
inductive ImageError where
  | empty
  | tooLarge (size : Nat)
  | file (cause : FileError)
  deriving DecidableEq, Repr

namespace ImageError

/-- The refusal's name in one word. -/
def label : ImageError → String
  | empty => "Empty"
  | tooLarge _ => "TooLarge"
  | file _ => "Io"

/-- The wording of a refusal. -/
def message : ImageError → String
  | empty => "Firmware image is empty"
  | tooLarge size => s!"Firmware image too large: {size} bytes"
  | file cause => s!"IO error: {cause.message}"

/-- The refusal and what it goes back to, outermost first. -/
def causes : ImageError → List String
  | file cause => [(file cause).message, cause.message]
  | e => [e.message]

end ImageError

namespace Image

/-- The image with these bytes. -/
def ofBytes (bs : Bytes) : Except ImageError Image :=
  if hpos : 0 < bs.length then
    if hlt : bs.length < 0x100000000 then
      .ok ⟨bs.toArray, by simpa using hpos, by simpa using hlt⟩
    else
      .error (.tooLarge bs.length)
  else
    .error .empty

/-- The image in a file. -/
def load (files : Files) (path : String) : Except ImageError Image :=
  match files.read path with
  | .ok bs => ofBytes bs
  | .error e => .error (.file e)

/-- The image's bytes. -/
def bytes (image : Image) : Bytes := image.data.toList

/-- How many bytes the image has. -/
def size (image : Image) : Nat := image.data.size

/-- The bytes from `start` up to `stop`. -/
def slice (image : Image) (start stop : Nat) : Bytes :=
  (image.data.extract start stop).toList

/-- The image's checksum. -/
def crc (image : Image) : UInt32 := Crc32.ofBytes image.bytes

/-- Size and checksum in one line. -/
def summary (image : Image) : String :=
  s!"FirmwareImage \x7b len: {image.size}, crc32: {Hex.literal 8 image.crc.toNat} \x7d"

@[simp] theorem length_bytes (image : Image) : image.bytes.length = image.size := by
  simp [bytes, size]

theorem slice_eq (image : Image) (start stop : Nat) :
    image.slice start stop = (image.bytes.drop start).take (stop - start) := by
  simp [slice, bytes, List.extract_eq_take_drop]

end Image

/-- The version of a firmware. -/
structure FirmwareVersion where
  major : UInt8 := 0
  minor : UInt8 := 0
  patch : UInt16 := 0
  deriving DecidableEq, Repr

/-- The version's three numbers, between points. -/
def FirmwareVersion.text (v : FirmwareVersion) : String :=
  s!"{v.major.toNat}.{v.minor.toNat}.{v.patch.toNat}"

/-- What mesh DFU is told of an image. -/
structure DfuMetadata where
  companyId : UInt16 := 0
  firmwareId : Bytes := []
  productId : UInt16 := 0
  hardwareId : UInt16 := 0
  version : FirmwareVersion := {}
  metadata : Bytes := []
  deriving DecidableEq, Repr

end OtaUpgrade
