import OtaUpgrade.Text.Hex

/-!
The GATT service a peripheral offers for upgrades. Two revisions of it are in use; they speak the
same commands and differ in their identifiers and in whether the application info can be read.
-/
namespace OtaUpgrade

/-- A 128-bit identifier. -/
structure Uuid where
  bits : BitVec 128
  deriving DecidableEq, Repr

/-- Thirty-two lower-case digits in groups of 8, 4, 4, 4 and 12. -/
def Uuid.text (u : Uuid) : String :=
  let digits := Hex.encode ((littleEndian 16 u.bits.toNat).reverse)
  let group (skip count : Nat) : String := String.ofList ((digits.toList.drop skip).take count)
  "-".intercalate [group 0 8, group 8 4, group 12 4, group 16 4, group 20 12]

/-- A channel of the service. -/
inductive Characteristic where
  /-- Commands go out here and their statuses come back. -/
  | controlPoint
  /-- Firmware bytes go out here. -/
  | data
  /-- The application info can be read here. -/
  | appInfo
  deriving DecidableEq, Repr

namespace Characteristic

/-- Every channel. -/
def all : List Characteristic := [controlPoint, data, appInfo]

/-- The channel's name in messages. -/
def name : Characteristic → String
  | controlPoint => "control-point"
  | data => "data"
  | appInfo => "app-info"

end Characteristic

/-- A revision of the service. -/
inductive Variant where
  | legacy
  | current
  deriving DecidableEq, Repr

namespace Variant

/-- The revision's name in messages. -/
def name : Variant → String
  | legacy => "legacy"
  | current => "current"

/-- The revision assumed when nothing else is said. -/
def standard : Variant := current

/-- The service's identifier. -/
def serviceUuid : Variant → Uuid
  | legacy => ⟨0x000102030405060708090a0b0c0d1912⟩
  | current => ⟨0x00007fdd00001000800000805f9b34fb⟩

/-- The identifier of a channel, for the channels that the revision has. -/
def characteristicUuid? : Variant → Characteristic → Option Uuid
  | legacy, .controlPoint => some ⟨0x000102030405060708090a0b0c0d2b12⟩
  | legacy, .data => some ⟨0x000102030405060708090a0b0c0d2b13⟩
  | legacy, .appInfo => none
  | current, .controlPoint => some ⟨0x00007fd100001000800000805f9b34fb⟩
  | current, .data => some ⟨0x00007fd200001000800000805f9b34fb⟩
  | current, .appInfo => some ⟨0x00007fd300001000800000805f9b34fb⟩

/-- The revision has this channel. -/
def has (v : Variant) (c : Characteristic) : Bool :=
  (v.characteristicUuid? c).isSome

/-- Every revision, the standard one first. -/
def all : List Variant := [current, legacy]

/-- The revision whose service has this identifier. -/
def ofServiceUuid? (u : Uuid) : Option Variant :=
  all.find? fun v => v.serviceUuid == u

end Variant
end OtaUpgrade
