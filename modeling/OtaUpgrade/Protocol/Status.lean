import OtaUpgrade.Bytes

/-!
The status byte with which a peripheral answers a command.
-/
namespace OtaUpgrade

/-- A peripheral's verdict on a command. -/
inductive Status where
  | success
  | busy
  | unsupported
  | illegalOperation
  | invalidParameter
  | invalidState
  | invalidImageSize
  | invalidImage
  | invalidCrc
  | flashWriteFailed
  | outOfResources
  | timeout
  | aborted
  | commandResponseError
  deriving DecidableEq, Repr

namespace Status

/-- Every status, in the order of their bytes. -/
def all : List Status :=
  [success, busy, unsupported, illegalOperation, invalidParameter, invalidState, invalidImageSize,
    invalidImage, invalidCrc, flashWriteFailed, outOfResources, timeout, aborted,
    commandResponseError]

/-- The status's byte on the wire. -/
def byte : Status → UInt8
  | success => 0
  | busy => 1
  | unsupported => 2
  | illegalOperation => 3
  | invalidParameter => 4
  | invalidState => 5
  | invalidImageSize => 6
  | invalidImage => 7
  | invalidCrc => 8
  | flashWriteFailed => 9
  | outOfResources => 10
  | timeout => 11
  | aborted => 12
  | commandResponseError => 13

/-- The status with a given byte. -/
def ofByte? (b : UInt8) : Option Status :=
  all.find? fun s => s.byte == b

/-- Reads an answer. Whatever is not one known byte counts as `unsupported`. -/
def decode : Option Bytes → Status
  | some [b] => (ofByte? b).getD unsupported
  | _ => unsupported

/-- The name in one word. -/
def label : Status → String
  | success => "Success"
  | busy => "Busy"
  | unsupported => "Unsupported"
  | illegalOperation => "IllegalOperation"
  | invalidParameter => "InvalidParameter"
  | invalidState => "InvalidState"
  | invalidImageSize => "InvalidImageSize"
  | invalidImage => "InvalidImage"
  | invalidCrc => "InvalidCrc"
  | flashWriteFailed => "FlashWriteFailed"
  | outOfResources => "OutOfResources"
  | timeout => "Timeout"
  | aborted => "Aborted"
  | commandResponseError => "CommandResponseError"

/-- The status in words. -/
def description : Status → String
  | success => "success"
  | busy => "device busy"
  | unsupported => "command unsupported"
  | illegalOperation => "illegal operation"
  | invalidParameter => "invalid parameter"
  | invalidState => "invalid state"
  | invalidImageSize => "invalid image size"
  | invalidImage => "invalid image"
  | invalidCrc => "image CRC mismatch"
  | flashWriteFailed => "flash write failed"
  | outOfResources => "out of resources"
  | timeout => "device timeout"
  | aborted => "aborted by device"
  | commandResponseError => "command response error"

/-- The status in words with its byte, as messages show it. -/
def text (s : Status) : String :=
  s!"{s.description} ({s.byte.toNat})"

@[simp] theorem ofByte?_byte (s : Status) : ofByte? s.byte = some s := by
  cases s <;> decide

theorem byte_of_ofByte? {b : UInt8} {s : Status} (h : ofByte? b = some s) : s.byte = b := by
  have := List.find?_some h
  simpa using this

theorem decode_eq_success_iff {answer : Option Bytes} :
    decode answer = success ↔ answer = some [0] := by
  constructor
  · intro h
    match answer, h with
    | some [b], h =>
      simp only [decode] at h
      cases hb : ofByte? b with
      | none => simp [hb] at h
      | some s =>
        simp only [hb, Option.getD_some] at h
        subst h
        have := byte_of_ofByte? hb
        rw [← this]
        rfl
  · rintro rfl
    rfl

end Status
end OtaUpgrade
