/-!
The commands a peripheral understands, as one byte each.
-/
namespace OtaUpgrade

/-- What a command asks for. -/
inductive Opcode where
  | prepareDownload
  | startDownload
  | verify
  | finish
  | getStatus
  | clearStatus
  | abort
  | apply
  deriving DecidableEq, Repr

namespace Opcode

/-- The opcode's byte on the wire. -/
def byte : Opcode → UInt8
  | prepareDownload => 1
  | startDownload => 2
  | verify => 3
  | finish => 4
  | getStatus => 5
  | clearStatus => 6
  | abort => 7
  | apply => 8

/-- Every opcode, in the order of their bytes. -/
def all : List Opcode :=
  [prepareDownload, startDownload, verify, finish, getStatus, clearStatus, abort, apply]

/-- The opcode with a given byte. -/
def ofByte? (b : UInt8) : Option Opcode :=
  all.find? fun o => o.byte == b

/-- The name the protocol gives it. -/
def name : Opcode → String
  | prepareDownload => "PREPARE_DOWNLOAD"
  | startDownload => "START_DOWNLOAD"
  | verify => "VERIFY"
  | finish => "FINISH"
  | getStatus => "GET_STATUS"
  | clearStatus => "CLEAR_STATUS"
  | abort => "ABORT"
  | apply => "APPLY"

/-- The name in one word, as summaries list it. -/
def label : Opcode → String
  | prepareDownload => "PrepareDownload"
  | startDownload => "StartDownload"
  | verify => "Verify"
  | finish => "Finish"
  | getStatus => "GetStatus"
  | clearStatus => "ClearStatus"
  | abort => "Abort"
  | apply => "Apply"

@[simp] theorem ofByte?_byte (o : Opcode) : ofByte? o.byte = some o := by
  cases o <;> decide

theorem byte_of_ofByte? {b : UInt8} {o : Opcode} (h : ofByte? b = some o) : o.byte = b := by
  have := List.find?_some h
  simpa using this

end Opcode
end OtaUpgrade
