import OtaUpgrade.Checksum.Crc32

/-!
A checksum that grows with the chunks of an image and is finalized once. A final checksum takes no
more bytes and is not finalized again.
-/
namespace OtaUpgrade

/-- A register and, once finalized, the checksum. -/
structure RunningCrc where
  value : UInt32 := Crc32.allOnes
  final : Option UInt32 := none
  deriving DecidableEq, Repr, Inhabited

namespace RunningCrc

/-- Feeds a chunk; `none` when the checksum is already final. -/
def update? (c : RunningCrc) (chunk : Bytes) : Option RunningCrc :=
  if c.final.isSome then none else some { c with value := Crc32.update c.value chunk }

/-- Makes the checksum final. -/
def finalize (c : RunningCrc) : RunningCrc :=
  match c.final with
  | some _ => c
  | none => { c with final := some (Crc32.finish c.value) }

/-- The checksum that finalizing yields; `none` when it was final before. -/
def finalized? (c : RunningCrc) : Option UInt32 :=
  match c.final with
  | some _ => none
  | none => some (Crc32.finish c.value)

theorem finalize_finalize (c : RunningCrc) : c.finalize.finalize = c.finalize := by
  unfold finalize
  cases h : c.final <;> simp [h]

theorem finalized?_finalize (c : RunningCrc) : c.finalize.finalized? = none := by
  unfold finalize finalized?
  cases h : c.final <;> simp [h]

end RunningCrc
end OtaUpgrade
