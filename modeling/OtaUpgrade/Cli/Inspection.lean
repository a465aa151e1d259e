import OtaUpgrade.Config.Basic

/-!
How an image would be transferred over a link, told without transferring it.
-/
namespace OtaUpgrade.Cli

/-- How an image would be transferred. -/
structure Inspection where
  size : Nat
  crc : UInt32
  chunkSize : Nat
  chunks : Nat
  deriving DecidableEq, Repr

/-- Why nothing can be told. -/
inductive InspectionError where
  /-- Packets of this size leave no room for data. -/
  | noRoom (mtu : Nat)
  /-- The size of a chunk does not fit a word. -/
  | overflow
  deriving DecidableEq, Repr

namespace Inspection

/-- Looks at the transfer of an image in packets of `mtu` bytes. -/
def of (c : Config) (image : Image) (mtu : Nat) : Except InspectionError Inspection :=
  match c.chunkSizeFor? mtu 0 with
  | none => .error .overflow
  | some chunkSize =>
    if chunkSize = 0 then .error (.noRoom mtu)
    else
      .ok
        { size := image.size
          crc := image.crc
          chunkSize
          chunks := (image.size + chunkSize - 1) / chunkSize }

/-- The lines that show it. -/
def text (i : Inspection) : String :=
  s!"size:   {i.size} bytes\n" ++ s!"crc32:  {Hex.literal 8 i.crc.toNat}\n"
    ++ s!"chunk:  {i.chunkSize} bytes\n" ++ s!"chunks: {i.chunks}\n"

end Inspection
end OtaUpgrade.Cli
