import OtaUpgrade.Checksum.Crc32

/-!
CRC-32 one message bit at a time, the way the standard describes it: the register takes in each
bit of each byte, lowest bit first.
-/
namespace OtaUpgrade.Crc32

/-- The bits of a byte, lowest first. -/
def bitsOf (b : UInt8) : List Bool :=
  (List.range 8).map fun i => b.toNat.testBit i

/-- Takes one message bit into the register. -/
def takeBit (r : UInt32) (bit : Bool) : UInt32 :=
  let shifted := r >>> 1
  if ((r &&& 1 == 1) != bit) then shifted ^^^ polynomial else shifted

/-- The checksum, bit by bit. -/
def bitwise (bs : Bytes) : UInt32 :=
  (bs.flatMap bitsOf).foldl takeBit allOnes ^^^ allOnes

end OtaUpgrade.Crc32
