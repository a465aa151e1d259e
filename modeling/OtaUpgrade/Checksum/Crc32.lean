import OtaUpgrade.Bytes

/-!
CRC-32 by table. The register is kept in reflected form, without the final complement, so that a
byte string can be fed in pieces. Each piece goes through a digest of its own. The digest is begun
from the register's bits in the usual order and turns them around again, so in all the bytes only go
through the table one after the other (`update_eq_foldl`), and `update_append` says that the cuts do
not matter. `Bitwise` has the same checksum one bit at a time.
-/
namespace OtaUpgrade.Crc32

/-- The reflected generator polynomial. -/
def polynomial : UInt32 := 0xEDB88320

/-- What the register starts from, and what it is combined with once at the end. -/
def allOnes : UInt32 := 0xFFFFFFFF

/-- Divides out one bit. -/
def shiftBit (r : UInt32) : UInt32 :=
  if r &&& 1 = 1 then (r >>> 1) ^^^ polynomial else r >>> 1

/-- Divides out eight bits. -/
def shiftByte (r : UInt32) : UInt32 :=
  shiftBit (shiftBit (shiftBit (shiftBit (shiftBit (shiftBit (shiftBit (shiftBit r)))))))

/-- `shiftByte` of every byte value. -/
def table : Array UInt32 :=
  ((List.range 256).map fun i => shiftByte (UInt32.ofNat i)).toArray

/-- Feeds one byte into the register. -/
def step (r : UInt32) (b : UInt8) : UInt32 :=
  table.getD ((r ^^^ b.toUInt32) &&& 0xFF).toNat 0 ^^^ (r >>> 8)

/-- The bits of a word in the opposite order. -/
def reverseBits (w : UInt32) : UInt32 :=
  .ofBitVec w.toBitVec.reverse

/-- A digest under way, by its register in reflected form. -/
structure Digest where
  register : UInt32
  deriving DecidableEq, Repr

/-- A digest that is begun from a value whose bits are in the usual order. -/
def Digest.ofInitial (initial : UInt32) : Digest :=
  ⟨reverseBits initial⟩

/-- Takes a byte string in. -/
def Digest.feed (d : Digest) (bs : Bytes) : Digest :=
  ⟨bs.foldl step d.register⟩

/-- What a digest comes to: its register as it stands, combined with nothing. -/
def Digest.result (d : Digest) : UInt32 :=
  d.register

/-- Feeds a byte string into the register. -/
def update (r : UInt32) (bs : Bytes) : UInt32 :=
  ((Digest.ofInitial (reverseBits r)).feed bs).result

/-- The checksum a register stands for. -/
def finish (r : UInt32) : UInt32 :=
  r ^^^ allOnes

/-- The checksum of a whole byte string. -/
def ofBytes (bs : Bytes) : UInt32 :=
  finish (update allOnes bs)

@[simp] theorem reverseBits_reverseBits (w : UInt32) : reverseBits (reverseBits w) = w := by
  simp only [reverseBits, BitVec.reverse_reverse_eq]

/-- The two reversals cancel, and what is left is one step for each byte. -/
theorem update_eq_foldl (r : UInt32) (bs : Bytes) : update r bs = bs.foldl step r := by
  simp only [update, Digest.ofInitial, Digest.feed, Digest.result, reverseBits_reverseBits]

@[simp] theorem update_nil (r : UInt32) : update r [] = r := by
  rw [update_eq_foldl, List.foldl_nil]

theorem update_append (r : UInt32) (as bs : Bytes) :
    update r (as ++ bs) = update (update r as) bs := by
  simp only [update_eq_foldl, List.foldl_append]

end OtaUpgrade.Crc32
