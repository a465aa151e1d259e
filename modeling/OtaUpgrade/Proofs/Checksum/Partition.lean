import Mathlib
import OtaUpgrade.Checksum.Bitwise
import OtaUpgrade.Checksum.Running

/-!
The checksum by table is the checksum by bits. Dividing out bits is linear in exclusive or, so
that eight bits of a sum are the eight message bits taken in one by one, and eight bits of a
register are the table's word for its low byte over the other bytes moved down. From one byte the
equality goes to byte strings, for every register, and to every way of cutting them.
-/
namespace OtaUpgrade

namespace Crc32

theorem and_one_eq_one (r : UInt32) : r &&& 1 = 1 ↔ r.toNat.testBit 0 = true := by
  rw [← UInt32.toNat_inj, UInt32.toNat_and]
  simp [Nat.testBit_zero]

/-- One bit of a sum: the second summand's lowest bit is a message bit to the first. -/
theorem shiftBit_xor (r y : UInt32) :
    shiftBit (r ^^^ y) = takeBit r (y.toNat.testBit 0) ^^^ (y >>> 1) := by
  have low : (r ^^^ y) &&& 1 = 1 ↔ ((r &&& 1 == 1) != y.toNat.testBit 0) = true := by
    have own : (r &&& 1 == 1) = r.toNat.testBit 0 := by
      rw [Bool.eq_iff_iff, beq_iff_eq, and_one_eq_one]
    rw [and_one_eq_one, UInt32.toNat_xor, Nat.testBit_xor, own]
  simp only [shiftBit, takeBit, low, UInt32.shiftRight_xor]
  split
  · ac_rfl
  · rfl

theorem shiftBits_xor (n : Nat) (r y : UInt32) :
    shiftBit^[n] (r ^^^ y) =
      ((List.range n).map fun i => y.toNat.testBit i).foldl takeBit r ^^^
        (fun z : UInt32 => z >>> 1)^[n] y := by
  induction n generalizing r y with
  | zero => rfl
  | succ n ih =>
    have next : ∀ i, (y >>> 1).toNat.testBit i = y.toNat.testBit (i + 1) := by
      intro i
      rw [UInt32.toNat_shiftRight, Nat.testBit_shiftRight, Nat.add_comm]
      rfl
    simp only [Function.iterate_succ_apply, shiftBit_xor, ih, List.range_succ_eq_map,
      List.map_cons, List.map_map, List.foldl_cons, next, Function.comp_def, Nat.succ_eq_add_one]

theorem shiftRight_one_eight (y : UInt32) : (fun z : UInt32 => z >>> 1)^[8] y = y >>> 8 := by
  simp only [Function.iterate_succ_apply, Function.iterate_zero_apply]
  apply UInt32.toNat_inj.mp
  simp [UInt32.toNat_shiftRight, Nat.shiftRight_eq_div_pow, Nat.div_div_eq_div_mul]

theorem shiftByte_xor (r y : UInt32) :
    shiftByte (r ^^^ y) =
      ((List.range 8).map fun i => y.toNat.testBit i).foldl takeBit r ^^^ (y >>> 8) := by
  rw [← shiftRight_one_eight]
  exact shiftBits_xor 8 r y

theorem shiftRight_eight_of_lt {y : UInt32} (h : y.toNat < 256) : y >>> 8 = 0 := by
  apply UInt32.toNat_inj.mp
  rw [UInt32.toNat_shiftRight]
  simp only [UInt32.reduceToNat, Nat.reduceMod, Nat.shiftRight_eq_div_pow]
  omega

theorem toNat_low_lt (r : UInt32) : (r &&& 0xFF).toNat < 256 := by
  rw [UInt32.toNat_and]
  exact Nat.lt_of_le_of_lt Nat.and_le_right (by decide)

theorem table_getD (r : UInt32) :
    table.getD (r &&& 0xFF).toNat 0 = shiftByte (r &&& 0xFF) := by
  have inside : (r &&& 0xFF).toNat < table.size := by simpa [table] using toNat_low_lt r
  rw [Array.getD_eq_getD_getElem?, Array.getElem?_eq_getElem inside]
  simp only [table, List.getElem_toArray, List.getElem_map, List.getElem_range,
    UInt32.ofNat_toNat, Option.getD_some]

/-- Dividing out eight bits divides out the low byte and moves the others down. -/
theorem shiftByte_eq (x : UInt32) : shiftByte x = shiftByte (x &&& 0xFF) ^^^ (x >>> 8) := by
  have parts : x = (x &&& 0xFF) ^^^ (x ^^^ (x &&& 0xFF)) := by
    rw [UInt32.xor_comm x, ← UInt32.xor_assoc, UInt32.xor_self, UInt32.zero_xor]
  have mask : ∀ i ∈ List.range 8, Nat.testBit 255 i = true := by decide
  have clear : ∀ i ∈ List.range 8,
      (x ^^^ (x &&& 0xFF)).toNat.testBit i = (0 : UInt32).toNat.testBit i := by
    intro i hi
    simp [UInt32.toNat_xor, UInt32.toNat_and, mask i hi]
  have moved : (x ^^^ (x &&& 0xFF)) >>> 8 = x >>> 8 := by
    rw [UInt32.shiftRight_xor, shiftRight_eight_of_lt (toNat_low_lt x), UInt32.xor_zero]
  -- the high bytes take in the same message bits as no byte at all
  have low := shiftByte_xor (x &&& 0xFF) 0
  rw [UInt32.xor_zero, UInt32.zero_shiftRight, UInt32.xor_zero] at low
  conv => lhs; rw [parts]
  rw [shiftByte_xor, List.map_congr_left clear, moved, ← low]

/-- A byte by table is its eight bits one by one. -/
theorem step_eq (r : UInt32) (b : UInt8) : step r b = (bitsOf b).foldl takeBit r := by
  have small : b.toUInt32.toNat < 256 := by
    rw [UInt8.toNat_toUInt32]
    exact b.toNat_lt
  have gone := shiftRight_eight_of_lt small
  have moved : (r ^^^ b.toUInt32) >>> 8 = r >>> 8 := by
    rw [UInt32.shiftRight_xor, gone, UInt32.xor_zero]
  rw [step, table_getD, ← moved, ← shiftByte_eq, shiftByte_xor, gone, UInt32.xor_zero,
    UInt8.toNat_toUInt32]
  rfl

theorem update_eq (r : UInt32) (bs : Bytes) :
    update r bs = (bs.flatMap bitsOf).foldl takeBit r := by
  rw [update_eq_foldl]
  induction bs generalizing r with
  | nil => rfl
  | cons b bs ih =>
    rw [List.flatMap_cons, List.foldl_append, ← step_eq]
    exact ih (step r b)

theorem ofBytes_eq_bitwise (bs : Bytes) : ofBytes bs = bitwise bs := by
  rw [ofBytes, finish, update_eq, bitwise]

end Crc32

namespace RunningCrc

/-- An open checksum takes every chunk, and its register does not see the cuts. -/
theorem foldlM_update? {c : RunningCrc} (running : c.final = none) (chunks : List Bytes) :
    chunks.foldlM update? c = some { c with value := Crc32.update c.value chunks.flatten } := by
  induction chunks generalizing c with
  | nil =>
    rw [List.foldlM_nil, List.flatten_nil, Crc32.update_nil]
    rfl
  | cons chunk chunks ih =>
    have taken : c.update? chunk = some { c with value := Crc32.update c.value chunk } := by
      simp [update?, running]
    have rest := @ih { c with value := Crc32.update c.value chunk } running
    rw [List.foldlM_cons, taken, Option.bind_eq_bind, Option.bind_some, rest, List.flatten_cons,
      Crc32.update_append]

/-- However a byte string is cut, a fresh checksum takes the chunks and finalizes to the checksum
of the whole, which is the bit-by-bit one. Registers compose over concatenation, and finalizing
twice yields nothing and changes nothing. -/
theorem partition_invariant :
    (∀ chunks : List Bytes, ∃ c : RunningCrc,
      chunks.foldlM update? {} = some c ∧
      c.finalized? = some (Crc32.ofBytes chunks.flatten) ∧
      c.finalize.final = some (Crc32.ofBytes chunks.flatten)) ∧
    (∀ bs : Bytes, Crc32.ofBytes bs = Crc32.bitwise bs) ∧
    (∀ (r : UInt32) (bs : Bytes),
      Crc32.update r bs = (bs.flatMap Crc32.bitsOf).foldl Crc32.takeBit r) ∧
    (∀ (r : UInt32) (as bs : Bytes),
      Crc32.update (Crc32.update r as) bs = Crc32.update r (as ++ bs)) ∧
    (∀ r : UInt32, Crc32.update r [] = r) ∧
    ∀ c : RunningCrc, c.finalize.finalized? = none ∧ c.finalize.finalize = c.finalize := by
  refine ⟨fun chunks => ?_, Crc32.ofBytes_eq_bitwise, Crc32.update_eq, fun r as bs => ?_,
    Crc32.update_nil, fun c => ?_⟩
  · exact ⟨_, foldlM_update? rfl chunks, rfl, rfl⟩
  · exact (Crc32.update_append r as bs).symm
  · exact ⟨finalized?_finalize c, finalize_finalize c⟩

end RunningCrc
end OtaUpgrade
