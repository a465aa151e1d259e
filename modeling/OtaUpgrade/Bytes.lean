/-!
Byte strings and the little-endian form of natural numbers. A number is written in a fixed count
of bytes, lowest first; reading them back gives the number modulo the range of that count.
-/
namespace OtaUpgrade

/-- A byte string. -/
abbrev Bytes := List UInt8

/-- Sizes, counters and durations are kept in 64-bit words; a sum that reaches this bound does not
fit. -/
def wordLimit : Nat := 0x10000000000000000

/-- The lowest `count` bytes of `n`, lowest first. -/
def littleEndian : (count n : Nat) → Bytes
  | 0, _ => []
  | count + 1, n => UInt8.ofNat n :: littleEndian count (n / 256)

/-- The number a byte string stands for, lowest byte first. -/
def ofLittleEndian : Bytes → Nat
  | [] => 0
  | b :: bs => b.toNat + 256 * ofLittleEndian bs

/-- How many numbers `count` bytes can tell apart. -/
def byteRange : (count : Nat) → Nat
  | 0 => 1
  | count + 1 => 256 * byteRange count

@[simp] theorem length_littleEndian (count n : Nat) : (littleEndian count n).length = count := by
  induction count generalizing n with
  | zero => rfl
  | succ count ih => simp [littleEndian, ih]

theorem ofLittleEndian_littleEndian (count n : Nat) :
    ofLittleEndian (littleEndian count n) = n % byteRange count := by
  induction count generalizing n with
  | zero => simp [littleEndian, ofLittleEndian, byteRange, Nat.mod_one]
  | succ count ih =>
    have byte : (UInt8.ofNat n).toNat = n % 256 := by simp
    simp only [littleEndian, ofLittleEndian, byteRange, ih, byte, Nat.mod_mul]

theorem littleEndian_ofLittleEndian (bs : Bytes) :
    littleEndian bs.length (ofLittleEndian bs) = bs := by
  induction bs with
  | nil => rfl
  | cons b bs ih =>
    have hb : b.toNat < 256 := b.toNat_lt
    have hdiv : (b.toNat + 256 * ofLittleEndian bs) / 256 = ofLittleEndian bs := by omega
    have hmod : UInt8.ofNat (b.toNat + 256 * ofLittleEndian bs) = b := by
      apply UInt8.toNat.inj
      rw [UInt8.toNat_ofNat']
      omega
    simp only [List.length_cons, littleEndian, ofLittleEndian, hdiv, hmod, ih]

theorem ofLittleEndian_lt (bs : Bytes) : ofLittleEndian bs < byteRange bs.length := by
  induction bs with
  | nil => simp [ofLittleEndian, byteRange]
  | cons b bs ih =>
    have hb : b.toNat < 256 := b.toNat_lt
    simp only [ofLittleEndian, List.length_cons, byteRange]
    omega

end OtaUpgrade
