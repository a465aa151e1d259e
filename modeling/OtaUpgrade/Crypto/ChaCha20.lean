import OtaUpgrade.Bytes

/-!
The ChaCha20 stream cipher. A block of 64 bytes is mixed from key, block counter and nonce; a text
is combined with the stream of blocks, so that doing it twice gives the text back (`crypt_crypt`).

The block counter is a word. A text so long that the counter would run out, close to 256 GiB, is to
be refused by whoever encrypts or decrypts it. That refusal is left out: here the counter starts over.
-/
namespace OtaUpgrade

/-- A 256-bit key. -/
structure SecretKey where
  bytes : Bytes
  length_bytes : bytes.length = 32
  deriving DecidableEq, Repr

/-- The key with these bytes. -/
def SecretKey.ofBytes? (bs : Bytes) : Option SecretKey :=
  if h : bs.length = 32 then some ⟨bs, h⟩ else none

namespace ChaCha20

/-- The sixteen words that are mixed. -/
abbrev Words := Vector UInt32 16

/-- Turns a word to the left. -/
def rotate (w : UInt32) (count : UInt32) : UInt32 :=
  (w <<< count) ||| (w >>> (32 - count))

/-- Mixes four of the words. -/
def quarterRound (s : Words) (a b c d : Fin 16) : Words :=
  let wa := s[a]
  let wb := s[b]
  let wc := s[c]
  let wd := s[d]
  let wa := wa + wb
  let wd := rotate (wd ^^^ wa) 16
  let wc := wc + wd
  let wb := rotate (wb ^^^ wc) 12
  let wa := wa + wb
  let wd := rotate (wd ^^^ wa) 8
  let wc := wc + wd
  let wb := rotate (wb ^^^ wc) 7
  (((s.set a wa).set b wb).set c wc).set d wd

/-- Mixes the four columns, then the four diagonals. -/
def doubleRound (s : Words) : Words :=
  let s := quarterRound s 0 4 8 12
  let s := quarterRound s 1 5 9 13
  let s := quarterRound s 2 6 10 14
  let s := quarterRound s 3 7 11 15
  let s := quarterRound s 0 5 10 15
  let s := quarterRound s 1 6 11 12
  let s := quarterRound s 2 7 8 13
  quarterRound s 3 4 9 14

/-- The word made of four bytes of a string, from its place among such words. -/
def wordAt (bs : Bytes) (place : Nat) : UInt32 :=
  UInt32.ofNat (ofLittleEndian ((bs.drop (4 * place)).take 4))

/-- The words before mixing: four constants, the key, the counter and the nonce. -/
def start (key : SecretKey) (counter : UInt32) (nonce : Bytes) : Words :=
  let k := wordAt key.bytes
  let n := wordAt nonce
  #v[0x61707865, 0x3320646e, 0x79622d32, 0x6b206574, k 0, k 1, k 2, k 3, k 4, k 5, k 6, k 7,
    counter, n 0, n 1, n 2]

/-- One block of the stream: ten double rounds, added to the words before. -/
def block (key : SecretKey) (counter : UInt32) (nonce : Bytes) : Bytes :=
  let before := start key counter nonce
  let mixed := (doubleRound ∘ doubleRound ∘ doubleRound ∘ doubleRound ∘ doubleRound ∘
    doubleRound ∘ doubleRound ∘ doubleRound ∘ doubleRound ∘ doubleRound) before
  (Vector.zipWith (· + ·) mixed before).toList.flatMap fun w => littleEndian 4 w.toNat

/-- The first `count` bytes of the stream, from block 1 on. Block 0 is kept for the
authenticator. No count is too large. -/
def stream (key : SecretKey) (nonce : Bytes) (count : Nat) : Bytes :=
  ((List.range ((count + 63) / 64)).flatMap
    fun i => block key (UInt32.ofNat (i + 1)) nonce).take count

/-- Combines a text with the stream. -/
def crypt (key : SecretKey) (nonce text : Bytes) : Bytes :=
  List.zipWith (· ^^^ ·) text (stream key nonce text.length)

theorem length_flatMap_littleEndian (ws : List UInt32) :
    (ws.flatMap fun w => littleEndian 4 w.toNat).length = 4 * ws.length := by
  induction ws with
  | nil => rfl
  | cons w ws ih =>
    simp only [List.flatMap_cons, List.length_append, ih, length_littleEndian, List.length_cons]
    omega

@[simp] theorem length_block (key : SecretKey) (counter : UInt32) (nonce : Bytes) :
    (block key counter nonce).length = 64 := by
  simp only [block]
  rw [length_flatMap_littleEndian, Vector.length_toList]

@[simp] theorem length_stream (key : SecretKey) (nonce : Bytes) (count : Nat) :
    (stream key nonce count).length = count := by
  have blocks (is : List Nat) :
      (is.flatMap fun i => block key (UInt32.ofNat (i + 1)) nonce).length = 64 * is.length := by
    induction is with
    | nil => rfl
    | cons i is ih =>
      simp only [List.flatMap_cons, List.length_append, ih, length_block, List.length_cons]
      omega
  rw [stream, List.length_take, blocks, List.length_range]
  omega

@[simp] theorem length_crypt (key : SecretKey) (nonce text : Bytes) :
    (crypt key nonce text).length = text.length := by
  simp [crypt]

theorem zipWith_xor_cancel (text mask : Bytes) (h : text.length ≤ mask.length) :
    List.zipWith (· ^^^ ·) (List.zipWith (· ^^^ ·) text mask) mask = text := by
  induction text generalizing mask with
  | nil => simp
  | cons b text ih =>
    cases mask with
    | nil => simp at h
    | cons m mask =>
      simp only [List.length_cons, Nat.add_le_add_iff_right] at h
      simp only [List.zipWith_cons_cons, UInt8.xor_assoc, UInt8.xor_self, UInt8.xor_zero, ih mask h]

/-- Combining twice with the same stream gives the text back. -/
theorem crypt_crypt (key : SecretKey) (nonce text : Bytes) :
    crypt key nonce (crypt key nonce text) = text := by
  simp only [crypt, List.length_zipWith, length_stream, Nat.min_self]
  exact zipWith_xor_cancel _ _ (by simp)

end ChaCha20
end OtaUpgrade
