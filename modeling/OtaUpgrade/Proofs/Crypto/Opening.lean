import Mathlib
import OtaUpgrade.Tunnel

/-!
What an end of a tunnel accepts: exactly the payloads that were encrypted under its key and the nonce
that they bring, but for those of its own direction. What it takes to be encrypted is said byte by
byte (`Aead.Encrypts`): every byte of the text is combined with the byte of the stream at its place,
and the authenticator is the value of a polynomial, modulo a prime, with a secret added. The cipher
and the authenticator compute just that (`ChaCha20.getElem?_crypt`, `Poly1305.evaluate_eq`).
-/
namespace OtaUpgrade

theorem ofLittleEndian_append (as bs : Bytes) :
    ofLittleEndian (as ++ bs) = ofLittleEndian as + 256 ^ as.length * ofLittleEndian bs := by
  induction as with
  | nil => simp [ofLittleEndian]
  | cons a as ih =>
    rw [List.cons_append, ofLittleEndian, ofLittleEndian, ih, List.length_cons, pow_succ]
    ring

/-! ## The stream -/

namespace ChaCha20

/-- The byte of the stream for the byte of a text at this place. Blocks are counted from one. -/
def streamByte (key : SecretKey) (nonce : Bytes) (place : Nat) : UInt8 :=
  (block key (UInt32.ofNat (place / 64 + 1)) nonce).getD (place % 64) 0

/-- In blocks of one length a byte is found by division. -/
theorem getElem?_flatMap_range {f : Nat → Bytes} (hf : ∀ i, (f i).length = 64) {n place : Nat}
    (h : place < 64 * n) :
    ((List.range n).flatMap f)[place]? = (f (place / 64))[place % 64]? := by
  induction n generalizing f place with
  | zero => omega
  | succ n ih =>
    rw [List.range_succ_eq_map, List.flatMap_cons, List.flatMap_map]
    by_cases hfirst : place < 64
    · rw [List.getElem?_append_left (by rw [hf]; exact hfirst), Nat.div_eq_of_lt hfirst,
        Nat.mod_eq_of_lt hfirst]
    · have hdiv : (place - 64) / 64 + 1 = place / 64 := by omega
      have hmod : (place - 64) % 64 = place % 64 := by omega
      rw [List.getElem?_append_right (by rw [hf]; omega), hf,
        ih (f := fun i => f (i + 1)) (fun i => hf _) (by omega), hdiv, hmod]

theorem getElem?_stream {key : SecretKey} {nonce : Bytes} {count place : Nat}
    (h : place < count) : (stream key nonce count)[place]? = some (streamByte key nonce place) := by
  have hlen : ∀ i, (block key (UInt32.ofNat (i + 1)) nonce).length = 64 := fun _ => length_block ..
  have hplace : place % 64 < (block key (UInt32.ofNat (place / 64 + 1)) nonce).length := by
    rw [hlen]
    omega
  rw [stream, List.getElem?_take_of_lt h, getElem?_flatMap_range hlen (by omega), streamByte,
    List.getD_eq_getElem _ _ hplace, List.getElem?_eq_getElem hplace]

-- a known answer of the cipher
example : stream ⟨(List.range 32).map UInt8.ofNat, by decide⟩
    [0, 0, 0, 9, 0, 0, 0, 0x4a, 0, 0, 0, 0] 8
      = [0x10, 0xf1, 0xe7, 0xe4, 0xd1, 0x3b, 0x59, 0x15] := by
  decide +kernel

/-- Every byte of a text is combined with the byte of the stream at its place. -/
theorem getElem?_crypt {key : SecretKey} {nonce text : Bytes} {place : Nat} {b : UInt8}
    (h : text[place]? = some b) :
    (crypt key nonce text)[place]? = some (b ^^^ streamByte key nonce place) := by
  obtain ⟨hlt, -⟩ := List.getElem?_eq_some_iff.mp h
  rw [crypt, List.getElem?_zipWith, h, getElem?_stream hlt]

end ChaCha20

/-! ## The authenticator -/

namespace Poly1305

/-- The value at a point of the polynomial that a message of whole blocks stands for. Its
coefficients are the blocks, each with a one behind; the first belongs to the highest power. -/
def polynomial (point : Nat) (message : Bytes) : Nat :=
  let count := message.length / 16
  ∑ i ∈ Finset.range count,
    (2 ^ 128 + ofLittleEndian ((message.drop (16 * i)).take 16)) * point ^ (count - i)

theorem blocks_eq {message : Bytes} {count : Nat} (h : message.length = 16 * count) :
    blocks message = (List.range count).map fun i => (message.drop (16 * i)).take 16 := by
  induction count generalizing message with
  | zero =>
    obtain rfl : message = [] := List.length_eq_zero_iff.mp h
    rw [blocks]
    rfl
  | succ count ih =>
    have hne : message.isEmpty = false := by
      cases message with
      | nil => simp at h
      | cons => rfl
    have hrest : (message.drop 16).length = 16 * count := by
      rw [List.length_drop, h]
      omega
    rw [blocks, hne, if_neg Bool.false_ne_true, ih hrest, List.range_succ_eq_map, List.map_cons,
      List.map_map]
    refine congrArg _ (List.map_congr_left fun i _ => ?_)
    rw [List.drop_drop]
    simp only [Function.comp_apply]
    congr 2
    omega

theorem coefficient_eq {block : Bytes} (h : block.length = 16) :
    coefficient block = 2 ^ 128 + ofLittleEndian block := by
  have hone : ofLittleEndian [1] = 1 := rfl
  have hpow : 256 ^ 16 * 1 = 2 ^ 128 := by norm_num
  rw [coefficient, ofLittleEndian_append, h, hone, hpow, Nat.add_comm]

/-- Multiplying by the point after each coefficient evaluates the polynomial. -/
theorem foldl_range (point : Nat) (c : Nat → Nat) (count : Nat) :
    (List.range count).foldl (fun sum i => (sum + c i) * point % prime) 0
      = (∑ i ∈ Finset.range count, c i * point ^ (count - i)) % prime := by
  induction count with
  | zero => rfl
  | succ count ih =>
    have hsum : ∑ i ∈ Finset.range count, c i * point ^ (count + 1 - i)
        = (∑ i ∈ Finset.range count, c i * point ^ (count - i)) * point := by
      rw [Finset.sum_mul]
      refine Finset.sum_congr rfl fun i hi => ?_
      have hi := Finset.mem_range.mp hi
      rw [Nat.succ_sub (Nat.le_of_lt hi), pow_succ, mul_assoc]
    rw [List.range_succ, List.foldl_append, ih, Finset.sum_range_succ, hsum]
    simp only [List.foldl_cons, List.foldl_nil, Nat.add_sub_cancel_left, pow_one]
    rw [← Nat.add_mul, Nat.mul_mod, Nat.mod_add_mod, ← Nat.mul_mod]

/-- A message of whole blocks is evaluated as its polynomial is. -/
theorem evaluate_eq (point : Nat) {message : Bytes} (h : message.length % 16 = 0) :
    evaluate point message = polynomial point message % (2 ^ 130 - 5) := by
  have hprime : prime = 2 ^ 130 - 5 := by norm_num [prime]
  have hcount : message.length = 16 * (message.length / 16) := by omega
  rw [evaluate, blocks_eq hcount, List.foldl_map, polynomial, ← hprime,
    foldl_range point fun i => coefficient ((message.drop (16 * i)).take 16)]
  refine congrArg (· % prime) (Finset.sum_congr rfl fun i hi => ?_)
  have hi := Finset.mem_range.mp hi
  have hblock : ((message.drop (16 * i)).take 16).length = 16 := by
    rw [List.length_take, List.length_drop]
    omega
  rw [coefficient_eq hblock]

-- a known answer of the authenticator; the last block of the message is short
example :
    tag [0x85, 0xd6, 0xbe, 0x78, 0x57, 0x55, 0x6d, 0x33, 0x7f, 0x44, 0x52, 0xfe, 0x42, 0xd5, 0x06,
        0xa8, 0x01, 0x03, 0x80, 0x8a, 0xfb, 0x0d, 0xb2, 0xfd, 0x4a, 0xbf, 0xf6, 0xaf, 0x41, 0x49,
        0xf5, 0x1b] "Cryptographic Forum Research Group".toUTF8.toList
      = [0xa8, 0x06, 0x1d, 0xc1, 0x30, 0x51, 0x36, 0xc6, 0xc2, 0x2b, 0x8b, 0xaf, 0x0c, 0x01, 0x27,
        0xa9] := by
  decide +kernel

end Poly1305

/-! ## Both together -/

namespace Aead

/-- The payload is the encryption of the text: the text combined with the stream, and behind it the
authenticator, under the two secrets at the beginning of the stream. -/
structure Encrypts (key : SecretKey) (nonce text payload : Bytes) : Prop where
  length_eq : payload.length = text.length + 16
  cipher : ∀ place b, text[place]? = some b →
    payload[place]? = some (b ^^^ ChaCha20.streamByte key nonce place)
  tag : ∀ point secret,
    point = ofLittleEndian ((ChaCha20.block key 0 nonce).take 16) &&& Poly1305.pointMask →
    secret = ofLittleEndian (((ChaCha20.block key 0 nonce).drop 16).take 16) →
      payload.drop text.length
        = littleEndian 16
          (Poly1305.polynomial point (authenticated (payload.take text.length)) % (2 ^ 130 - 5)
            + secret)

theorem length_authenticated (ciphertext : Bytes) :
    (authenticated ciphertext).length % 16 = 0 := by
  simp only [authenticated, padding, List.length_append, List.length_replicate,
    length_littleEndian]
  omega

/-- The authenticator is the value of the polynomial with a secret added. -/
theorem tag_eq (key : SecretKey) (nonce ciphertext : Bytes) :
    Aead.tag key nonce ciphertext
      = littleEndian 16
        (Poly1305.polynomial
            (ofLittleEndian ((ChaCha20.block key 0 nonce).take 16) &&& Poly1305.pointMask)
            (authenticated ciphertext) % (2 ^ 130 - 5)
          + ofLittleEndian (((ChaCha20.block key 0 nonce).drop 16).take 16)) := by
  have hpoint : ((ChaCha20.block key 0 nonce).take 32).take 16
      = (ChaCha20.block key 0 nonce).take 16 := by
    rw [List.take_take]
    rfl
  have hsecret : (((ChaCha20.block key 0 nonce).take 32).drop 16).take 16
      = ((ChaCha20.block key 0 nonce).drop 16).take 16 := by
    rw [List.drop_take, List.take_take]
    rfl
  rw [Aead.tag, Poly1305.tag, hpoint, hsecret, Poly1305.evaluate_eq _ (length_authenticated _)]

/-- Encrypting yields the encryption of a text, and there is no other. -/
theorem eq_encrypt_iff {key : SecretKey} {nonce text payload : Bytes} :
    payload = encrypt key nonce text ↔ Encrypts key nonce text payload := by
  have hcrypt : (ChaCha20.crypt key nonce text).length = text.length := ChaCha20.length_crypt ..
  constructor
  · rintro rfl
    refine ⟨length_encrypt .., fun place b hb => ?_, ?_⟩
    · obtain ⟨hlt, -⟩ := List.getElem?_eq_some_iff.mp hb
      rw [encrypt, List.getElem?_append_left (by omega), ChaCha20.getElem?_crypt hb]
    · rintro _ _ rfl rfl
      rw [encrypt, List.take_left' hcrypt, List.drop_left' hcrypt, tag_eq]
  · intro h
    have hlen := h.length_eq
    have hcipher : payload.take text.length = ChaCha20.crypt key nonce text := by
      refine List.ext_getElem? fun place => ?_
      cases hb : text[place]? with
      | some b =>
        obtain ⟨hlt, -⟩ := List.getElem?_eq_some_iff.mp hb
        rw [List.getElem?_take_of_lt hlt, h.cipher place b hb, ChaCha20.getElem?_crypt hb]
      | none =>
        have hle := List.getElem?_eq_none_iff.mp hb
        rw [List.getElem?_eq_none (by rw [List.length_take]; omega),
          List.getElem?_eq_none (by rw [hcrypt]; exact hle)]
    rw [encrypt, ← hcipher, tag_eq, ← h.tag _ _ rfl rfl, List.take_append_drop]

end Aead

/-! ## What comes through the tunnel -/

namespace TunnelEnd

/-- What becomes of a payload that comes through the tunnel. -/
structure Unwraps (t : TunnelEnd) (wrapped : Bytes) : Prop where
  /-- The payload is accepted if it is the nonce that it brings and the encryption of a text under
  that, and of the other direction; and the text is what it is taken for. -/
  accepted : ∀ payload, t.unwrap wrapped = .ok payload ↔
    28 ≤ wrapped.length ∧ wrapped.head? ≠ some t.direction.byte ∧
      wrapped = wrapped.take 12 ++ Aead.encrypt t.key (wrapped.take 12) payload
  encrypted : ∀ payload body, body = Aead.encrypt t.key (wrapped.take 12) payload ↔
    Aead.Encrypts t.key (wrapped.take 12) payload body
  short : t.unwrap wrapped
      = .error (.crypto s!"Sealed payload too short: {wrapped.length} bytes") ↔
    wrapped.length < 28
  reflected : t.unwrap wrapped = .error (.crypto "Reflected payload") ↔
    28 ≤ wrapped.length ∧ wrapped.head? = some t.direction.byte
  failed : t.unwrap wrapped = .error (.crypto "Decryption failed: aead::Error") ↔
    28 ≤ wrapped.length ∧ wrapped.head? ≠ some t.direction.byte ∧
      ∀ payload, wrapped ≠ wrapped.take 12 ++ Aead.encrypt t.key (wrapped.take 12) payload

/-- Everything that can become of a payload that comes through the tunnel. -/
inductive Verdict (t : TunnelEnd) (wrapped : Bytes) : Except LinkError Bytes → Prop where
  | short (hl : wrapped.length < 28) :
      Verdict t wrapped (.error (.crypto s!"Sealed payload too short: {wrapped.length} bytes"))
  | reflected (hl : 28 ≤ wrapped.length) (hd : wrapped.head? = some t.direction.byte) :
      Verdict t wrapped (.error (.crypto "Reflected payload"))
  | opened {payload : Bytes} (hl : 28 ≤ wrapped.length)
      (hd : wrapped.head? ≠ some t.direction.byte)
      (he : wrapped = wrapped.take 12 ++ Aead.encrypt t.key (wrapped.take 12) payload) :
      Verdict t wrapped (.ok payload)
  | failed (hl : 28 ≤ wrapped.length) (hd : wrapped.head? ≠ some t.direction.byte)
      (he : ∀ payload, wrapped ≠ wrapped.take 12 ++ Aead.encrypt t.key (wrapped.take 12) payload) :
      Verdict t wrapped (.error (.crypto "Decryption failed: aead::Error"))

/-- A payload is what it begins with and something behind if the rest of it is that. -/
theorem eq_take_append_iff {wrapped body : Bytes} {count : Nat} :
    wrapped = wrapped.take count ++ body ↔ wrapped.drop count = body := by
  constructor
  · intro h
    exact List.append_cancel_left ((List.take_append_drop count wrapped).trans h)
  · rintro rfl
    exact (List.take_append_drop count wrapped).symm

theorem verdict (t : TunnelEnd) (wrapped : Bytes) : t.Verdict wrapped (t.unwrap wrapped) := by
  unfold unwrap
  split_ifs with hshort hown
  · exact .short hshort
  · exact .reflected (Nat.le_of_not_lt hshort) hown
  · have hlong : 28 ≤ wrapped.length := Nat.le_of_not_lt hshort
    cases hd : Aead.decrypt? t.key (wrapped.take nonceSize) (wrapped.drop nonceSize) with
    | some payload =>
      exact .opened hlong hown (eq_take_append_iff.mpr (Aead.decrypt?_eq_some_iff.mp hd))
    | none =>
      refine .failed hlong hown fun payload he => ?_
      have hsome : Aead.decrypt? t.key (wrapped.take nonceSize) (wrapped.drop nonceSize)
          = some payload := Aead.decrypt?_eq_some_iff.mpr (eq_take_append_iff.mp he)
      rw [hd] at hsome
      cases hsome

/-- The refusal of a payload that is too short names its length, and no other begins as it does. -/
theorem short_ne (count : Nat) {text : String} (h : text.toList.head? ≠ some 'S') :
    s!"Sealed payload too short: {count} bytes" ≠ text := by
  rintro rfl
  refine h ?_
  simp only [String.toList_append, List.append_assoc]
  rfl

/-- Whatever comes through a tunnel, an end accepts just what the other end could have wrapped, and
says of anything else what is wrong with it. -/
theorem unwraps (t : TunnelEnd) (wrapped : Bytes) : t.Unwraps wrapped := by
  have hverdict := t.verdict wrapped
  have text {a b : String} (h : (.error (.crypto a) : Except LinkError Bytes) = .error (.crypto b)) :
      a = b := LinkError.crypto.inj (Except.error.inj h)
  have hreflected : _ ≠ "Reflected payload" := short_ne wrapped.length (by decide)
  have hfailed : _ ≠ "Decryption failed: aead::Error" := short_ne wrapped.length (by decide)
  have hother : "Reflected payload" ≠ "Decryption failed: aead::Error" := by decide
  constructor
  case accepted =>
    intro payload
    generalize t.unwrap wrapped = answer at hverdict
    cases hverdict with
    | short hl => exact ⟨by simp, fun h => by omega⟩
    | reflected _ hd => exact ⟨by simp, fun h => absurd hd h.2.1⟩
    | @opened other hl hd he =>
      constructor
      · rintro ⟨⟩
        exact ⟨hl, hd, he⟩
      · rintro ⟨-, -, he'⟩
        -- what was encrypted is the text that decrypting finds
        have hbody := List.append_cancel_left (he.symm.trans he')
        have hsame := Aead.decrypt?_eq_some_iff.mpr hbody
        rw [Aead.decrypt?_encrypt] at hsame
        rw [Option.some.inj hsame]
    | failed _ _ he => exact ⟨by simp, fun h => absurd h.2.2 (he payload)⟩
  case encrypted => exact fun _ _ => Aead.eq_encrypt_iff
  case short =>
    generalize t.unwrap wrapped = answer at hverdict
    cases hverdict with
    | short hl => exact ⟨fun _ => hl, fun _ => rfl⟩
    | reflected hl => exact ⟨fun h => absurd (text h).symm hreflected, fun h => by omega⟩
    | opened hl => exact ⟨by simp, fun h => by omega⟩
    | failed hl => exact ⟨fun h => absurd (text h).symm hfailed, fun h => by omega⟩
  case reflected =>
    generalize t.unwrap wrapped = answer at hverdict
    cases hverdict with
    | short hl => exact ⟨fun h => absurd (text h) hreflected, fun h => by omega⟩
    | reflected hl hd => exact ⟨fun _ => ⟨hl, hd⟩, fun _ => rfl⟩
    | opened _ hd => exact ⟨by simp, fun h => absurd h.2 hd⟩
    | failed _ hd => exact ⟨fun h => absurd (text h).symm hother, fun h => absurd h.2 hd⟩
  case failed =>
    generalize t.unwrap wrapped = answer at hverdict
    cases hverdict with
    | short hl => exact ⟨fun h => absurd (text h) hfailed, fun h => by omega⟩
    | reflected _ hd => exact ⟨fun h => absurd (text h) hother, fun h => absurd hd h.2.1⟩
    | opened _ _ he => exact ⟨by simp, fun h => absurd he (h.2.2 _)⟩
    | failed hl hd he => exact ⟨fun _ => ⟨hl, hd, he⟩, fun _ => rfl⟩

end TunnelEnd
end OtaUpgrade
