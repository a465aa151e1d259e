import OtaUpgrade.Crypto.ChaCha20
import OtaUpgrade.Crypto.Poly1305

/-!
Encryption with an authenticator behind it: ChaCha20 for the text, Poly1305 over the ciphertext and
its length, no associated data. Decrypting accepts exactly what encrypting under the same key and
nonce yields (`decrypt?_eq_some_iff`).
-/
namespace OtaUpgrade.Aead

/-- How many bytes vouch for a text. -/
def tagSize : Nat := 16

/-- Zeros up to a multiple of sixteen bytes. -/
def padding (count : Nat) : Bytes :=
  List.replicate ((16 - count % 16) % 16) 0

/-- What the authenticator is computed over: the ciphertext, padded, then the lengths of the absent
associated data and of the ciphertext. -/
def authenticated (ciphertext : Bytes) : Bytes :=
  ciphertext ++ padding ciphertext.length ++ littleEndian 8 0 ++ littleEndian 8 ciphertext.length

/-- The authenticator of a ciphertext, under a one-time key from the stream's first block. -/
def tag (key : SecretKey) (nonce ciphertext : Bytes) : Bytes :=
  Poly1305.tag ((ChaCha20.block key 0 nonce).take 32) (authenticated ciphertext)

/-- The ciphertext with its authenticator. -/
def encrypt (key : SecretKey) (nonce text : Bytes) : Bytes :=
  let ciphertext := ChaCha20.crypt key nonce text
  ciphertext ++ tag key nonce ciphertext

/-- The text, if the authenticator is right. -/
def decrypt? (key : SecretKey) (nonce payload : Bytes) : Option Bytes :=
  if payload.length < tagSize then none
  else
    let ciphertext := payload.take (payload.length - tagSize)
    if payload.drop (payload.length - tagSize) = tag key nonce ciphertext then
      some (ChaCha20.crypt key nonce ciphertext)
    else none

@[simp] theorem length_tag (key : SecretKey) (nonce ciphertext : Bytes) :
    (tag key nonce ciphertext).length = tagSize :=
  Poly1305.length_tag _ _

@[simp] theorem length_encrypt (key : SecretKey) (nonce text : Bytes) :
    (encrypt key nonce text).length = text.length + tagSize := by
  simp [encrypt]

theorem decrypt?_encrypt (key : SecretKey) (nonce text : Bytes) :
    decrypt? key nonce (encrypt key nonce text) = some text := by
  have long : ¬ text.length + tagSize < tagSize := by omega
  have cut : text.length + tagSize - tagSize = text.length := by omega
  have hct : (ChaCha20.crypt key nonce text).length = text.length := by simp
  simp only [decrypt?, length_encrypt, long, if_false, cut]
  simp only [encrypt, List.take_left' hct, List.drop_left' hct, if_true, ChaCha20.crypt_crypt]

theorem decrypt?_eq_some_iff {key : SecretKey} {nonce payload text : Bytes} :
    decrypt? key nonce payload = some text ↔ payload = encrypt key nonce text := by
  constructor
  · intro h
    simp only [decrypt?] at h
    split at h
    · cases h
    · split at h
      · rename_i htag
        cases h
        simp only [encrypt, ChaCha20.crypt_crypt]
        rw [← htag, List.take_append_drop]
      · cases h
  · rintro rfl
    exact decrypt?_encrypt key nonce text

end OtaUpgrade.Aead
