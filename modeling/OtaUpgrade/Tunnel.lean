import OtaUpgrade.Crypto.Aead
import OtaUpgrade.Link.Error

/-!
The encrypted tunnel to a mesh node. A wrapped payload is a nonce, the ciphertext and its
authenticator. The nonce holds the sender's direction and a count of the payloads the sender has
wrapped, so the two ends never use one nonce both; an end refuses payloads of its own direction.

Wrapping cannot fail. The only payloads that encryption would refuse are too long for the cipher's
block counter (`ChaCha20`), and that refusal is left out, wrapping and unwrapping.
-/
namespace OtaUpgrade

/-- The way a payload goes through the tunnel. -/
inductive Direction where
  | toNode
  | fromNode
  deriving DecidableEq, Repr

/-- The first byte of the nonces of a direction. -/
def Direction.byte : Direction → UInt8
  | toNode => 1
  | fromNode => 2

/-- One end of a tunnel. -/
structure TunnelEnd where
  key : SecretKey
  /-- The direction of the payloads that this end wraps. -/
  direction : Direction
  /-- How many payloads this end has wrapped; the count starts over behind the last word. -/
  count : UInt64 := 0
  deriving DecidableEq, Repr

namespace TunnelEnd

/-- Bytes of a nonce. -/
def nonceSize : Nat := 12

/-- Bytes that wrapping adds to a payload. -/
def overhead : Nat := nonceSize + Aead.tagSize

/-- The nonce of a payload: direction, count, and three zeros. -/
def nonce (direction : Direction) (count : UInt64) : Bytes :=
  direction.byte :: (littleEndian 8 count.toNat ++ [0, 0, 0])

/-- The payload as it goes through the tunnel. -/
def wrap (t : TunnelEnd) (payload : Bytes) : Bytes :=
  let n := nonce t.direction t.count
  n ++ Aead.encrypt t.key n payload

/-- The end once it has wrapped a payload. -/
def advance (t : TunnelEnd) : TunnelEnd :=
  { t with count := t.count + 1 }

/-- The payload that came through the tunnel. -/
def unwrap (t : TunnelEnd) (wrapped : Bytes) : Except LinkError Bytes :=
  if wrapped.length < overhead then
    .error (.crypto s!"Sealed payload too short: {wrapped.length} bytes")
  else if wrapped.head? = some t.direction.byte then
    .error (.crypto "Reflected payload")
  else
    match Aead.decrypt? t.key (wrapped.take nonceSize) (wrapped.drop nonceSize) with
    | some payload => .ok payload
    | none => .error (.crypto "Decryption failed: aead::Error")

@[simp] theorem length_nonce (direction : Direction) (count : UInt64) :
    (nonce direction count).length = nonceSize := by
  simp [nonce, nonceSize]

@[simp] theorem length_wrap (t : TunnelEnd) (payload : Bytes) :
    (t.wrap payload).length = payload.length + overhead := by
  simp [wrap, overhead]
  omega

theorem nonce_injective {d d' : Direction} {c c' : UInt64} (h : nonce d c = nonce d' c') :
    d = d' ∧ c = c' := by
  simp only [nonce, List.cons.injEq] at h
  obtain ⟨hd, hc⟩ := h
  have hc := List.append_cancel_right hc
  refine ⟨by cases d <;> cases d' <;> simp_all [Direction.byte], ?_⟩
  have hn := congrArg ofLittleEndian hc
  simp only [ofLittleEndian_littleEndian, byteRange] at hn
  have h1 := c.toNat_lt
  have h2 := c'.toNat_lt
  apply UInt64.toNat.inj
  rw [Nat.mod_eq_of_lt (by omega), Nat.mod_eq_of_lt (by omega)] at hn
  exact hn

end TunnelEnd
end OtaUpgrade
