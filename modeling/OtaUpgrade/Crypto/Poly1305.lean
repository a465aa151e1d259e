import OtaUpgrade.Bytes

/-!
The Poly1305 authenticator: a message, read as the coefficients of a polynomial in blocks of sixteen
bytes, is evaluated at a secret point modulo a prime, and the value is hidden under a second secret.
-/
namespace OtaUpgrade.Poly1305

/-- The modulus of the evaluation, five below a power of two. -/
def prime : Nat := 0x3fffffffffffffffffffffffffffffffb

/-- The bits of the point that may be set. -/
def pointMask : Nat := 0x0ffffffc0ffffffc0ffffffc0fffffff

/-- Cuts a message into blocks of sixteen bytes; the last one may be shorter. -/
def blocks (message : Bytes) : List Bytes :=
  if message.isEmpty then [] else message.take 16 :: blocks (message.drop 16)
termination_by message.length
decreasing_by
  cases message
  · contradiction
  · simp only [List.length_drop, List.length_cons]
    omega

/-- The number of a block. A one behind its bytes tells blocks of different lengths apart. -/
def coefficient (block : Bytes) : Nat :=
  ofLittleEndian (block ++ [1])

/-- The value of the message's polynomial at a point. -/
def evaluate (point : Nat) (message : Bytes) : Nat :=
  (blocks message).foldl (fun sum block => (sum + coefficient block) * point % prime) 0

/-- The sixteen bytes that vouch for a message under a one-time key. The first half of the key is
the point, the second half hides the value. -/
def tag (key message : Bytes) : Bytes :=
  let point := ofLittleEndian (key.take 16) &&& pointMask
  littleEndian 16 (evaluate point message + ofLittleEndian ((key.drop 16).take 16))

@[simp] theorem length_tag (key message : Bytes) : (tag key message).length = 16 := by
  simp [tag]

end OtaUpgrade.Poly1305
