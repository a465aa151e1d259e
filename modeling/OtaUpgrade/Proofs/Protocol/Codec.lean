import Mathlib
import OtaUpgrade.Protocol.Command

/-!
Commands on the wire. A peripheral reads back every command of a shape that fits its opcode, and
reads nothing else: what it refuses is no such command's encoding, and the refusal says what is
wrong with it.
-/
namespace OtaUpgrade

theorem uint16_ofLittleEndian (value : UInt16) :
    UInt16.ofNat (ofLittleEndian (littleEndian 2 value.toNat)) = value := by
  rw [ofLittleEndian_littleEndian, byteRange, byteRange, byteRange,
    Nat.mod_eq_of_lt value.toNat_lt]
  exact UInt16.ofNat_toNat

theorem uint32_ofLittleEndian (value : UInt32) :
    UInt32.ofNat (ofLittleEndian (littleEndian 4 value.toNat)) = value := by
  rw [ofLittleEndian_littleEndian]
  rw [Nat.mod_eq_of_lt (show value.toNat < byteRange 4 from value.toNat_lt)]
  exact UInt32.ofNat_toNat

theorem littleEndian_uint16 {bs : Bytes} (h : bs.length = 2) :
    littleEndian 2 (UInt16.ofNat (ofLittleEndian bs)).toNat = bs := by
  have small := ofLittleEndian_lt bs
  rw [h] at small
  rw [UInt16.toNat_ofNat_of_lt' small, ← h, littleEndian_ofLittleEndian]

theorem littleEndian_uint32 {bs : Bytes} (h : bs.length = 4) :
    littleEndian 4 (UInt32.ofNat (ofLittleEndian bs)).toNat = bs := by
  have small := ofLittleEndian_lt bs
  rw [h] at small
  rw [UInt32.toNat_ofNat_of_lt' small, ← h, littleEndian_ofLittleEndian]

namespace Params

/-- Parameters that fit an opcode are read back behind it. -/
theorem decode?_encode {opcode : Opcode} {params : Params} (h : params.Fits opcode = true) :
    decode? opcode params.encode = some params := by
  cases params with
  | empty => cases opcode <;> first | rfl | cases h
  | short value =>
    have hv := uint16_ofLittleEndian value
    cases opcode <;> first | (cases h; done) | simpa [decode?, encode] using hv
  | long value =>
    have hv := uint32_ofLittleEndian value
    cases opcode <;> first | (cases h; done) | simpa [decode?, encode] using hv
  | firmware companyId firmwareId =>
    have hv := uint16_ofLittleEndian companyId
    cases opcode <;> first | (cases h; done) | simpa [decode?, encode, littleEndian] using hv

/-- Parameters read behind an opcode fit it, and are written as they were read. -/
theorem encode_decode? {opcode : Opcode} {bs : Bytes} {params : Params}
    (h : decode? opcode bs = some params) :
    params.Fits opcode = true ∧ params.encode = bs := by
  unfold decode? at h
  split at h
  case h_1 =>
    cases h
    exact ⟨rfl, rfl⟩
  case h_2 low high firmwareId =>
    cases h
    refine ⟨rfl, ?_⟩
    rw [encode, littleEndian_uint16 (show [low, high].length = 2 from rfl)]
    rfl
  case h_3 => cases h
  case h_4 | h_5 =>
    split at h
    · next four =>
      cases h
      exact ⟨rfl, littleEndian_uint32 four⟩
    · cases h
  case h_6 =>
    -- every opcode that is left takes nothing or a number
    split at h
    case h_1 none_ =>
      cases h
      refine ⟨?_, (List.length_eq_zero_iff.mp none_).symm⟩
      cases opcode <;> first | rfl | contradiction
    case h_2 two =>
      cases h
      refine ⟨?_, littleEndian_uint16 two⟩
      cases opcode <;> first | rfl | contradiction
    case h_3 four =>
      cases h
      refine ⟨?_, littleEndian_uint32 four⟩
      cases opcode <;> first | rfl | contradiction
    case h_4 => cases h

end Params

namespace Command

theorem decode_encode {c : Command} (h : c.WellShaped) : decode c.encode = .ok c := by
  have hp := Params.decode?_encode h
  simp [decode, encode, hp]

theorem decode_known (o : Opcode) (rest : Bytes) :
    decode (o.byte :: rest) =
      match Params.decode? o rest with
      | none => .error (.invalidLength o rest.length)
      | some params => .ok ⟨o, params⟩ := by
  cases hp : Params.decode? o rest <;> simp only [decode, Opcode.ofByte?_byte, hp]

theorem decode_unknown {x : UInt8} (h : ∀ o : Opcode, o.byte ≠ x) (rest : Bytes) :
    decode (x :: rest) = .error (.unknownOpcode x) := by
  have unknown : Opcode.ofByte? x = none := by
    cases found : Opcode.ofByte? x with
    | none => rfl
    | some o => exact absurd (Opcode.byte_of_ofByte? found) (h o)
  simp [decode, unknown]

/-- What a peripheral reads is a well-shaped command, and it reads all of those. -/
theorem decode_eq_ok {b : Bytes} {c : Command} :
    decode b = .ok c ↔ c.WellShaped ∧ c.encode = b := by
  constructor
  · intro h
    cases b with
    | nil => cases h
    | cons x rest =>
      by_cases known : ∃ o : Opcode, o.byte = x
      · obtain ⟨o, rfl⟩ := known
        rw [decode_known] at h
        split at h
        · cases h
        · next params read =>
          cases h
          obtain ⟨fits, written⟩ := Params.encode_decode? read
          exact ⟨fits, by rw [encode, written]⟩
      · rw [decode_unknown (not_exists.mp known)] at h
        cases h
  · rintro ⟨shaped, rfl⟩
    exact decode_encode shaped

theorem decode_eq_empty {b : Bytes} : decode b = .error .empty ↔ b = [] := by
  constructor
  · intro h
    cases b with
    | nil => rfl
    | cons x rest =>
      by_cases known : ∃ o : Opcode, o.byte = x
      · obtain ⟨o, rfl⟩ := known
        rw [decode_known] at h
        split at h <;> cases h
      · rw [decode_unknown (not_exists.mp known)] at h
        cases h
  · rintro rfl
    rfl

theorem decode_eq_unknownOpcode {b : Bytes} {x : UInt8} :
    decode b = .error (.unknownOpcode x) ↔ b.head? = some x ∧ ∀ o : Opcode, o.byte ≠ x := by
  constructor
  · intro h
    cases b with
    | nil => cases h
    | cons y rest =>
      by_cases known : ∃ o : Opcode, o.byte = y
      · obtain ⟨o, rfl⟩ := known
        rw [decode_known] at h
        split at h <;> cases h
      · rw [decode_unknown (not_exists.mp known)] at h
        cases h
        exact ⟨rfl, not_exists.mp known⟩
  · rintro ⟨first, unknown⟩
    obtain ⟨rest, rfl⟩ := List.head?_eq_some_iff.mp first
    exact decode_unknown unknown rest

theorem decode_eq_invalidLength {b : Bytes} {o : Opcode} {n : Nat} :
    decode b = .error (.invalidLength o n) ↔
      ∃ rest, b = o.byte :: rest ∧ n = rest.length ∧
        ∀ c : Command, c.WellShaped → c.encode ≠ b := by
  constructor
  · intro h
    have nothing : ∀ c : Command, c.WellShaped → c.encode ≠ b := by
      intro c shaped same
      rw [decode_eq_ok.mpr ⟨shaped, same⟩] at h
      cases h
    cases b with
    | nil => cases h
    | cons y rest =>
      by_cases known : ∃ p : Opcode, p.byte = y
      · obtain ⟨p, rfl⟩ := known
        rw [decode_known] at h
        split at h
        · cases h
          exact ⟨rest, rfl, rfl, nothing⟩
        · cases h
      · rw [decode_unknown (not_exists.mp known)] at h
        cases h
  · rintro ⟨rest, rfl, rfl, nothing⟩
    rw [decode_known]
    split
    · rfl
    · next params read =>
      obtain ⟨fits, written⟩ := Params.encode_decode? read
      exact absurd (by rw [encode, written]) (nothing ⟨o, params⟩ fits)

/-- The codec is exact. A peripheral reads a byte string as a command precisely when the command
is well-shaped and the string is its encoding; it refuses the empty string as empty, a string that
starts with no opcode as such, and of the others those that no well-shaped command has, with the
opcode and the count of bytes behind it. Every command takes the bytes it says it takes. -/
theorem codec_exact :
    (∀ b : Bytes,
      (∀ c, decode b = .ok c ↔ c.WellShaped ∧ c.encode = b) ∧
      (decode b = .error .empty ↔ b = []) ∧
      (∀ x, decode b = .error (.unknownOpcode x) ↔
        b.head? = some x ∧ ∀ o : Opcode, o.byte ≠ x) ∧
      (∀ o n, decode b = .error (.invalidLength o n) ↔
        ∃ rest, b = o.byte :: rest ∧ n = rest.length ∧
          ∀ c : Command, c.WellShaped → c.encode ≠ b)) ∧
    ∀ c : Command, c.encode.length = c.encodedSize := by
  refine ⟨fun b => ⟨fun c => ?_, ?_, fun x => ?_, fun o n => ?_⟩, length_encode⟩
  · exact decode_eq_ok
  · exact decode_eq_empty
  · exact decode_eq_unknownOpcode
  · exact decode_eq_invalidLength

theorem wellShaped_start (size : UInt32) : (start size).WellShaped := rfl

theorem wellShaped_verify (crc : UInt32) : (verify crc).WellShaped := rfl

end Command
end OtaUpgrade
