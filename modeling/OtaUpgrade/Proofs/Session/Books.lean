import Mathlib
import OtaUpgrade.Session.Transfer
import OtaUpgrade.Image

/-!
The books of a data transfer, as a function of the image, the chunk size and two counts: how many
chunks went out and how many of them were acknowledged. `Books` says that a transfer's books are of
that form, with at most one chunk in flight and no chunk sent in vain; sending the next chunk and
acknowledging the one in flight keep it.
-/
namespace OtaUpgrade

namespace Image

/-- How many bytes the first `count` chunks of `size` bytes make up. -/
def covered (image : Image) (size count : Nat) : Nat :=
  min (count * size) image.size

/-- The chunk of `size` bytes with this number, from zero; the last one may be shorter. -/
def chunk (image : Image) (size index : Nat) : Bytes :=
  image.slice (index * size) (min ((index + 1) * size) image.size)

/-- The first `count` chunks. -/
def chunks (image : Image) (size count : Nat) : List Bytes :=
  (List.range count).map (image.chunk size)

@[simp] theorem covered_zero (image : Image) (size : Nat) : image.covered size 0 = 0 := by
  simp [covered]

theorem covered_le (image : Image) (size count : Nat) : image.covered size count ≤ image.size :=
  Nat.min_le_right _ _

theorem covered_of_lt {image : Image} {size count : Nat} (h : count * size < image.size) :
    image.covered size count = count * size :=
  Nat.min_eq_left (Nat.le_of_lt h)

theorem covered_succ {image : Image} {size count : Nat} (h : count * size < image.size) :
    image.covered size (count + 1) = count * size + min size (image.size - count * size) := by
  unfold covered
  rw [Nat.succ_mul]
  omega

@[simp] theorem chunks_zero (image : Image) (size : Nat) : image.chunks size 0 = [] := rfl

theorem chunks_succ (image : Image) (size count : Nat) :
    image.chunks size (count + 1) = image.chunks size count ++ [image.chunk size count] := by
  simp [chunks, List.range_succ]

@[simp] theorem length_chunks (image : Image) (size count : Nat) :
    (image.chunks size count).length = count := by
  simp [chunks]

theorem chunks_prefix {image : Image} {size n m : Nat} (h : n ≤ m) :
    image.chunks size n <+: image.chunks size m := by
  obtain ⟨d, rfl⟩ := Nat.exists_eq_add_of_le h
  refine ⟨(List.range d).map fun i => image.chunk size (n + i), ?_⟩
  simp [chunks, List.range_add, Function.comp_def]

theorem length_chunk {image : Image} {size count : Nat} (h : count * size < image.size) :
    (image.chunk size count).length = min size (image.size - count * size) := by
  rw [chunk, slice_eq, List.length_take, List.length_drop, length_bytes, Nat.succ_mul]
  omega

/-- All chunks but the last one are full. -/
theorem map_length_chunks {image : Image} {size count : Nat} (lt : count * size < image.size)
    (hall : image.size ≤ (count + 1) * size) :
    (image.chunks size (count + 1)).map List.length
      = List.replicate count size ++ [image.size - count * size] := by
  have hfull : (image.chunks size count).map List.length = List.replicate count size := by
    refine List.eq_replicate_iff.mpr ⟨by simp, fun n hn => ?_⟩
    obtain ⟨c, hc, rfl⟩ := List.mem_map.mp hn
    obtain ⟨i, hi, rfl⟩ := List.mem_map.mp hc
    have hle : (i + 1) * size ≤ count * size :=
      Nat.mul_le_mul_right _ (List.mem_range.mp hi)
    rw [Nat.succ_mul] at hle
    rw [length_chunk (by omega)]
    omega
  rw [Nat.succ_mul] at hall
  rw [chunks_succ, List.map_append, hfull, List.map_singleton, length_chunk lt, Nat.min_eq_right]
  omega

/-- A chunk takes the image's prefix on to where the next chunk starts. -/
theorem take_covered_succ (image : Image) (size count : Nat) :
    image.bytes.take (image.covered size (count + 1))
      = image.bytes.take (image.covered size count) ++ image.chunk size count := by
  rw [chunk, slice_eq]
  -- past the end of the image a chunk is empty
  by_cases h : count * size < image.size
  · have hsum : image.covered size (count + 1)
        = count * size + (min ((count + 1) * size) image.size - count * size) := by
      rw [covered_succ h, Nat.succ_mul]
      omega
    rw [hsum, covered_of_lt h, List.take_add]
  · have hle : image.size ≤ count * size := Nat.le_of_not_lt h
    have hsucc : image.size ≤ (count + 1) * size := by rw [Nat.succ_mul]; omega
    have hnil : min ((count + 1) * size) image.size - count * size = 0 := by omega
    rw [hnil, List.take_zero, List.append_nil, covered, covered, Nat.min_eq_right hle,
      Nat.min_eq_right hsucc]

/-- The chunks one after the other are the image's prefix. -/
theorem flatten_chunks (image : Image) (size count : Nat) :
    (image.chunks size count).flatten = image.bytes.take (image.covered size count) := by
  induction count with
  | zero => simp
  | succ count ih =>
    rw [chunks_succ, List.flatten_append, ih, take_covered_succ]
    simp

/-- All of the image once everything is covered. -/
theorem take_covered_all {image : Image} {size count : Nat}
    (h : image.covered size count = image.size) :
    image.bytes.take (image.covered size count) = image.bytes := by
  rw [h, ← length_bytes, List.take_length]

/-- The next chunk is what lies between two reaches of the chunks. -/
theorem chunk_eq_slice {image : Image} {size count : Nat} (h : count * size < image.size) :
    image.chunk size count
      = image.slice (image.covered size count) (image.covered size (count + 1)) := by
  rw [covered_of_lt h]
  rfl

end Image

namespace Transfer

/-- The books once `sent` chunks of `size` bytes went out and `acked` of them were acknowledged. -/
def after (image : Image) (size acked sent : Nat) : Transfer :=
  { imageSize := image.size
    offset := image.covered size acked
    inFlight := image.covered size sent - image.covered size acked
    chunkSize := size
    chunksSent := sent
    crc :=
      { value := Crc32.update Crc32.allOnes (image.bytes.take (image.covered size sent))
        final := if image.covered size sent = image.size then some image.crc else none }
    finalizations := if image.covered size sent = image.size then 1 else 0 }

/-- How many chunks were acknowledged: all that went out but the one in flight. -/
def acked (t : Transfer) : Nat :=
  if t.inFlight = 0 then t.chunksSent else t.chunksSent - 1

/-- Books that agree with the image. -/
inductive Books (image : Image) : Transfer → Prop where
  /-- Nothing is in flight, and the last chunk, if there was one, was not sent in vain. -/
  | still {size count : Nat} (tight : count = 0 ∨ 0 < size ∧ (count - 1) * size < image.size) :
      Books image (after image size count count)
  | flying {size count : Nat} (pos : 0 < size) (lt : count * size < image.size) :
      Books image (after image size count (count + 1))

section after

variable (image : Image) (size acked sent : Nat)

@[simp] theorem imageSize_after : (after image size acked sent).imageSize = image.size := rfl

@[simp] theorem offset_after :
    (after image size acked sent).offset = image.covered size acked := rfl

@[simp] theorem chunkSize_after : (after image size acked sent).chunkSize = size := rfl

@[simp] theorem chunksSent_after : (after image size acked sent).chunksSent = sent := rfl

theorem inFlight_after_self : (after image size sent sent).inFlight = 0 := Nat.sub_self _

@[simp] theorem acked_after_self : (after image size sent sent).acked = sent := by
  simp [Transfer.acked, inFlight_after_self]

end after

theorem inFlight_after_succ {image : Image} {size count : Nat} (h : count * size < image.size) :
    (after image size count (count + 1)).inFlight = min size (image.size - count * size) := by
  show image.covered size (count + 1) - image.covered size count = _
  rw [Image.covered_succ h, Image.covered_of_lt h]
  omega

theorem acked_after_succ {image : Image} {size count : Nat} (pos : 0 < size)
    (h : count * size < image.size) : (after image size count (count + 1)).acked = count := by
  have hne : (after image size count (count + 1)).inFlight ≠ 0 := by
    rw [inFlight_after_succ h]
    omega
  simp [Transfer.acked, hne]

/-- A session that has sent nothing has these books. -/
theorem after_zero (image : Image) : after image 0 0 0 = { imageSize := image.size } := by
  have hne : ¬ (0 = image.size) := Nat.ne_of_lt image.size_pos
  simp [after, hne]

theorem after_chunkSize (image : Image) (old size : Nat) :
    { after image old 0 0 with chunkSize := size } = after image size 0 0 := by
  simp [after]

/-- As long as bytes are missing, the next chunk is the one after those sent. -/
theorem nextChunk?_after {image : Image} {size count : Nat} (pos : 0 < size)
    (lt : count * size < image.size) :
    (after image size count count).nextChunk?
      = some (image.covered size count, image.covered size (count + 1)) := by
  have hnot : ¬ (image.size ≤ count * size ∨ size = 0) := by omega
  simp only [nextChunk?, imageSize_after, offset_after, chunkSize_after, Image.covered_succ lt,
    Image.covered_of_lt lt, if_neg hnot]

/-- The register takes in a chunk as long as bytes are missing. -/
theorem update?_after {image : Image} {size count : Nat} (lt : count * size < image.size) :
    (after image size count count).crc.update? (image.chunk size count)
      = some
        { value := Crc32.update Crc32.allOnes
            (image.bytes.take (image.covered size (count + 1))) } := by
  have hne : ¬ image.covered size count = image.size := by rw [Image.covered_of_lt lt]; omega
  simp only [after, RunningCrc.update?, if_neg hne, Option.isSome_none, Bool.false_eq_true,
    if_false, Image.take_covered_succ image size count, Crc32.update_append]

/-- Sending the next chunk. -/
theorem sent_after {image : Image} {size count : Nat} (lt : count * size < image.size) :
    (after image size count count).sent
        { value := Crc32.update Crc32.allOnes
            (image.bytes.take (image.covered size (count + 1))) }
        (image.covered size count) (image.covered size (count + 1))
      = after image size count (count + 1) := by
  have hne : ¬ image.covered size count = image.size := by rw [Image.covered_of_lt lt]; omega
  -- the last chunk makes the checksum final, any other leaves it open
  by_cases hlast : image.covered size (count + 1) = image.size
  · have hall : Crc32.finish (Crc32.update Crc32.allOnes
        (image.bytes.take (image.covered size (count + 1)))) = image.crc := by
      rw [Image.take_covered_all hlast]
      rfl
    simp [after, sent, hne, hlast, RunningCrc.finalize] at hall ⊢
    exact hall
  · simp [after, sent, hne, hlast]

/-- The chunk in flight is acknowledged. -/
theorem acknowledged_after {image : Image} {size count : Nat} (lt : count * size < image.size) :
    { after image size count (count + 1) with
        offset := (after image size count (count + 1)).offset
          + (after image size count (count + 1)).inFlight
        inFlight := 0 }
      = after image size (count + 1) (count + 1) := by
  have hsum : image.covered size count + (image.covered size (count + 1)
      - image.covered size count) = image.covered size (count + 1) := by
    rw [Image.covered_of_lt lt, Image.covered_succ lt]
    omega
  simp [after, hsum]

theorem isDone_after_self {image : Image} {size count : Nat} :
    (after image size count count).isDone = true ↔ image.covered size count = image.size := by
  simp [isDone]

namespace Books

variable {image : Image} {t : Transfer}

theorem zero (image : Image) (size : Nat) : Books image (after image size 0 0) :=
  .still (.inl rfl)

theorem acknowledge {size count : Nat} (pos : 0 < size) (lt : count * size < image.size) :
    Books image (after image size (count + 1) (count + 1)) :=
  .still (.inr ⟨pos, by simpa using lt⟩)

/-- What went out reaches as far as offset and flight say. -/
theorem reach (h : Books image t) :
    t.offset + t.inFlight = image.covered t.chunkSize t.chunksSent := by
  cases h with
  | still => simp [inFlight_after_self]
  | flying pos lt =>
    rw [offset_after, inFlight_after_succ lt, chunkSize_after, chunksSent_after,
      Image.covered_succ lt, Image.covered_of_lt lt]

theorem imageSize_eq (h : Books image t) : t.imageSize = image.size := by
  cases h <;> rfl

theorem offset_eq (h : Books image t) : t.offset = image.covered t.chunkSize t.acked := by
  cases h with
  | still => simp
  | flying pos lt => rw [acked_after_succ pos lt, offset_after, chunkSize_after]

theorem crc_value (h : Books image t) :
    t.crc.value = Crc32.update Crc32.allOnes (image.bytes.take (t.offset + t.inFlight)) := by
  rw [h.reach]
  cases h <;> rfl

theorem crc_final (h : Books image t) :
    t.crc.final = if t.offset + t.inFlight = image.size then some image.crc else none := by
  rw [h.reach]
  cases h <;> rfl

theorem finalizations_eq (h : Books image t) :
    t.finalizations = if t.offset + t.inFlight = image.size then 1 else 0 := by
  rw [h.reach]
  cases h <;> rfl

/-- No chunk was sent in vain. -/
theorem tight (h : Books image t) :
    t.chunksSent = 0 ∨ 0 < t.chunkSize ∧ (t.chunksSent - 1) * t.chunkSize < image.size := by
  cases h with
  | still tight => exact tight
  | flying pos lt => exact .inr ⟨pos, by simpa using lt⟩

/-- The chunks that went out are as many as their bytes need. -/
theorem chunksSent_eq (h : Books image t) :
    t.chunksSent = (t.offset + t.inFlight + t.chunkSize - 1) / t.chunkSize := by
  rw [h.reach]
  -- rounding up counts right because the last chunk was not sent in vain
  rcases h.tight with h0 | ⟨pos, lt⟩
  · rw [h0, Image.covered_zero, Nat.zero_add]
    rcases Nat.eq_zero_or_pos t.chunkSize with hs | hs
    · rw [hs, Nat.div_zero]
    · rw [Nat.div_eq_of_lt (by omega)]
  · symm
    rcases Nat.eq_zero_or_pos t.chunksSent with h0 | hn
    · rw [h0, Image.covered_zero, Nat.zero_add, Nat.div_eq_of_lt (by omega)]
    · obtain ⟨n, hn⟩ : ∃ n, t.chunksSent = n + 1 := ⟨t.chunksSent - 1, by omega⟩
      rw [hn, Nat.add_sub_cancel] at lt
      rw [hn, Nat.div_eq_iff pos, Image.covered_succ lt, Nat.succ_mul]
      omega

end Books
end Transfer

namespace Image

variable {image : Image} {size count : Nat}

/-- A chunk that is not empty is one of those that the image takes. -/
theorem succ_le_total (pos : 0 < size) (lt : count * size < image.size) :
    count + 1 ≤ (image.size + size - 1) / size := by
  rw [Nat.le_div_iff_mul_le pos, Nat.succ_mul]
  omega

/-- When everything is covered, all chunks that the image takes were sent. -/
theorem succ_eq_total (pos : 0 < size) (lt : count * size < image.size)
    (hall : image.covered size (count + 1) = image.size) :
    count + 1 = (image.size + size - 1) / size := by
  have htotal := (Transfer.Books.acknowledge pos lt).chunksSent_eq
  simpa [hall, Transfer.inFlight_after_self] using htotal

/-- Each of the chunks that an image takes has bytes. -/
theorem lt_of_lt_total (pos : 0 < size) (h : count < (image.size + size - 1) / size) :
    count * size < image.size := by
  have hle : (count + 1) * size ≤ image.size + size - 1 :=
    Nat.le_trans (Nat.mul_le_mul_right _ h) (Nat.div_mul_le_self _ _)
  rw [Nat.succ_mul] at hle
  omega

end Image
end OtaUpgrade
