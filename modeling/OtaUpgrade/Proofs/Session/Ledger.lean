import Mathlib
import OtaUpgrade.Proofs.Session.Accounts
import OtaUpgrade.Proofs.Session.Entries

/-!
The ledger of a transfer. At every point of a life the books, the checksum and the writes made so
far agree with the image, up to the end of the chunk in flight; each acknowledgement moves the
offset by that chunk, and verification begins with everything acknowledged.
-/
namespace OtaUpgrade

namespace Session

/-- The books of a session agree with the image and with the data writes in `effects`. -/
structure Ledger (image : Image) (effects : List Effect) (s : Session) : Prop where
  offset_le : s.transfer.offset ≤ image.size
  reach_le : s.transfer.offset + s.transfer.inFlight ≤ image.size
  /-- What was written is the image up to the end of the chunk in flight. -/
  written : (Trace.writes .data effects).flatten
    = image.bytes.take (s.transfer.offset + s.transfer.inFlight)
  /-- Each write is the chunk of its number. -/
  chunks : Trace.writes .data effects
    = (List.range s.transfer.chunksSent).map fun i =>
        image.slice (i * s.transfer.chunkSize) (min ((i + 1) * s.transfer.chunkSize) image.size)
  chunksSent : s.transfer.chunksSent = (Trace.writes .data effects).length
  chunksSent_eq : s.transfer.chunksSent
    = (s.transfer.offset + s.transfer.inFlight + s.transfer.chunkSize - 1) / s.transfer.chunkSize
  register : s.transfer.crc.value
    = Crc32.update Crc32.allOnes (image.bytes.take (s.transfer.offset + s.transfer.inFlight))
  final : s.transfer.offset + s.transfer.inFlight = image.size →
    s.transfer.finalizations = 1 ∧ s.transfer.crc.final = some image.crc
  unfinal : s.transfer.offset + s.transfer.inFlight < image.size →
    s.transfer.finalizations = 0 ∧ s.transfer.crc.final = none
  /-- Once it is settled the chunk size stays. -/
  settled : 0 < s.transfer.chunkSize → ∀ more, (s.live more).crash? = none →
    (s.live more).session.transfer.chunkSize = s.transfer.chunkSize
  /-- The acknowledgement that is waited for moves the offset by the last chunk written. -/
  acknowledged : s.wait = .chunkAck → ∀ e : Event, e.acknowledges = true →
    0 < s.transfer.inFlight ∧
    (∃ chunk, (Trace.writes .data effects).getLast? = some chunk ∧
      chunk.length = s.transfer.inFlight) ∧
    (s.handle e).session.transfer.offset = s.transfer.offset + s.transfer.inFlight
  /-- Nothing else moves it. -/
  unmoved : ∀ e : Event, ¬ (s.wait = .chunkAck ∧ e.acknowledges = true) →
    (s.handle e).session.transfer.offset = s.transfer.offset
  verifying : ∀ e r, (.verify, r) ∈ s.entries e →
    r.transfer.offset = image.size ∧
      r.transfer.chunksSent = (image.size + s.transfer.chunkSize - 1) / s.transfer.chunkSize

/-! ## The offset -/

theorem Sound.offset_acknowledged {s : Session} (h : s.Sound) {e : Event}
    (hw : s.wait = .chunkAck) (he : e.acknowledges = true) :
    (s.handle e).session.transfer.offset = s.transfer.offset + s.transfer.inFlight := by
  have hp := h.chunkAck_iff.mp hw
  have elsewhere {p : Phase} (hs : s.phase = p) (hq : p ≠ .dataTransfer) : False :=
    hq (hs.symm.trans hp)
  cases h.deed e with
  | stays _ _ _ _ ha => exact absurd (ha hp) (by simp [he])
  | fails _ _ _ ha => exact absurd (ha hp) (by simp [he])
  | next hs hev hi pos lt hst hp' ht =>
    have hle := Nat.lt_of_le_of_lt (Nat.mul_le_mul_right _ (Nat.le_succ _)) lt
    rw [ht, hst, (Transfer.Books.flying pos hle).reach]
    rfl
  | verifies hs hev hi pos lt hall hst hp' hw' ht =>
    rw [ht, hst, (Transfer.Books.flying pos lt).reach]
    rfl
  | connects hs | discovers hs | reads hs | prepares hs | starts hs | transfers hs
  | finishes hs => exact (elsewhere hs (by decide)).elim
  | notifies hs =>
    rcases hs with hs | ⟨hs, -⟩ <;> exact (elsewhere hs (by decide)).elim

theorem Sound.offset_unmoved {s : Session} (h : s.Sound) {e : Event}
    (hn : ¬ (s.wait = .chunkAck ∧ e.acknowledges = true)) :
    (s.handle e).session.transfer.offset = s.transfer.offset := by
  cases h.deed e with
  | stays _ ht | connects _ _ ht | discovers _ _ _ ht | reads _ _ _ ht | notifies _ _ ht
  | prepares _ _ _ ht | starts _ _ _ _ ht | finishes _ _ _ ht | fails _ _ ht => rw [ht]
  | transfers hs hg hi pos hst hp ht =>
    rw [ht, hst]
    rfl
  | next hs hev => exact absurd ⟨h.chunkAck_iff.mpr hs, hev⟩ hn
  | verifies hs hev => exact absurd ⟨h.chunkAck_iff.mpr hs, hev⟩ hn

/-- The chunk size stays once it is settled, whatever happens. -/
theorem Sound.chunkSize_live {s : Session} (h : s.Sound) (pos : 0 < s.transfer.chunkSize)
    (hs : List Happening) (hc : (s.live hs).crash? = none) :
    (s.live hs).session.transfer.chunkSize = s.transfer.chunkSize := by
  -- soundness goes along: without it the size could be settled twice
  refine (live_invariant (P := fun _ r => r.Sound ∧
    r.transfer.chunkSize = s.transfer.chunkSize) (fun guard h => ⟨h.1.withGuard guard, h.2⟩)
    (fun e hr hx => ⟨hr.1.handle e hx, ?_⟩) (c := []) ⟨h, rfl⟩ hs hc).2
  rcases hr.1.chunkSize_handle (e := e) with heq | h0
  · exact heq.trans hr.2
  · rw [hr.2] at h0
    omega

/-! ## The ledger -/

/-- At every point the books agree with the image. -/
theorem ledger_live (config : Config) (mode : Mode) (image : Image) (device : Option Device)
    (collaborators : Collaborators) (guard : Guard) (hs : List Happening)
    (hc : ((fresh config mode (some image) device collaborators guard).live hs).crash? = none) :
    Ledger image
      ((fresh config mode (some image) device collaborators guard).live hs).effects
      ((fresh config mode (some image) device collaborators guard).live hs).session := by
  have hacc := (Accounts.fresh config mode (some image) device collaborators guard).live hs hc
  have halike := (Sound.fresh config mode (some image) device collaborators guard).alike_live hs hc
  rw [List.nil_append] at hacc
  -- of the life itself only its chronicle and the session it leads to matter
  have hdeeds := deeds_chronicle (fresh config mode (some image) device collaborators guard) hs
  generalize (fresh config mode (some image) device collaborators guard).chronicle hs = c
    at hacc hdeeds
  generalize (fresh config mode (some image) device collaborators guard).live hs = turn
    at hacc hdeeds halike
  obtain ⟨s, effects, reaction⟩ := turn
  have hi : s.image = some image := halike.image
  have hsound : s.Sound := hacc.sound
  have hbooks := (hsound.stands image hi).books
  have hdata : Trace.writes .data effects
      = image.chunks s.transfer.chunkSize s.transfer.chunksSent := by
    rw [show effects = Episode.deeds c from hdeeds.symm]
    exact hacc.data image hi
  have hreach := hbooks.reach
  show Ledger image effects s
  constructor
  case offset_le =>
    rw [hbooks.offset_eq]
    exact image.covered_le _ _
  case reach_le =>
    rw [hreach]
    exact image.covered_le _ _
  case written => rw [hdata, hreach, Image.flatten_chunks]
  case chunks => exact hdata
  case chunksSent => rw [hdata, Image.length_chunks]
  case chunksSent_eq => exact hbooks.chunksSent_eq
  case register => exact hbooks.crc_value
  case final =>
    intro hall
    rw [hbooks.finalizations_eq, hbooks.crc_final, if_pos hall, if_pos hall]
    exact ⟨rfl, rfl⟩
  case unfinal =>
    intro hlt
    rw [hbooks.finalizations_eq, hbooks.crc_final, if_neg (Nat.ne_of_lt hlt),
      if_neg (Nat.ne_of_lt hlt)]
    exact ⟨rfl, rfl⟩
  case settled => exact hsound.chunkSize_live
  case acknowledged =>
    intro hw e he
    obtain ⟨size, count, pos, lt, ht⟩ := hsound.flying (hsound.chunkAck_iff.mp hw) hi
    refine ⟨?_, ⟨image.chunk size count, ?_, ?_⟩, hsound.offset_acknowledged hw he⟩
    · rw [ht, Transfer.inFlight_after_succ lt]
      omega
    · rw [hdata, ht, Transfer.chunkSize_after, Transfer.chunksSent_after, Image.chunks_succ,
        List.getLast?_concat]
    · rw [Image.length_chunk lt, ht, Transfer.inFlight_after_succ lt]
  case unmoved => exact fun e hn => hsound.offset_unmoved hn
  case verifying =>
    intro e r hr
    obtain ⟨hsize, size, count, pos, lt, hall, ht⟩ := hsound.entries_verify hr hi
    have htotal := (Transfer.Books.acknowledge pos lt).chunksSent_eq
    rw [ht, Transfer.chunkSize_after] at hsize
    rw [Transfer.offset_after, Transfer.inFlight_after_self, Transfer.chunkSize_after, hall,
      Nat.add_zero] at htotal
    rw [ht, ← hsize]
    exact ⟨hall, htotal⟩

/-- Three bytes of which two are acknowledged. -/
def halfwayLife : List Happening :=
  [.event .start, .event (.connection true none), .event (.service (some .legacy) none),
    .event (.notifications true none), .event (.written .controlPoint (.ok (some [0]))),
    .event (.written .controlPoint (.ok (some [0]))), .event (.written .data (.ok none))]

theorem ledger_halfway :
    let s := fresh { chunkSize := some 2 } .direct (some ⟨#[1, 2, 3], by decide, by decide⟩)
      (some { name := "node" }) {} {}
    (s.live halfwayLife).crash? = none ∧ (s.live halfwayLife).session.transfer.offset = 2 ∧
      Ledger ⟨#[1, 2, 3], by decide, by decide⟩ (s.live halfwayLife).effects
        (s.live halfwayLife).session :=
  ⟨by decide, by decide, ledger_live _ _ _ _ _ _ _ (by decide)⟩

end Session
end OtaUpgrade
