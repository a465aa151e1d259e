import Mathlib
import OtaUpgrade.Proofs.Session.Accounts
import OtaUpgrade.Proofs.Session.Ending
import OtaUpgrade.Proofs.Session.Itinerary

/-!
How large the numbers of a session get. The books of a transfer stay within its image, every
progress that is told is read off books that do, and the timer counts a few timeouts more than there
are chunks. An image fits 32 bits, so nothing here comes near the end of a word.
-/
namespace OtaUpgrade

namespace Transfer

/-- The books of a transfer of so many bytes stay within them. -/
structure Within (size : Nat) (t : Transfer) : Prop where
  imageSize_eq : t.imageSize = size
  offset_le : t.offset ≤ size
  chunksSent_le : t.chunksSent ≤ size
  finalizations_le : t.finalizations ≤ 1

variable {size : Nat} {image : Image} {t : Transfer}

theorem Within.start (size : Nat) : Within size { imageSize := size } :=
  ⟨rfl, Nat.zero_le _, Nat.zero_le _, Nat.zero_le _⟩

/-- Books that agree with an image stay within it. -/
theorem Books.within (h : Books image t) : t.Within image.size where
  imageSize_eq := h.imageSize_eq
  offset_le := by
    rw [h.offset_eq]
    exact image.covered_le _ _
  chunksSent_le := by
    rcases h.tight with h0 | ⟨pos, lt⟩
    · omega
    · -- every chunk before the last has a byte at least
      have hle := Nat.le_mul_of_pos_right (t.chunksSent - 1) pos
      omega
  finalizations_le := by
    rw [h.finalizations_eq]
    split <;> omega

theorem Within.of_books (h : t.Within size) (hi : t.imageSize = image.size) {t' : Transfer}
    (h' : Books image t') : t'.Within size := by
  rw [← h.imageSize_eq, hi]
  exact h'.within

theorem Within.remaining?_isSome (h : t.Within size) : t.remaining?.isSome = true := by
  have hle : t.offset ≤ t.imageSize := by
    rw [h.imageSize_eq]
    exact h.offset_le
  rw [remaining?, if_pos hle]
  rfl

end Transfer

/-- The progress that an effect tells of is of so many bytes, and within them. -/
def Effect.Measured (size : Nat) : Effect → Prop
  | .report (.progress p) | .report (.complete p) => p.imageSize = size ∧ p.transferred ≤ size
  | _ => True

/-- The share of an image that fits 32 bits can be told. -/
theorem Progress.percent?_isSome {p : Progress} {size : Nat} (hs : p.imageSize = size)
    (ht : p.transferred ≤ size) (hlt : size < 0x100000000) : p.percent?.isSome = true := by
  unfold percent?
  split_ifs with h0 hw
  · rfl
  · rfl
  · simp only [wordLimit] at hw
    omega

namespace Session

variable {s r : Session} {e : Event} {p q : Phase} {t : Turn} {size : Nat}

/-! ## One event -/

theorem measured_arrival (h : s.transfer.Within size) (p : Phase) :
    (s.arrive p).arrival.Measured size :=
  ⟨h.imageSize_eq, h.offset_le⟩

theorem measured_farewell (h : s.transfer.Within size) : ∀ x ∈ s.farewell, x.Measured size := by
  intro x hx
  rcases List.mem_append.mp hx with hx | hx
  · split at hx
    · rw [List.mem_singleton.mp hx]
      trivial
    · cases hx
  · rcases List.mem_cons.mp hx with rfl | hx
    · exact ⟨h.imageSize_eq, h.offset_le⟩
    · obtain ⟨signals, hs⟩ := s.closed.closingSignals_eq
      rw [hs] at hx
      obtain ⟨signal, -, rfl⟩ := List.mem_map.mp hx
      trivial

/-- The books and what is told of them once a turn is over. -/
def Tells (size : Nat) (t : Turn) : Prop :=
  t.session.transfer.Within size ∧ ∀ x ∈ t.effects, x.Measured size

theorem Tells.after {es : List Effect} (h : Tells size t) (hes : ∀ x ∈ es, x.Measured size) :
    Tells size (t.after es) :=
  ⟨h.1, List.forall_mem_append.mpr ⟨hes, h.2⟩⟩

/-- Whatever phase is entered, what is told on the way is read off books that stay within the
image. -/
theorem Halt.tells (hh : Halt s p t) (h : s.transfer.Within size) : Tells size t := by
  have hm := measured_arrival h p
  cases hh with
  | transfer hi hd pos ht =>
    refine ⟨h.of_books (by rw [ht]; rfl) (.flying pos ?_), ?_⟩
    · rw [Nat.zero_mul]
      exact Image.size_pos _
    · simpa [Effect.Measured] using hm
  | broken =>
    refine ⟨h, fun x hx => ?_⟩
    obtain ⟨c, -, rfl⟩ := List.mem_map.mp hx
    trivial
  | closed =>
    refine ⟨h, List.forall_mem_append.mpr ⟨fun x hx => ?_, measured_farewell h⟩⟩
    obtain ⟨c, -, rfl⟩ := List.mem_map.mp hx
    trivial
  | _ => exact ⟨h, by simpa [stay, Effect.Measured] using hm⟩

theorem Slip.tells (hs : Slip s p q r t) (h : s.transfer.Within size) :
    r.transfer.Within size ∧ ∀ x ∈ t.effects, x.Measured size := by
  have hm := measured_arrival h p
  cases hs with
  | noImage | noDevice => exact ⟨by simpa using h, by simpa [failTo] using hm⟩
  | skip | unlinked => exact ⟨h, by simpa [moveTo] using hm⟩

section sound

variable (hs : s.Sound) (h : s.transfer.Within size)

include hs h

/-- The acknowledgement of the chunk in flight leaves the books within the image. -/
theorem Sound.within_acknowledged (hp : s.phase = .dataTransfer) :
    s.acknowledged.transfer.Within size := by
  obtain ⟨image, hi⟩ := hs.imaged (by rw [hp]; rfl)
  obtain ⟨n, count, pos, lt, ht⟩ := hs.flying hp hi
  rw [transfer_acknowledged lt ht]
  exact h.of_books (by rw [ht]; rfl) (.acknowledge pos lt)

theorem Sound.measured_chunkReport (hp : s.phase = .dataTransfer) :
    ∀ x ∈ s.chunkReport, x.Measured size := by
  have hack := hs.within_acknowledged h hp
  unfold chunkReport
  split
  · exact List.forall_mem_nil _
  · exact List.forall_mem_singleton.mpr ⟨hack.imageSize_eq, hack.offset_le⟩

theorem Move.tells (hm : Move s e p r t) :
    r.transfer.Within size ∧ ∀ x ∈ t.effects, x.Measured size := by
  have nothing : ∀ x ∈ ([] : List Effect), x.Measured size := List.forall_mem_nil _
  cases hm with
  | advance ha =>
    cases ha with
    | connected =>
      exact ⟨⟨h.imageSize_eq, h.offset_le, h.chunksSent_le, h.finalizations_le⟩, nothing⟩
    | transferred hp =>
      refine ⟨hs.within_acknowledged h hp, ?_⟩
      simpa [moveTo] using hs.measured_chunkReport h hp
    | rebooted => exact ⟨h, List.forall_mem_singleton.mpr trivial⟩
    | gaveUp => exact ⟨by simpa [cancelTimer] using h, nothing⟩
    | _ => exact ⟨h, nothing⟩
  | failure ha =>
    refine ⟨?_, nothing⟩
    rw [transfer_recordError]
    cases ha <;> exact h

theorem Answer.tells (ha : Answer s e t) : Tells size t := by
  have silent {c : DeviceCall} : ∀ x ∈ [Effect.call c], x.Measured size :=
    List.forall_mem_singleton.mpr trivial
  cases ha with
  | rest => exact ⟨by simpa [stay] using h, by simp [stay]⟩
  | closing => exact ⟨by simpa using h, silent⟩
  | written | overflow => exact ⟨h, List.forall_mem_nil _⟩
  | asks => exact ⟨h, List.forall_mem_singleton.mpr trivial⟩
  | next hp hi hd pos ht lt =>
    have hnext := h.of_books (by rw [ht]; rfl) (.flying pos lt)
    exact Tells.after ⟨hnext, silent⟩ (hs.measured_chunkReport h hp)

/-- Whatever comes of an event, the books stay within the image and so does all that is told. -/
theorem Passage.tells {entries : List (Phase × Session)} (hp : Passage s e entries t) :
    Tells size t := by
  induction hp with
  | ended | stale => exact ⟨h, List.forall_mem_nil _⟩
  | rests ha => exact ha.tells hs h
  | enters hm _ hh =>
    obtain ⟨hr, htold⟩ := hm.tells hs h
    exact (hh.tells hr).after htold
  | slips hm _ hslip _ hh =>
    obtain ⟨hr, htold⟩ := hm.tells hs h
    obtain ⟨hr', htold'⟩ := hslip.tells hr
    exact ((hh.tells hr').after htold').after htold
  | expired hd _ _ ih =>
    exact (ih (hs.withTimer (hs.not_idle_of_due hd) _) h).after
      (List.forall_mem_singleton.mpr trivial)

end sound

/-! ## The timer -/

theorem Move.regular (hm : Move s e p r t) (h : s.timer.Regular) : r.timer.Regular := by
  cases hm with
  | advance ha =>
    rcases ha.timer with ht | ht
    · exact ht ▸ h
    · exact ht ▸ h.cancel
  | failure ha =>
    rw [timer_recordError]
    rcases ha.timer with ht | ht
    · exact ht ▸ h
    · exact ht ▸ h.cancel

theorem Halt.regular (hh : Halt s p t) (h : s.timer.Regular) : t.session.timer.Regular := by
  rw [hh.timer_eq, timer_arrive]
  exact h.arm _ _

theorem Slip.regular (hs : Slip s p q r t) (h : s.timer.Regular) : r.timer.Regular := by
  rw [hs.timer_eq, timer_arrive]
  exact h.arm _ _

theorem Answer.regular (ha : Answer s e t) (h : s.timer.Regular) : t.session.timer.Regular := by
  cases ha with
  | rest =>
    rw [stay, timer_noting]
    exact h
  | closing =>
    rw [session_ask, timer_recordError, timer_noting]
    exact h
  | written => exact h
  | asks | next => exact h.cancel.arm _ _
  | overflow => exact h.cancel

/-- The books of the timer stay in order, whoever shares the guard. -/
theorem Passage.regular {entries : List (Phase × Session)} (hp : Passage s e entries t)
    (h : s.timer.Regular) : t.session.timer.Regular := by
  induction hp with
  | ended | stale => exact h
  | rests ha => exact ha.regular h
  | enters hm _ hh => exact hh.regular (hm.regular h)
  | slips hm _ hs _ hh => exact hh.regular (hs.regular (hm.regular h))
  | expired hd _ _ ih => exact ih (h.fire (Timer.isSome_of_due hd))

/-- Each data write is counted once. -/
theorem Sound.chunksSent_handle (hs : s.Sound) (e : Event) :
    (s.handle e).session.transfer.chunksSent
      = s.transfer.chunksSent + (Trace.writes .data (s.handle e).effects).length := by
  rw [← Trace.writes_dealings]
  cases hs.deed e with
  | stays hp ht he hd | discovers hs hev hp ht he hd | notifies hs hp ht he hd
  | prepares hs hev hp ht he hd | starts hs hg hi hp ht he hd =>
    rw [ht, hd]
    rfl
  | connects hs hp ht he hd | reads hs hev hp ht he hd =>
    rw [ht]
    rcases hd with hd | hd <;> rw [hd] <;> rfl
  | transfers hs hg hi pos hst hp ht he hd | next hs hev hi pos lt hst hp ht he hd
  | verifies hs hev hi pos lt hall hst hp hw ht he hd =>
    rw [ht, hst, hd]
    rfl
  | finishes hs hev hp ht he hc => rw [ht, writes_of_finishes hc, List.length_nil, Nat.add_zero]
  | fails hp he ht ha hc => rw [ht, writes_data_of_fails hc, List.length_nil, Nat.add_zero]

/-! ## Lives -/

/-- The numbers of a session, and all that it has told of them, once it has lived through what
happened. -/
structure Bounded (size : Nat) (s : Session) (hs : List Happening) : Prop where
  within : (s.live hs).session.transfer.Within size
  measured : ∀ x ∈ (s.live hs).effects, x.Measured size
  regular : (s.live hs).session.timer.Regular
  scheduled_le : (s.live hs).session.timer.scheduled ≤ size + 10

theorem Sound.tells_live (h : s.Sound) (hw : s.transfer.Within size) (ht : s.timer.Regular)
    (hs : List Happening) : Tells size (s.live hs) ∧ (s.live hs).session.timer.Regular ∧
      (s.live hs).session.transfer.chunksSent
        = s.transfer.chunksSent + (Trace.writes .data (s.live hs).effects).length := by
  induction hs generalizing s with
  | nil => exact ⟨⟨hw, List.forall_mem_nil _⟩, ht, rfl⟩
  | cons x hs ih =>
    cases x with
    | guard guard => exact ih (h.withGuard guard) hw ht
    | event e =>
      have hpassage := passage_complete h e
      have htells := hpassage.tells h hw
      have hregular := hpassage.regular ht
      have hsent := h.chunksSent_handle e
      cases hx : (s.handle e).crash? with
      | some c =>
        rw [live_crash hx]
        exact ⟨htells, hregular, hsent⟩
      | none =>
        obtain ⟨hlater, hregular', hsent'⟩ := ih (h.handle e hx) htells.1 hregular
        rw [live_event hx]
        refine ⟨hlater.after htells.2, hregular', ?_⟩
        rw [Turn.session_after, Turn.effects_after, Trace.writes_append, List.length_append,
          ← Nat.add_assoc, ← hsent]
        exact hsent'

/-- Whatever an upgrade is told, and whoever shares its guard, its numbers stay within its image. -/
theorem bounded_live (config : Config) (mode : Mode) (image : Option Image)
    (device : Option Device) (collaborators : Collaborators) (guard : Guard)
    (hs : List Happening) :
    Bounded ((image.map Image.size).getD 0)
      (fresh config mode image device collaborators guard) hs := by
  have h := Sound.fresh config mode image device collaborators guard
  have hlive := h.tells_live (.start ((image.map Image.size).getD 0)) .start hs
  obtain ⟨⟨hwithin, hmeasured⟩, hregular, hsent⟩ := hlive
  refine ⟨hwithin, hmeasured, hregular, ?_⟩
  have hscheduled := (itinerary_live config mode image device collaborators guard hs).scheduled_le
  have hle := hwithin.chunksSent_le
  have hzero : (fresh config mode image device collaborators guard).transfer.chunksSent = 0 := rfl
  omega

end Session
end OtaUpgrade
