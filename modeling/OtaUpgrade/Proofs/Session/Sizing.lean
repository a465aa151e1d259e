import Mathlib
import OtaUpgrade.Proofs.Session.Failing
import OtaUpgrade.Proofs.Session.Itinerary
import OtaUpgrade.Proofs.Session.Unbroken

/-!
The size of chunks. It is settled once, when the link comes up, at what the settings leave room for
on the device (`Leaves`), so every chunk that a session ever writes is one of that size or the last,
shorter one. A session that finds no room goes from connecting to its end: it stays in the phases of
`Phase.offline`, in which nothing is written.
-/
namespace OtaUpgrade

/-- The phases in which the link is not up yet, or not any more. -/
def Phase.offline : List Phase := [.idle, .connect, .complete]

/-- From connecting there is one way on, and all others lead to the end. -/
theorem Phase.offline_of_successor {p q : Phase} (hp : p ∈ offline) (hq : q ∈ p.successors) :
    q = .serviceDiscover ∨ q ∈ offline := by
  have next : ∀ p ∈ offline, ∀ q ∈ p.successors, q = .serviceDiscover ∨ q ∈ offline := by decide
  exact next p hp q hq

/-- The bytes are a chunk of the image, with a byte at least. -/
def Image.Chunk (image : Image) (size : Nat) (bytes : Bytes) : Prop :=
  0 < size ∧ ∃ index, index * size < image.size ∧ bytes = image.chunk size index

theorem Image.Chunk.length {image : Image} {size : Nat} {bytes : Bytes}
    (h : image.Chunk size bytes) : 0 < bytes.length ∧ bytes.length ≤ size := by
  obtain ⟨pos, index, lt, rfl⟩ := h
  rw [length_chunk lt]
  omega

theorem Trace.mem_writes {channel : Characteristic} {es : List Effect} {bytes : Bytes} :
    bytes ∈ writes channel es ↔ .write channel bytes ∈ calls es := by
  have hwrites (call : DeviceCall) :
      call.payload? channel = some bytes ↔ call = .write channel bytes := by
    cases call with
    | write c data =>
      by_cases hc : c = channel <;> simp [DeviceCall.payload?, hc]
    | connect | disconnect | discover | enableNotifications | read => simp [DeviceCall.payload?]
  simp [writes, hwrites]

theorem Trace.Remarks.writes {es : List Effect} (h : Trace.Remarks es)
    (channel : Characteristic) : Trace.writes channel es = [] := by
  rw [Trace.writes, h.calls]
  rfl

namespace Session

open Episode

variable {s r : Session} {e : Event} {p q : Phase} {t : Turn} {d₀ : Device} {room : Nat}

/-- The session has no other device than this one, on which its settings leave this much room. -/
structure Leaves (d₀ : Device) (room : Nat) (s : Session) : Prop where
  device : ∀ d, s.device = some d → d = d₀
  room_eq : s.config.chunkSizeFor? d₀.mtu d₀.overhead = some room

theorem Leaves.chunkSizeFor? (h : s.Leaves d₀ room) {d : Device} (hd : s.device = some d) :
    s.config.chunkSizeFor? d.mtu d.overhead = some room := by
  rw [h.device d hd]
  exact h.room_eq

/-- Whatever the settings leave room for on the device that the session has, it is this much. -/
def Affords (room : Nat) (s : Session) : Prop :=
  ∀ d size, s.device = some d → s.config.chunkSizeFor? d.mtu d.overhead = some size → size = room

theorem Leaves.affords (h : s.Leaves d₀ room) : s.Affords room :=
  fun _ _ hd hs => Option.some.inj (hs.symm.trans (h.chunkSizeFor? hd))

theorem Affords.handle (h : s.Affords room) (hs : s.Sound) (e : Event) :
    (s.handle e).session.Affords room := by
  intro d size hd hsize
  rw [(hs.alike e).config] at hsize
  exact h d size (hs.device_handle e hd) hsize

theorem Leaves.handle (h : s.Leaves d₀ room) (hs : s.Sound) (e : Event) :
    (s.handle e).session.Leaves d₀ room where
  device d hd := h.device d (hs.device_handle e hd)
  room_eq := by
    rw [(hs.alike e).config]
    exact h.room_eq

/-! ## Settling the size -/

theorem Answer.chunkSize_eq (h : Answer s e t) :
    t.session.transfer.chunkSize = s.transfer.chunkSize := by
  cases h with
  | rest => simp [stay]
  | closing => simp
  | next _ _ _ _ ht =>
    rw [ht]
    rfl
  | _ => rfl

theorem Halt.chunkSize_eq (h : Halt s p t) :
    t.session.transfer.chunkSize = s.transfer.chunkSize := by
  cases h with
  | transfer _ _ _ ht =>
    rw [ht]
    rfl
  | _ => rfl

theorem Slip.chunkSize_eq (h : Slip s p q r t) :
    r.transfer.chunkSize = s.transfer.chunkSize := by
  cases h <;> simp

/-- The way on from connecting settles the size; no other does. -/
theorem Move.chunkSize (h : Move s e p r t) (hroom : s.Affords room) :
    r.transfer.chunkSize = s.transfer.chunkSize ∧ p ≠ .serviceDiscover ∨
      r.transfer.chunkSize = room ∧ 0 < room := by
  cases h with
  | advance ha =>
    cases ha with
    | connected _ hd hs pos =>
      obtain rfl := hroom _ _ hd hs
      exact .inr ⟨rfl, pos⟩
    | gaveUp => exact .inl ⟨by simp [cancelTimer], by decide⟩
    | _ => exact .inl ⟨rfl, by decide⟩
  | failure ha =>
    refine .inl ⟨?_, ?_⟩
    · rw [transfer_recordError, ha.kept.transfer]
    · rcases ha.gives_up with rfl | rfl <;> decide

theorem Passage.chunkSize {entries : List (Phase × Session)} (hp : Passage s e entries t)
    (hroom : s.Affords room) :
    t.session.transfer.chunkSize = s.transfer.chunkSize ∨
      t.session.transfer.chunkSize = room := by
  induction hp with
  | ended | stale => exact .inl rfl
  | rests ha => exact .inl ha.chunkSize_eq
  | enters hm _ hh =>
    rw [Turn.session_after, hh.chunkSize_eq]
    exact (hm.chunkSize hroom).imp And.left And.left
  | slips hm _ hs _ hh =>
    rw [Turn.session_after, Turn.session_after, hh.chunkSize_eq, hs.chunkSize_eq]
    exact (hm.chunkSize hroom).imp And.left And.left
  | expired _ _ _ ih => exact ih hroom

/-- Whatever is written to the data channel is a chunk of the size that was settled. -/
theorem Deed.chunk {s' : Session} {ds : List Effect} (h : Deed s e s' ds) {bytes : Bytes}
    (hb : bytes ∈ Trace.writes .data ds) :
    ∃ image, s.image = some image ∧ image.Chunk s.transfer.chunkSize bytes := by
  have silent (hd : Trace.writes .data ds = []) : False := by
    rw [hd] at hb
    cases hb
  cases h with
  | @transfers image size _ _ hi pos hst _ _ _ hd =>
    rw [hd] at hb
    obtain rfl := List.mem_singleton.mp hb
    refine ⟨_, hi, ?_⟩
    rw [hst]
    have lt : 0 * size < image.size := by
      rw [Nat.zero_mul]
      exact image.size_pos
    exact ⟨pos, 0, lt, rfl⟩
  | next _ _ hi pos lt hst _ _ _ hd =>
    rw [hd] at hb
    obtain rfl := List.mem_singleton.mp hb
    refine ⟨_, hi, ?_⟩
    rw [hst]
    exact ⟨pos, _, lt, rfl⟩
  | finishes _ _ _ _ _ hc => exact (silent (writes_of_finishes hc _)).elim
  | fails _ _ _ _ hc => exact (silent (writes_data_of_fails hc)).elim
  | connects _ _ _ _ hd | reads _ _ _ _ _ hd =>
    rcases hd with rfl | rfl <;> exact (silent rfl).elim
  | stays _ _ _ hd | discovers _ _ _ _ _ hd | notifies _ _ _ _ hd | prepares _ _ _ _ _ hd
  | starts _ _ _ _ _ _ hd | verifies _ _ _ _ _ _ _ _ _ _ _ hd =>
    subst hd
    exact (silent rfl).elim

/-! ## No room -/

/-- Where the link is not up nothing is written. -/
theorem Halt.offline (h : Halt s p t) (hp : p ∈ Phase.offline) (channel : Characteristic) :
    Trace.writes channel t.effects = [] := by
  cases h with
  | connecting | connect => rfl
  | broken =>
    apply writes_of_finishes
    rw [calls_map_call]
    exact s.calls_parting
  | closed =>
    apply writes_of_finishes
    simp only [stay, Trace.calls_append, calls_map_call, calls_farewell, List.append_nil]
    exact s.calls_parting
  | _ => exact absurd hp (by decide)

section noRoom

variable (hs : s.Sound) (hroom : s.Leaves d₀ 0) (hoff : s.phase ∈ Phase.offline)

include hoff

theorem Answer.offline (h : Answer s e t) :
    t.session.phase ∈ Phase.offline ∧ ∀ channel, Trace.writes channel t.effects = [] := by
  refine ⟨h.phase_eq ▸ hoff, fun channel => ?_⟩
  cases h with
  | rest | closing | written | asks | overflow => rfl
  | next hp =>
    rw [hp] at hoff
    exact absurd hoff (by decide)

include hs hroom

theorem Move.offline (h : Move s e p r t) : p ∈ Phase.offline := by
  rcases Phase.offline_of_successor hoff (h.edge hs) with rfl | hp
  · rcases h.chunkSize hroom.affords with ⟨-, hne⟩ | ⟨-, hlt⟩
    · exact absurd rfl hne
    · omega
  · exact hp

/-- Without room for a chunk the link is never taken further than to be up. -/
theorem Passage.offline {entries : List (Phase × Session)} (hp : Passage s e entries t) :
    t.session.phase ∈ Phase.offline ∧ ∀ channel, Trace.writes channel t.effects = [] := by
  induction hp with
  | ended | stale => exact ⟨hoff, fun _ => rfl⟩
  | rests ha => exact ha.offline hoff
  | enters hm _ hh =>
    have hp := hm.offline hs hroom hoff
    refine ⟨?_, fun channel => ?_⟩
    · rw [Turn.session_after, hh.phase_eq]
      exact hp
    · rw [Turn.effects_after, Trace.writes_append, hm.remarks.writes, hh.offline hp]
      rfl
  | slips hm _ hslip _ hh =>
    have hp := hm.offline hs hroom hoff
    have hq := (Phase.offline_of_successor hp hslip.edge.1).resolve_left (by cases hslip <;> decide)
    refine ⟨?_, fun channel => ?_⟩
    · rw [Turn.session_after, Turn.session_after, hh.phase_eq]
      exact hq
    · rw [Turn.effects_after, Turn.effects_after, Trace.writes_append, Trace.writes_append,
        hm.remarks.writes, hslip.remarks.writes, hh.offline hq]
      rfl
  | expired hd _ _ ih =>
    have hfired := ih (hs.withTimer (hs.not_idle_of_due hd) _) ⟨hroom.device, hroom.room_eq⟩ hoff
    refine ⟨hfired.1, fun channel => ?_⟩
    rw [Turn.effects_after, Trace.writes_append, hfired.2]
    rfl

end noRoom

/-- Without room for a chunk, the report that the link is up ends the upgrade. An error that was
recorded before stays the one reported. -/
theorem Sound.handle_noRoom (h : s.Sound) (hroom : s.Leaves d₀ 0) (hp : s.phase = .connect)
    {error : Option LinkError} (hc : (s.handle (.connection true error)).crash? = none) :
    (s.handle (.connection true error)).session.finished = true ∧
      (s.handle (.connection true error)).session.error
        = s.error.or (some ⟨.connect, .invalidMtu d₀.mtu⟩) := by
  have hu : s.phase.underWay = true := by
    rw [hp]
    rfl
  obtain ⟨d, hd⟩ := h.equipped hu
  have hf : s.finished = false := by
    rw [Bool.eq_false_iff, ne_eq, h.finished_iff, hp]
    decide
  have hfailure : Failure s (.connection true error) _ _ _ :=
    .mtu hp hd (hroom.chunkSizeFor? hd)
  have hbooks := (hfailure.poised h hf).books_complete
  rw [← hfailure.handle h hf] at hbooks
  have hsound := h.handle (.connection true error) hc
  refine ⟨hsound.finished_iff.mpr hbooks.1, ?_⟩
  obtain rfl := hroom.device d hd
  rw [hbooks.2.2, recordError_eq]
  show (s.error.orElse fun _ => some ⟨s.phase, _⟩) = _
  rw [hp]
  cases s.error <;> rfl

/-! ## Lives -/

/-- What a chronicle tells of the size of chunks. -/
structure Sized (d₀ : Device) (room : Nat) (c : List Episode) (s : Session) : Prop where
  sound : s.Sound
  leaves : s.Leaves d₀ room
  size : s.transfer.chunkSize = 0 ∨ s.transfer.chunkSize = room
  data : ∀ bytes ∈ Trace.writes .data (deeds c),
    ∃ image, s.image = some image ∧ image.Chunk room bytes
  noRoom : room = 0 →
    s.phase ∈ Phase.offline ∧ ∀ channel, Trace.writes channel (deeds c) = []

variable {c : List Episode}

theorem Sized.withGuard (h : Sized d₀ room c s) (guard : Guard) :
    Sized d₀ room c { s with guard } :=
  ⟨h.sound.withGuard guard, ⟨h.leaves.device, h.leaves.room_eq⟩, h.size, h.data, h.noRoom⟩

/-- One more event keeps to the size. -/
theorem Sized.episode (h : Sized d₀ room c s) (e : Event) (hc : (s.handle e).crash? = none) :
    Sized d₀ room (c ++ [s.episode e]) (s.handle e).session := by
  have hpassage := passage_complete h.sound e
  constructor
  case sound => exact h.sound.handle e hc
  case leaves => exact h.leaves.handle h.sound e
  case size =>
    rcases hpassage.chunkSize h.leaves.affords with hs | hs
    · rw [hs]
      exact h.size
    · exact .inr hs
  case data =>
    intro bytes hb
    rw [(h.sound.alike e).image]
    rw [writes_episode] at hb
    rcases List.mem_append.mp hb with hb | hb
    · exact h.data bytes hb
    · obtain ⟨image, hi, hchunk⟩ := (h.sound.deed e).chunk hb
      refine ⟨image, hi, ?_⟩
      rcases h.size with hs | hs
      · -- a chunk is only written once its size is known
        have hpos := hchunk.1
        omega
      · rwa [hs] at hchunk
  case noRoom =>
    rintro rfl
    obtain ⟨hoff, hnone⟩ := h.noRoom rfl
    obtain ⟨hoff', hnone'⟩ := hpassage.offline h.sound h.leaves hoff
    refine ⟨hoff', fun channel => ?_⟩
    rw [writes_episode, hnone, Trace.writes_dealings, hnone']
    rfl

/-- The account of the size holds all through a life. -/
theorem Sized.live (h : Sized d₀ room c s) (hs : List Happening)
    (hc : (s.live hs).crash? = none) :
    Sized d₀ room (c ++ s.chronicle hs) (s.live hs).session :=
  live_invariant (fun guard h => h.withGuard guard) (fun e h hx => h.episode e hx) h hs hc

theorem Sized.fresh {config : Config} {d₀ : Device} {room : Nat}
    (hroom : config.chunkSizeFor? d₀.mtu d₀.overhead = some room) (mode : Mode)
    (image : Option Image) (collaborators : Collaborators) (guard : Guard) :
    Sized d₀ room [] (fresh config mode image (some d₀) collaborators guard) where
  sound := .fresh ..
  leaves := ⟨fun _ hd => (Option.some.inj hd).symm, hroom⟩
  size := .inl rfl
  data := List.forall_mem_nil _
  noRoom _ := ⟨List.mem_cons_self, fun _ => rfl⟩

end Session
end OtaUpgrade
