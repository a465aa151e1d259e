import Mathlib
import OtaUpgrade.Proofs.Config.Room
import OtaUpgrade.Proofs.Session.Bounds
import OtaUpgrade.Proofs.Session.Breakdown
import OtaUpgrade.Proofs.Session.FirstError

/-!
A session never breaks down of itself, and never comes to the errors by which it would admit that
its own books are in disorder. What can break it down is a driver, or an overhead that does not fit
a word (`Sound.broke`); an upgrade keeps the device and the settings that it began with, so neither
comes up where it was excluded at the start.
-/
namespace OtaUpgrade

/-- An error against which a session guards, though nothing that it is told should lead there: no
device once connecting has begun, no checksum in verification, or nothing to send in the
transfer. -/
def UpgradeError.isInternal (e : UpgradeError) : Bool :=
  match e.cause with
  | .noDevice => e.phase != .connect
  | .invalidImage _ => true
  | .transferFailed _ _ reason =>
    reason ∈ ["no data left to send", "image missing", "device missing"]
  | _ => false

/-- The wording of a failure of a link begins with a capital. -/
theorem LinkError.head?_message (e : LinkError) :
    ∃ c ∈ ['C', 'N', 'D', 'W', 'R', 'T', 'L'], e.message.toList.head? = some c := by
  have begun {front : String} {c : Char} (h : front.toList.head? = some c) (rest : String) :
      (front ++ rest).toList.head? = some c := by
    rw [String.toList_append, List.head?_append, h]
    rfl
  cases e with
  | connectFailed reason => exact ⟨'C', by decide, begun (by decide) reason⟩
  | notConnected => exact ⟨'N', by decide, by decide⟩
  | disconnected => exact ⟨'D', by decide, by decide⟩
  | characteristicNotFound c => exact ⟨'C', by decide, begun (by decide) c.name⟩
  | writeFailed reason => exact ⟨'W', by decide, begun (by decide) reason⟩
  | readFailed reason => exact ⟨'R', by decide, begun (by decide) reason⟩
  | crypto reason => exact ⟨'T', by decide, begun (by decide) reason⟩
  | linkClosed => exact ⟨'L', by decide, by decide⟩
  | timeout ms => exact ⟨'T', by decide, begun (begun (by decide) (toString ms)) "ms"⟩

/-- No failure of a link is worded like an internal error. -/
theorem LinkError.message_external (e : LinkError) :
    e.message ∉ ["no data left to send", "image missing", "device missing"] := by
  obtain ⟨c, hc, hhead⟩ := e.head?_message
  have small : ∀ text ∈ ["no data left to send", "image missing", "device missing"],
      text.toList.head? ∉ ['C', 'N', 'D', 'W', 'R', 'T', 'L'].map some := by decide
  intro h
  apply small _ h
  rw [hhead]
  exact List.mem_map_of_mem hc

namespace Session

variable {s r : Session} {e : Event} {p q : Phase} {t : Turn}

/-! ## Errors -/

theorem isInternal_abortCause (p : Phase) (dfu : Bool) :
    (⟨p, abortCause dfu⟩ : UpgradeError).isInternal = false := by
  cases dfu <;> rfl

/-- Whatever an event fails by is no internal error. -/
theorem Failure.not_isInternal {cause : Cause} (h : Failure s e r cause p) (q : Phase) :
    (⟨q, cause⟩ : UpgradeError).isInternal = false := by
  cases h with
  | unconnected =>
    unfold connectCause
    split
    · rfl
    · split <;> rfl
  | silent =>
    unfold notificationsCause
    split
    · rfl
    · split <;> rfl
  | unwritten =>
    unfold writeCause
    split <;> rfl
  | @chunk error => simpa [UpgradeError.isInternal] using error.message_external
  | stopped | stoppedDownload => exact isInternal_abortCause q _
  | _ => rfl

/-- Going on within a phase, or resting there, is no mishap. -/
theorem mishap?_of_reach (h : t.reaction.reach = 0) : t.mishap? = none := by
  unfold Turn.mishap?
  rcases Reaction.eq_of_reach h with hr | ⟨c, hr⟩ <;> rw [hr]

theorem Slip.not_isInternal (h : Slip s p q r t) :
    ∀ m ∈ t.mishap?, m.error.isInternal = false := by
  intro m hm
  cases h with
  | noImage | noDevice =>
    cases hm
    rfl
  | skip | unlinked => cases hm

theorem Poised.not_isInternal (h : s.Poised p) :
    ∀ m ∈ (s.enter p).mishap?, m.error.isInternal = false := by
  have hentrance := entrance_complete h
  generalize s.enter p = t at hentrance
  cases hentrance with
  | halts hh => simp [mishap?_of_reach hh.reach]
  | slips hs => exact hs.not_isInternal

theorem Response.not_isInternal (h : Response s e t) :
    ∀ m ∈ t.mishap?, m.error.isInternal = false := by
  cases h with
  | answer ha => simp [mishap?_of_reach ha.reach]
  | advance ha =>
    intro m hm
    cases hm
  | failure ha =>
    intro m hm
    cases hm
    exact ha.not_isInternal _

/-- Nothing that goes wrong over an event is an internal error. -/
theorem Sound.not_isInternal_mishaps (h : s.Sound) (e : Event) :
    ∀ m ∈ s.mishaps e, m.error.isInternal = false := by
  have hpoised := (passage_complete h e).poised
  have hstopped : ∀ m ∈ s.stopped? e, m.error.isInternal = false := by
    intro m hm
    cases e with
    | abort dfu =>
      simp only [stopped?, Option.mem_def, Option.ite_none_right_eq_some] at hm
      rw [← Option.some.inj hm.2]
      exact isInternal_abortCause _ dfu
    | _ => cases hm
  have hdispatch : ∀ m ∈ (s.dispatch e).mishap?, m.error.isInternal = false := by
    cases hf : s.finished with
    | true =>
      rw [show s.dispatch e = s.stay from if_pos hf]
      intro m hm
      cases hm
    | false =>
      have hd := dispatch_complete h hf e
      generalize s.dispatch e = t at hd
      cases hd with
      | response _ hr => exact hr.not_isInternal
      | stale =>
        intro m hm
        cases hm
      | expired _ _ hr => exact hr.not_isInternal
  intro m hm
  rcases List.mem_append.mp hm with hm | hm
  · exact hstopped m (Option.mem_toList.mp hm)
  · obtain ⟨t, ht, hm⟩ := List.mem_filterMap.mp hm
    rcases List.mem_cons.mp ht with rfl | ht
    · exact hdispatch m hm
    · obtain ⟨x, hx, rfl⟩ := List.mem_map.mp ht
      exact (hpoised x hx).not_isInternal m hm

theorem Sound.not_isInternal_mishapsOver (h : s.Sound) (hs : List Happening) :
    ∀ m ∈ s.mishapsOver hs, m.error.isInternal = false := by
  induction hs generalizing s with
  | nil => exact List.forall_mem_nil _
  | cons x hs ih =>
    cases x with
    | guard guard => exact ih (h.withGuard guard)
    | event e =>
      refine List.forall_mem_append.mpr ⟨h.not_isInternal_mishaps e, ?_⟩
      cases hx : (s.handle e).crash? with
      | some c =>
        rw [Turn.reaction_of_crash? hx]
        exact List.forall_mem_nil _
      | none =>
        split
        · exact List.forall_mem_nil _
        · exact ih (h.handle e hx)

/-! ## Breaking down -/

/-- Nothing that could break the session down: no driver does, and the overhead fits a word. -/
def Reliable (s : Session) : Prop :=
  ∀ d, s.device = some d → d.breaksOn = [] ∧ s.config.attOverhead + d.overhead < wordLimit

/-- An upgrade keeps its device until it lets it go. -/
theorem Sound.device_handle (h : s.Sound) (e : Event) {d : Device}
    (hd : (s.handle e).session.device = some d) : s.device = some d := by
  cases hf : s.finished with
  | true => rwa [handle_of_finished hf] at hd
  | false =>
    cases (passage_complete h e).outcome hf with
    | goesOn hk => rwa [hk.device] at hd
    | ends _ _ _ ht =>
      rw [ht] at hd
      cases hd

theorem Reliable.handle (hr : s.Reliable) (h : s.Sound) (e : Event) :
    (s.handle e).session.Reliable := by
  intro d hd
  rw [(h.alike e).config]
  exact hr d (h.device_handle e hd)

theorem Reliable.crash?_handle (hr : s.Reliable) (h : s.Sound) (e : Event) :
    (s.handle e).crash? = none := by
  cases hc : (s.handle e).crash? with
  | none => rfl
  | some c =>
    have hr' := hr.handle h e
    cases h.broke hc with
    | driver hd hb =>
      rw [(hr' _ hd).1] at hb
      cases hb
    | size hd hs =>
      unfold Config.chunkSizeFor? at hs
      split at hs
      · cases hs
      · rw [if_pos (hr' _ hd).2] at hs
        cases hs

theorem Reliable.crash?_live (hr : s.Reliable) (h : s.Sound) (hs : List Happening) :
    (s.live hs).crash? = none := by
  induction hs generalizing s with
  | nil => rfl
  | cons x hs ih =>
    cases x with
    | guard guard => exact ih (s := { s with guard }) hr (h.withGuard guard)
    | event e =>
      have hx := hr.crash?_handle h e
      rw [live_event hx]
      exact ih (hr.handle h e) (h.handle e hx)

/-! ## Lives -/

/-- A session that is in order after all that has happened to it. -/
structure Unbroken (s : Session) (hs : List Happening) : Prop where
  crash : (s.live hs).crash? = none
  remaining : (s.live hs).session.transfer.remaining?.isSome = true
  transfer : (s.live hs).session.transfer.offset < wordLimit ∧
    (s.live hs).session.transfer.chunksSent < wordLimit ∧
    (s.live hs).session.transfer.finalizations < wordLimit
  timer : (s.live hs).session.timer.lastId < wordLimit ∧
    (s.live hs).session.timer.scheduled < wordLimit ∧
    (s.live hs).session.timer.cancelled < wordLimit ∧
    (s.live hs).session.timer.fired < wordLimit
  percent : ∀ p, .report (.progress p) ∈ (s.live hs).effects ∨
    .report (.complete p) ∈ (s.live hs).effects → p.percent?.isSome = true
  /-- Nothing that went wrong, noticed or not, is an internal error. -/
  external : ∀ m ∈ s.mishapsOver hs, m.error.isInternal = false
  error : ∀ x, (s.live hs).session.error = some x → x.isInternal = false

/-- Whatever an upgrade is told, and whoever shares its guard, it does not break down unless the
driver of its device does or the overhead does not fit a word, and its own books never fail it.
Settings from a file leave room for the overhead of every route. -/
theorem unbroken_live (config : Config) (mode : Mode) (image : Option Image)
    (device : Option Device) (collaborators : Collaborators) (guard : Guard)
    (hdriver : ∀ d, device = some d → d.breaksOn = [])
    (hroom : ∀ d, device = some d → config.attOverhead + d.overhead < wordLimit)
    (hs : List Happening) :
    Unbroken (fresh config mode image device collaborators guard) hs ∧
      ∀ (files : Files) (path : String) (loaded : Config) (carriage : Carriage),
        Config.load files path = .ok loaded →
          loaded.attOverhead + carriage.overhead < wordLimit := by
  refine ⟨?_, fun _ _ _ carriage hload => Config.room_of_load hload carriage⟩
  have h := Sound.fresh config mode image device collaborators guard
  have hreliable : (fresh config mode image device collaborators guard).Reliable :=
    fun d hd => ⟨hdriver d hd, hroom d hd⟩
  have hnone : (fresh config mode image device collaborators guard).error = none := rfl
  obtain ⟨hwithin, hmeasured, hregular, hscheduled⟩ :=
    bounded_live config mode image device collaborators guard hs
  have hsize : (image.map Image.size).getD 0 < 0x100000000 := by
    cases image with
    | none => decide
    | some image => exact image.size_lt
  have hexternal := h.not_isInternal_mishapsOver hs
  constructor
  case crash => exact hreliable.crash?_live h hs
  case remaining => exact hwithin.remaining?_isSome
  case transfer =>
    have hoffset := hwithin.offset_le
    have hchunks := hwithin.chunksSent_le
    have hfinal := hwithin.finalizations_le
    simp only [wordLimit]
    omega
  case timer =>
    have hlast := hregular.numbered
    have hbalanced := hregular.balanced
    unfold Timer.Balanced at hbalanced
    simp only [wordLimit]
    omega
  case percent =>
    rintro p (hp | hp)
    · obtain ⟨himage, htransferred⟩ := hmeasured _ hp
      exact Progress.percent?_isSome himage htransferred hsize
    · obtain ⟨himage, htransferred⟩ := hmeasured _ hp
      exact Progress.percent?_isSome himage htransferred hsize
  case external => exact hexternal
  case error =>
    intro x hx
    rw [h.error_live hs, hnone, Option.none_or] at hx
    obtain ⟨m, hm, rfl⟩ := Option.map_eq_some_iff.mp hx
    exact hexternal m (List.mem_of_head? hm)

/-- An upgrade that is stopped once it is connected, and told so again when the link is down. -/
theorem unbroken_stopped :
    let config : Config := {}
    let device : Device := { name := "node" }
    let image : Image := ⟨#[7, 8], by decide, by decide⟩
    let hs : List Happening :=
      [.event .start, .event (.connection true none), .guard { connection := true },
        .event (.abort false), .event (.connection false none), .event (.abort true)]
    (∀ d, some device = some d → d.breaksOn = []) ∧
      (∀ d, some device = some d → config.attOverhead + d.overhead < wordLimit) ∧
      Unbroken (fresh config .direct (some image) (some device) {} {}) hs := by
  intro config device image hs
  have hdriver : ∀ d, some device = some d → d.breaksOn = [] := by
    rintro d ⟨⟩
    rfl
  have hroom : ∀ d, some device = some d → config.attOverhead + d.overhead < wordLimit := by
    rintro d ⟨⟩
    decide
  have hlive := unbroken_live config .direct (some image) (some device) {} {} hdriver hroom hs
  exact ⟨hdriver, hroom, hlive.1⟩

end Session
end OtaUpgrade
