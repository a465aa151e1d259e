import Mathlib
import OtaUpgrade.Proofs.Session.Proceed

/-!
What holds of a session between two events, whoever shares its guard: what it waits for belongs to
its phase, an upgrade under way has an image and a device, and the books of the transfer stand where
the phase says. Nothing here speaks of the timeout or of the guard, since another session may have
taken an answer off the guard in the meantime.
-/
namespace OtaUpgrade

namespace Phase

/-- A session in this phase can be waiting so. -/
def awaits : Phase → Wait → Bool
  | .readAppInfo, .appInfo | .readAppInfo, .meshMetadata => true
  | .prepareForDownload, .write | .prepareForDownload, .response => true
  | .startDownload, .write | .startDownload, .response => true
  | .verify, .write | .verify, .response => true
  | .abort, .write | .abort, .response => true
  | .dataTransfer, .chunkAck => true
  | .idle, .nothing | .connect, .nothing | .serviceDiscover, .nothing => true
  | .enableNotification, .nothing | .complete, .nothing => true
  | _, _ => false

/-- The upgrade is under way. -/
def underWay (p : Phase) : Bool :=
  p != idle && p != complete

theorem underWay_of_ne {p : Phase} (hi : p ≠ idle) (hc : p ≠ complete) : p.underWay = true := by
  simp [underWay, hi, hc]

/-- Under way and not in a download means before it, unless the upgrade is given up already. -/
theorem isBeforeDownload_of_not_canAbort {p : Phase} (hu : p.underWay = true) (ha : p ≠ abort)
    (hn : p.canAbort = false) : p.isBeforeDownload = true := by
  cases p with
  | abort => exact absurd rfl ha
  | prepareForDownload | startDownload | dataTransfer | verify => cases hn
  | idle | complete => cases hu
  | connect | serviceDiscover | readAppInfo | enableNotification => rfl

end Phase

namespace Transfer

/-- The books of a transfer in each phase. Between connecting and the transfer nothing is sent, in
verification everything is acknowledged, and an upgrade that ends or is given up keeps what it
has. -/
def Stands (image : Image) (t : Transfer) : Phase → Prop
  | .idle | .connect => t = after image 0 0 0
  | .dataTransfer =>
    ∃ size count, 0 < size ∧ count * size < image.size ∧ t = after image size count (count + 1)
  | .verify =>
    ∃ size count, 0 < size ∧ count * size < image.size ∧
      image.covered size (count + 1) = image.size ∧ t = after image size (count + 1) (count + 1)
  | .abort | .complete => Books image t
  | _ => ∃ size, 0 < size ∧ t = after image size 0 0

theorem Stands.books {image : Image} {t : Transfer} {p : Phase} (h : Stands image t p) :
    Books image t := by
  cases p with
  | idle | connect => exact h ▸ .zero image 0
  | dataTransfer =>
    obtain ⟨size, count, pos, lt, rfl⟩ := h
    exact .flying pos lt
  | verify =>
    obtain ⟨size, count, pos, lt, -, rfl⟩ := h
    exact .acknowledge pos lt
  | abort | complete => exact h
  | serviceDiscover | readAppInfo | enableNotification | prepareForDownload | startDownload =>
    obtain ⟨size, -, rfl⟩ := h
    exact .zero image size

/-- In verification the checksum is final. -/
theorem Stands.crc_final {image : Image} {t : Transfer} (h : Stands image t .verify) :
    t.crc.final = some image.crc := by
  obtain ⟨size, count, -, -, hall, rfl⟩ := h
  simp [after, hall]

end Transfer

namespace Session

/-- A phase with a command of its own is under way, and its command may be left to an indication. -/
theorem underWay_of_command {p : Phase} (h : (commandOf? p).isSome = true) :
    p.underWay = true ∧ p.awaits .response = true := by
  cases p <;> first | exact ⟨rfl, rfl⟩ | cases h

/-- What holds of a session between two events. -/
structure Sound (s : Session) : Prop where
  awaits : s.phase.awaits s.wait = true
  finished_iff : s.finished = true ↔ s.phase = .complete
  idle : s.phase = .idle → s.running = false ∧ s.connected = false ∧ s.timer.armed = none
  imaged : s.phase.underWay = true → ∃ image, s.image = some image
  equipped : s.phase.underWay = true → ∃ d, s.device = some d
  stands : ∀ image, s.image = some image → s.transfer.Stands image s.phase
  abort : s.phase = .abort → s.error.isSome = true

theorem Sound.fresh (config : Config) (mode : Mode) (image : Option Image)
    (device : Option Device) (collaborators : Collaborators) (guard : Guard) :
    (fresh config mode image device collaborators guard).Sound where
  awaits := rfl
  finished_iff := ⟨nofun, nofun⟩
  idle _ := ⟨rfl, rfl, rfl⟩
  imaged := nofun
  equipped := nofun
  stands i hi := by
    have hi : image = some i := hi
    subst hi
    exact (Transfer.after_zero i).symm
  abort := nofun

section

variable {s : Session} (h : s.Sound)

include h

/-- Others may do with the guard what they like. -/
theorem Sound.withGuard (guard : Guard) : ({ s with guard } : Session).Sound :=
  ⟨h.awaits, h.finished_iff, h.idle, h.imaged, h.equipped, h.stands, h.abort⟩

theorem Sound.not_complete (hf : s.finished = false) : s.phase ≠ .complete := by
  intro hp
  rw [h.finished_iff.mpr hp] at hf
  cases hf

theorem Sound.unfinished (hp : s.phase ≠ .complete) : s.finished = false := by
  cases hf : s.finished with
  | false => rfl
  | true => exact absurd (h.finished_iff.mp hf) hp

theorem Sound.phase_of_appInfo (hw : s.wait = .appInfo) : s.phase = .readAppInfo := by
  have := h.awaits
  rw [hw] at this
  cases hp : s.phase <;> simp_all [Phase.awaits]

theorem Sound.phase_of_meshMetadata (hw : s.wait = .meshMetadata) : s.phase = .readAppInfo := by
  have := h.awaits
  rw [hw] at this
  cases hp : s.phase <;> simp_all [Phase.awaits]

theorem Sound.chunkAck_iff : s.wait = .chunkAck ↔ s.phase = .dataTransfer := by
  have := h.awaits
  constructor
  · intro hw
    rw [hw] at this
    cases hp : s.phase <;> simp_all [Phase.awaits]
  · intro hp
    rw [hp] at this
    cases hw : s.wait <;> simp_all [Phase.awaits]

/-- In the transfer the books say what is in flight. -/
theorem Sound.flying (hp : s.phase = .dataTransfer) {image : Image} (hi : s.image = some image) :
    ∃ size count, 0 < size ∧ count * size < image.size ∧
      s.transfer = .after image size count (count + 1) := by
  have hst := h.stands image hi
  rwa [hp] at hst

/-- A phase that sends a command has it in hand to its end. -/
theorem Sound.commandInHand?_eq : s.commandInHand? = commandOf? s.phase := by
  have := h.awaits
  unfold commandInHand?
  cases hp : s.phase <;> cases hw : s.wait <;> simp_all [Phase.awaits, commandOf?]

end

end Session
end OtaUpgrade
