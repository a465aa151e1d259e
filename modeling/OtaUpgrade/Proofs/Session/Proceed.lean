import Mathlib
import OtaUpgrade.Proofs.Session.Books
import OtaUpgrade.Session.Handle

/-!
Entering a phase and following on until the session waits. `arrive` is the session on entering,
`proceed` the turn that comes of following on; for each phase one equation says what entering it is,
so that no other proof opens the phases' actions.
-/
namespace OtaUpgrade

namespace Turn

variable (t : Turn) (as bs : List Effect)

@[simp] theorem session_after : (t.after as).session = t.session := rfl

@[simp] theorem effects_after : (t.after as).effects = as ++ t.effects := rfl

@[simp] theorem reaction_after : (t.after as).reaction = t.reaction := rfl

@[simp] theorem crash?_after : (t.after as).crash? = t.crash? := rfl

@[simp] theorem after_nil : t.after [] = t := rfl

theorem after_after : (t.after bs).after as = t.after (as ++ bs) := by
  simp [Turn.after]

variable {t}

theorem reaction_of_crash? {c : Crash} (h : t.crash? = some c) : t.reaction = .crash c := by
  unfold crash? at h
  split at h
  · next hr => rw [hr, Option.some.inj h]
  · cases h

theorem reaction_ne_crash (h : t.crash? = none) (c : Crash) : t.reaction ≠ .crash c := by
  intro hr
  simp [crash?, hr] at h

end Turn

namespace Timer

theorem cancel_of_unarmed {t : Timer} (h : t.armed = none) : t.cancel = t := by
  unfold cancel
  rw [h]

@[simp] theorem cancel_cancel (t : Timer) : t.cancel.cancel = t.cancel :=
  cancel_of_unarmed (armed_cancel t)

@[simp] theorem arm_cancel (t : Timer) (timeouts : Timeouts) (p : Phase) :
    t.cancel.arm timeouts p = t.arm timeouts p := by
  unfold arm
  rw [cancel_cancel]

@[simp] theorem arm_complete (t : Timer) (timeouts : Timeouts) :
    t.arm timeouts .complete = t.cancel := rfl

end Timer

namespace Session

@[simp] theorem session_ask (s : Session) (d : Device) (c : DeviceCall) :
    (s.ask d c).session = s := rfl

@[simp] theorem effects_ask (s : Session) (d : Device) (c : DeviceCall) :
    (s.ask d c).effects = [.call c] := rfl

/-- The session on entering a phase, before the phase's action. -/
def arrive (s : Session) (p : Phase) : Session :=
  ((s.cancelTimer).goto p).armTimer

/-- What observers are told on entering a phase. -/
def arrival (s : Session) : Effect :=
  .report (.progress s.progress)

/-- Enters a phase and follows on until the session waits or has broken down. -/
def proceed (s : Session) (p : Phase) : Turn :=
  settle (s.enter p)

/-- The address to ask the mesh core about, if it can be asked now. -/
def askable? (s : Session) : Option UInt16 :=
  if s.collaborators.meshCore && !s.guard.has .componentMetadata then
    s.device.bind Device.nodeAddress?
  else none

/-- The session once its end is reported. -/
def closed (s : Session) : Session :=
  { s.arrive .complete with
    device := none
    running := false
    connected := false
    guard := {}
    finished := true }

/-- The calls with which the device is let go. -/
def parting (s : Session) : List DeviceCall :=
  if s.connected && s.device.isSome then [.disconnect] else []

/-- The device's driver breaks down over being let go. -/
def breaksOnParting (s : Session) : Bool :=
  s.connected && s.device.any fun d => DeviceCall.disconnect ∈ d.breaksOn

/-- What comes after the parting calls. -/
def farewell (s : Session) : List Effect :=
  (if s.device.isSome then [.release] else [])
    ++ .report (.complete s.closed.progress) :: s.closed.closingSignals

/-! ## Arriving -/

section arrive

variable (s : Session) (p : Phase)

@[simp] theorem phase_arrive : (s.arrive p).phase = p := rfl
@[simp] theorem wait_arrive : (s.arrive p).wait = .nothing := rfl
@[simp] theorem config_arrive : (s.arrive p).config = s.config := rfl
@[simp] theorem mode_arrive : (s.arrive p).mode = s.mode := rfl
@[simp] theorem image_arrive : (s.arrive p).image = s.image := rfl
@[simp] theorem collaborators_arrive : (s.arrive p).collaborators = s.collaborators := rfl
@[simp] theorem device_arrive : (s.arrive p).device = s.device := rfl
@[simp] theorem transfer_arrive : (s.arrive p).transfer = s.transfer := rfl
@[simp] theorem guard_arrive : (s.arrive p).guard = s.guard := rfl
@[simp] theorem error_arrive : (s.arrive p).error = s.error := rfl
@[simp] theorem running_arrive : (s.arrive p).running = s.running := rfl
@[simp] theorem connected_arrive : (s.arrive p).connected = s.connected := rfl
@[simp] theorem variant_arrive : (s.arrive p).variant = s.variant := rfl
@[simp] theorem finished_arrive : (s.arrive p).finished = s.finished := rfl

@[simp] theorem timer_arrive : (s.arrive p).timer = s.timer.arm s.config.timeouts p := by
  show s.timer.cancel.arm s.config.timeouts p = _
  rw [Timer.arm_cancel]

@[simp] theorem askable?_arrive : (s.arrive p).askable? = s.askable? := rfl

end arrive

section recordError

variable (s : Session) (cause : Cause)

/-- Only the error can change when one is recorded. -/
theorem recordError_eq : s.recordError cause
    = { s with error := (s.error.orElse fun _ => some ⟨s.phase, cause⟩) } := by
  unfold recordError
  cases he : s.error with
  | none => simp
  | some e =>
    rw [Option.isSome_some, if_pos rfl, Option.orElse_some, ← he]

@[simp] theorem error_recordError_isSome : (s.recordError cause).error.isSome = true := by
  rw [recordError_eq]
  cases s.error <;> rfl

@[simp] theorem config_recordError : (s.recordError cause).config = s.config := by
  rw [recordError_eq]

@[simp] theorem mode_recordError : (s.recordError cause).mode = s.mode := by
  rw [recordError_eq]

@[simp] theorem image_recordError : (s.recordError cause).image = s.image := by
  rw [recordError_eq]

@[simp] theorem device_recordError : (s.recordError cause).device = s.device := by
  rw [recordError_eq]

@[simp] theorem phase_recordError : (s.recordError cause).phase = s.phase := by
  rw [recordError_eq]

@[simp] theorem wait_recordError : (s.recordError cause).wait = s.wait := by
  rw [recordError_eq]

@[simp] theorem timer_recordError : (s.recordError cause).timer = s.timer := by
  rw [recordError_eq]

@[simp] theorem transfer_recordError : (s.recordError cause).transfer = s.transfer := by
  rw [recordError_eq]

@[simp] theorem guard_recordError : (s.recordError cause).guard = s.guard := by
  rw [recordError_eq]

@[simp] theorem running_recordError : (s.recordError cause).running = s.running := by
  rw [recordError_eq]

@[simp] theorem connected_recordError : (s.recordError cause).connected = s.connected := by
  rw [recordError_eq]

@[simp] theorem variant_recordError : (s.recordError cause).variant = s.variant := by
  rw [recordError_eq]

@[simp] theorem finished_recordError : (s.recordError cause).finished = s.finished := by
  rw [recordError_eq]

end recordError

@[simp] theorem transfer_closed (s : Session) : s.closed.transfer = s.transfer := rfl
@[simp] theorem error_closed (s : Session) : s.closed.error = s.error := rfl
@[simp] theorem phase_closed (s : Session) : s.closed.phase = .complete := rfl

/-- Arriving at the end leaves no timeout to give up. -/
theorem cancelTimer_arrive_complete (s : Session) :
    (s.arrive .complete).cancelTimer = s.arrive .complete := by
  have h : (s.arrive .complete).timer.cancel = (s.arrive .complete).timer := by simp
  unfold cancelTimer
  rw [h]

/-! ## Settling -/

theorem settle_of_reach {t : Turn} (h : t.reaction.reach = 0) : settle t = t := by
  rw [settle, h]
  rfl

theorem follow_after (depth : Nat) (t : Turn) (es : List Effect) :
    follow depth (t.after es) = (follow depth t).after es := by
  -- on the depth: each phase entered only puts its own effects in front
  induction depth generalizing t with
  | zero => rfl
  | succ depth ih =>
    have hafter : (t.after es).departure? = t.departure? := rfl
    cases hd : t.departure? with
    | none => rw [follow_of_rest hd, follow_of_rest (hafter.trans hd)]
    | some x =>
      obtain ⟨p, s⟩ := x
      rw [follow_of_departure hd, follow_of_departure (hafter.trans hd), Turn.effects_after,
        ← Turn.after_after, ih]

theorem settle_after (t : Turn) (es : List Effect) : settle (t.after es) = (settle t).after es :=
  follow_after _ _ _

theorem settle_moveTo (s : Session) (p : Phase) : settle (s.moveTo p) = s.proceed p :=
  settle_of_enter rfl

theorem settle_failTo (s : Session) (cause : Cause) (p : Phase) :
    settle (s.failTo cause p) = (s.recordError cause).proceed p :=
  settle_of_fail rfl

theorem settle_stay (s : Session) (es : List Effect) : settle (s.stay es) = s.stay es :=
  settle_of_stay rfl

theorem settle_ask (s : Session) (d : Device) (c : DeviceCall) :
    settle (s.ask d c) = s.ask d c :=
  settle_of_reach (reach_ask s d c)

/-- A phase is entered by arriving there, being reported there, and its action. -/
theorem enter_eq {s : Session} {p : Phase} (hp : p ≠ .complete) {t : Turn}
    (h : (s.arrive p).entryAction p = t) : s.enter p = t.after [(s.arrive p).arrival] := by
  show Turn.after _ (if p = .complete then [] else _) = _
  rw [if_neg hp, ← h]
  rfl

/-! ## The phases -/

section phases

variable {s : Session} {d : Device}

theorem withDevice_some (h : s.device = some d) (action : Device → Turn) :
    s.withDevice action = action d := by
  unfold withDevice
  rw [h]

/-- A connection that someone else has requested is waited for. -/
theorem enter_connect_busy {image : Image} (hi : s.image = some image) (hd : s.device = some d)
    (hg : s.guard.has .connection = true) :
    s.enter .connect = (s.arrive .connect).stay [(s.arrive .connect).arrival] := by
  have h : (s.arrive .connect).entryAction .connect = (s.arrive .connect).stay := by
    simp only [entryAction, enterConnect, image_arrive, hi]
    rw [withDevice_some (by simpa using hd)]
    simp [hg]
  exact enter_eq (by decide) h

theorem enter_connect {image : Image} (hi : s.image = some image) (hd : s.device = some d)
    (hg : s.guard.has .connection = false) :
    s.enter .connect
      = (({ s.arrive .connect with guard := s.guard.begin .connection } : Session).ask d
          .connect).after [(s.arrive .connect).arrival, .bind] := by
  have h : (s.arrive .connect).entryAction .connect
      = (({ s.arrive .connect with guard := s.guard.begin .connection } : Session).ask d
          .connect).after [.bind] := by
    simp only [entryAction, enterConnect, image_arrive, hi]
    rw [withDevice_some (by simpa using hd)]
    simp [hg]
  rw [enter_eq (by decide) h, Turn.after_after]
  rfl

theorem enter_connect_noImage (hi : s.image = none) :
    s.enter .connect
      = ((s.arrive .connect).failTo .noImage .complete).after [(s.arrive .connect).arrival] :=
  enter_eq (by decide) (by simp [entryAction, enterConnect, hi])

theorem enter_connect_noDevice {image : Image} (hi : s.image = some image)
    (hd : s.device = none) :
    s.enter .connect
      = ((s.arrive .connect).failTo .noDevice .complete).after [(s.arrive .connect).arrival] :=
  enter_eq (by decide) (by simp [entryAction, enterConnect, withDevice, hi, hd])

theorem enter_serviceDiscover (hd : s.device = some d) :
    s.enter .serviceDiscover
      = ((s.arrive .serviceDiscover).ask d .discover).after
          [(s.arrive .serviceDiscover).arrival] :=
  enter_eq (by decide) (withDevice_some (by simpa using hd) _)

/-- Where the mesh core cannot be asked the metadata are done without. -/
theorem askMeshCore_of_none (ha : s.askable? = none) (rearm : Bool) :
    s.askMeshCore rearm = s.moveTo .enableNotification := by
  unfold askMeshCore
  unfold askable? at ha
  split
  · rfl
  · rename_i address hn
    rw [hn] at ha
    split at ha
    · cases ha
    · rename_i hg
      rw [if_neg hg]

theorem askMeshCore_of_some {address : UInt16} (ha : s.askable? = some address) (rearm : Bool) :
    s.askMeshCore rearm
      = ({ (if rearm then s.armTimer else s) with
            guard := s.guard.begin .componentMetadata
            wait := .meshMetadata } : Session).stay [.askMesh address] := by
  unfold askable? at ha
  split at ha
  · rename_i hg
    unfold askMeshCore
    rw [ha]
    simp only [hg, if_true]
    cases rearm <;> rfl
  · cases ha

theorem settle_askMeshCore_some {address : UInt16} (ha : s.askable? = some address)
    (rearm : Bool) :
    settle (s.askMeshCore rearm)
      = ({ (if rearm then s.armTimer else s) with
            guard := s.guard.begin .componentMetadata
            wait := .meshMetadata } : Session).stay [.askMesh address] := by
  rw [askMeshCore_of_some ha, settle_of_reach rfl]

theorem enter_readAppInfo {v : Variant} (hv : s.variant = some v) (hd : s.device = some d)
    (hc : v.has .appInfo = true) :
    s.enter .readAppInfo
      = (({ s.arrive .readAppInfo with wait := .appInfo } : Session).ask d
          (.read .appInfo)).after [(s.arrive .readAppInfo).arrival] :=
  enter_eq (by decide) (by simp [entryAction, enterReadAppInfo, hv, hd, hc])

theorem entryAction_readAppInfo {v : Variant} (hv : s.variant = some v) (hd : s.device = some d)
    (hc : v.has .appInfo = false) :
    (s.arrive .readAppInfo).entryAction .readAppInfo
      = (s.arrive .readAppInfo).askMeshCore false := by
  simp [entryAction, enterReadAppInfo, hv, hd, hc]

theorem enter_readAppInfo_asks {v : Variant} {address : UInt16} (hv : s.variant = some v)
    (hd : s.device = some d) (hc : v.has .appInfo = false) (ha : s.askable? = some address) :
    s.enter .readAppInfo
      = ({ s.arrive .readAppInfo with
            guard := s.guard.begin .componentMetadata
            wait := .meshMetadata } : Session).stay
          [(s.arrive .readAppInfo).arrival, .askMesh address] := by
  rw [enter_eq (by decide) (entryAction_readAppInfo hv hd hc),
    askMeshCore_of_some (by simpa using ha)]
  rfl

theorem enter_readAppInfo_skips {v : Variant} (hv : s.variant = some v)
    (hd : s.device = some d) (hc : v.has .appInfo = false) (ha : s.askable? = none) :
    s.enter .readAppInfo
      = ((s.arrive .readAppInfo).moveTo .enableNotification).after
          [(s.arrive .readAppInfo).arrival] := by
  rw [enter_eq (by decide) (entryAction_readAppInfo hv hd hc),
    askMeshCore_of_none (by simpa using ha)]

theorem enter_enableNotification (hd : s.device = some d) :
    s.enter .enableNotification
      = ((s.arrive .enableNotification).ask d (.enableNotifications true)).after
          [(s.arrive .enableNotification).arrival] :=
  enter_eq (by decide) (withDevice_some (by simpa using hd) _)

/-- The session once it has written a command on entering a phase. -/
def commanding (s : Session) (p : Phase) : Session :=
  { s.arrive p with wait := .write }

theorem enter_prepareForDownload (hd : s.device = some d) :
    s.enter .prepareForDownload
      = ((s.commanding .prepareForDownload).ask d
          (.write .controlPoint s.mode.prepareCommand.encode)).after
          [(s.arrive .prepareForDownload).arrival] :=
  enter_eq (by decide) (withDevice_some (by simpa using hd) _)

theorem enter_startDownload (hd : s.device = some d) :
    s.enter .startDownload
      = ((s.commanding .startDownload).ask d
          (.write .controlPoint
            (Command.start (UInt32.ofNat s.transfer.imageSize)).encode)).after
          [(s.arrive .startDownload).arrival] :=
  enter_eq (by decide) (withDevice_some (by simpa using hd) _)

/-- The session once the next chunk is on its way. -/
def sending (s : Session) (image : Image) (size count : Nat) : Session :=
  { s with transfer := .after image size count (count + 1), wait := .chunkAck }

/-- With the books in order the next chunk goes out. -/
theorem sendNextChunk_eq {image : Image} {size count : Nat} (hi : s.image = some image)
    (hd : s.device = some d) (ht : s.transfer = .after image size count count) (pos : 0 < size)
    (lt : count * size < image.size) :
    s.sendNextChunk
      = (s.sending image size count).ask d (.write .data (image.chunk size count)) := by
  have hin : ¬ image.size < image.covered size (count + 1) :=
    Nat.not_lt.mpr (image.covered_le _ _)
  -- every chunk has a byte at least, so the count stays within a word as the size does
  have hcount : count ≤ count * size := Nat.le_mul_of_pos_right _ pos
  have hword : count + 1 < wordLimit := by
    have hsize := image.size_lt
    simp only [Image.size] at lt
    simp only [wordLimit]
    omega
  unfold sendNextChunk
  simp only [ht, Transfer.nextChunk?_after pos lt, hi, hd, if_neg hin]
  rw [← Image.chunk_eq_slice lt]
  simp only [Transfer.update?_after lt, Transfer.chunksSent_after, if_pos hword,
    Transfer.sent_after lt]
  rw [← hi, ← hd]
  rfl

theorem enter_dataTransfer {image : Image} {size : Nat} (hi : s.image = some image)
    (hd : s.device = some d) (ht : s.transfer = .after image size 0 0) (pos : 0 < size) :
    s.enter .dataTransfer
      = (((s.arrive .dataTransfer).sending image size 0).ask d
          (.write .data (image.chunk size 0))).after [(s.arrive .dataTransfer).arrival] := by
  have hlt : 0 * size < image.size := by rw [Nat.zero_mul]; exact image.size_pos
  exact enter_eq (by decide)
    (sendNextChunk_eq (by simpa using hi) (by simpa using hd) (by simpa using ht) pos hlt)

theorem enter_verify {crc : UInt32} (hd : s.device = some d)
    (hc : s.transfer.crc.final = some crc) :
    s.enter .verify
      = ((s.commanding .verify).ask d
          (.write .controlPoint (Command.verify crc).encode)).after
          [(s.arrive .verify).arrival] := by
  have h : (s.arrive .verify).entryAction .verify
      = (s.commanding .verify).ask d
          (.write .controlPoint (Command.verify crc).encode) := by
    simp only [entryAction, enterVerify, transfer_arrive, hc]
    rw [withDevice_some (by simpa using hd)]
    rfl
  exact enter_eq (by decide) h

/-- A peripheral that is still there is told. -/
theorem enter_abort (hd : s.device = some d) (hc : s.connected = true) :
    s.enter .abort
      = ((s.commanding .abort).ask d (.write .controlPoint Command.abort.encode)).after
          [(s.arrive .abort).arrival, .report (.log .warn "Aborting upgrade")] := by
  have h : (s.arrive .abort).entryAction .abort
      = ((s.commanding .abort).ask d (.write .controlPoint Command.abort.encode)).after
          [.report (.log .warn "Aborting upgrade")] := by
    simp only [entryAction, enterAbort, connected_arrive, hc, if_true, device_arrive, hd]
    rfl
  rw [enter_eq (by decide) h, Turn.after_after]
  rfl

theorem enter_abort_unlinked (hc : s.connected = false) :
    s.enter .abort
      = ((s.arrive .abort).moveTo .complete).after [(s.arrive .abort).arrival] :=
  enter_eq (by decide) (by simp [entryAction, enterAbort, hc])

theorem enter_complete_of_finished (hf : s.finished = true) :
    s.enter .complete = (s.arrive .complete).stay := by
  show (s.arrive .complete).finish = _
  rw [finish, finished_arrive, if_pos hf]

/-- The end is reported, unless the device's driver breaks down on the way. -/
theorem enter_complete (hf : s.finished = false) :
    s.enter .complete
      = if s.breaksOnParting then
          { session := s.arrive .complete
            effects := s.parting.map .call
            reaction := .crash .device }
        else s.closed.stay (s.parting.map .call ++ s.farewell) := by
  show (s.arrive .complete).finish = _
  unfold finish
  rw [finished_arrive, hf, cancelTimer_arrive_complete]
  -- the driver is only called, and can only break down, over a link that is up
  cases hd : s.device with
  | none => simp [breaksOnParting, parting, farewell, closed, hd, stay]
  | some d =>
    cases hc : s.connected with
    | false => simp [breaksOnParting, parting, farewell, closed, hd, hc, stay]
    | true =>
      by_cases hb : DeviceCall.disconnect ∈ d.breaksOn
      · simp [breaksOnParting, parting, hd, hc, hb, ask]
      · simp [breaksOnParting, parting, farewell, closed, hd, hc, hb, ask, stay]

theorem proceed_complete (hf : s.finished = false) :
    s.proceed .complete
      = if s.breaksOnParting then
          { session := s.arrive .complete
            effects := s.parting.map .call
            reaction := .crash .device }
        else s.closed.stay (s.parting.map .call ++ s.farewell) := by
  rw [← enter_complete hf]
  exact settle_of_reach (reach_finish _)

end phases

end Session
end OtaUpgrade
