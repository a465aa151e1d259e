import Mathlib
import OtaUpgrade.Proofs.Session.Sound

/-!
Everything a session can do when it is told something. `Advance` lists the events that take an
upgrade on without fault, `Failure` those that end or give it up, and `Answer` the ones within a
phase; an event that is not expected only leaves its mark on the books of requests and of the
connection. A `Response` is one of these, and a `Dispatch` is a response or what comes of a timeout.
Followed to where the session rests, a response becomes a `Reply` and a dispatch a `Step`.
-/
namespace OtaUpgrade

/-- The answer to a command that the event brings. -/
def Event.answer? : Event → Option (Option Bytes)
  | .written .controlPoint (.ok (some response)) => some (some response)
  | .value .controlPoint bytes _ => some bytes
  | _ => none

/-- The event is an answer of the one byte that means success. -/
def Event.grants (e : Event) : Bool :=
  e.answer? == some (some [0])

theorem Event.grants_iff {e : Event} {answer : Option Bytes} (h : e.answer? = some answer) :
    e.grants = true ↔ Status.decode answer = .success := by
  rw [Status.decode_eq_success_iff, Event.grants, h]
  simp

namespace Session

/-- The session with what it keeps of an event, expected or not. -/
def noting (s : Session) : Event → Session
  | .connection true _ => { s with guard := s.guard.finish .connection }
  | .connection false _ => { s with guard := s.guard.finish .connection, connected := false }
  | .meshMetadata _ => { s with guard := s.guard.finish .componentMetadata }
  | .abort dfu => { s with stopRequested := s.stopRequested || dfu }
  | _ => s

/-- The session waits for the event, or would act on it. -/
def expects (s : Session) : Event → Bool
  | .start => s.phase == .idle
  | .connection true _ => s.phase == .connect
  | .connection false _ => s.phase.underWay
  | .service _ _ => s.phase == .serviceDiscover
  | .notifications _ _ => s.phase == .enableNotification
  | .written .controlPoint _ | .value .controlPoint _ _ => (commandOf? s.phase).isSome
  | .written .data _ => s.wait == .chunkAck
  | .value .appInfo _ _ => s.wait == .appInfo
  | .written .appInfo _ | .value .data _ _ => false
  | .meshMetadata _ => s.guard.has .componentMetadata && s.wait == .meshMetadata
  | .timeout id => (s.timer.due? id).isSome
  | .abort _ => s.phase != .abort && s.phase != .complete

section noting

variable (s : Session) (e : Event)

/-- Only the books of requests, of the connection and of stopping can change. -/
theorem noting_eq : ∃ guard connected stopRequested,
    s.noting e = { s with guard, connected, stopRequested } := by
  unfold noting
  split <;> exact ⟨_, _, _, rfl⟩

@[simp] theorem config_noting : (s.noting e).config = s.config := by
  obtain ⟨guard, connected, stopRequested, h⟩ := s.noting_eq e
  rw [h]

@[simp] theorem mode_noting : (s.noting e).mode = s.mode := by
  obtain ⟨guard, connected, stopRequested, h⟩ := s.noting_eq e
  rw [h]

@[simp] theorem image_noting : (s.noting e).image = s.image := by
  obtain ⟨guard, connected, stopRequested, h⟩ := s.noting_eq e
  rw [h]

@[simp] theorem device_noting : (s.noting e).device = s.device := by
  obtain ⟨guard, connected, stopRequested, h⟩ := s.noting_eq e
  rw [h]

@[simp] theorem phase_noting : (s.noting e).phase = s.phase := by
  obtain ⟨guard, connected, stopRequested, h⟩ := s.noting_eq e
  rw [h]

@[simp] theorem wait_noting : (s.noting e).wait = s.wait := by
  obtain ⟨guard, connected, stopRequested, h⟩ := s.noting_eq e
  rw [h]

@[simp] theorem timer_noting : (s.noting e).timer = s.timer := by
  obtain ⟨guard, connected, stopRequested, h⟩ := s.noting_eq e
  rw [h]

@[simp] theorem transfer_noting : (s.noting e).transfer = s.transfer := by
  obtain ⟨guard, connected, stopRequested, h⟩ := s.noting_eq e
  rw [h]

@[simp] theorem error_noting : (s.noting e).error = s.error := by
  obtain ⟨guard, connected, stopRequested, h⟩ := s.noting_eq e
  rw [h]

@[simp] theorem variant_noting : (s.noting e).variant = s.variant := by
  obtain ⟨guard, connected, stopRequested, h⟩ := s.noting_eq e
  rw [h]

@[simp] theorem finished_noting : (s.noting e).finished = s.finished := by
  obtain ⟨guard, connected, stopRequested, h⟩ := s.noting_eq e
  rw [h]

end noting

theorem noting_of_answer {s : Session} {e : Event} {answer : Option Bytes}
    (h : e.answer? = some answer) : s.noting e = s := by
  cases e <;> first | rfl | cases h

/-- The cause recorded when the caller asks to stop. -/
def abortCause (dfu : Bool) : Cause :=
  if dfu then .abortedForDfu else .aborted

/-- The cause recorded when a command cannot be written. -/
def writeCause (command : Opcode) (error : LinkError) : Cause :=
  if error.isTimeout then .timeout s!"{command.name} response"
  else .commandFailed command error.message

/-- The session once the chunk in flight is acknowledged. -/
def acknowledged (s : Session) : Session :=
  { s.cancelTimer with
    transfer :=
      { s.transfer with offset := s.transfer.offset + s.transfer.inFlight, inFlight := 0 }
    wait := .nothing }

/-- The acknowledgement moves the books of a transfer on by one chunk. -/
theorem transfer_acknowledged {s : Session} {image : Image} {size count : Nat}
    (lt : count * size < image.size) (ht : s.transfer = .after image size count (count + 1)) :
    s.acknowledged.transfer = .after image size (count + 1) (count + 1) := by
  rw [acknowledged, ht]
  exact Transfer.acknowledged_after lt

/-- What observers are told of a chunk. -/
def chunkReport (s : Session) : List Effect :=
  if s.mode.isDfu then [] else [.report (.progress s.acknowledged.progress)]

/-- The events that take an upgrade on to its next phase, or from giving up to its end. -/
inductive Advance (s : Session) : Event → Session → List Effect → Phase → Prop where
  | start (hp : s.phase = .idle) :
      Advance s .start { s with running := true } [] .connect
  | connected {d : Device} {size : Nat} {error : Option LinkError} (hp : s.phase = .connect)
      (hd : s.device = some d) (hs : s.config.chunkSizeFor? d.mtu d.overhead = some size)
      (pos : 0 < size) :
      Advance s (.connection true error)
        { (s.noting (.connection true error)).cancelTimer with
          connected := true
          transfer := { s.transfer with chunkSize := size } } [] .serviceDiscover
  | discovered {v : Variant} (hp : s.phase = .serviceDiscover) :
      Advance s (.service (some v) none) { s.cancelTimer with variant := some v } [] .readAppInfo
  | informed {value : Option Bytes} {error : Option LinkError} {info : AppInfo}
      (hw : s.wait = .appInfo) (hv : value.bind AppInfo.decode? = some info) :
      Advance s (.value .appInfo value error)
        { s.cancelTimer with identity := some (.appInfo info) } [] .enableNotification
  | uninformed {value : Option Bytes} {error : Option LinkError} (hw : s.wait = .appInfo)
      (hv : value.bind AppInfo.decode? = none) (ha : s.askable? = none) :
      Advance s (.value .appInfo value error) s.cancelTimer [] .enableNotification
  | identified {metadata : Option ComponentMetadata} (hw : s.wait = .meshMetadata)
      (hg : s.guard.has .componentMetadata = true) :
      Advance s (.meshMetadata metadata)
        { (s.noting (.meshMetadata metadata)).cancelTimer with
          identity := (metadata.map Identity.mesh).orElse fun _ => s.identity }
        [] .enableNotification
  | notifying (hp : s.phase = .enableNotification) :
      Advance s (.notifications true none) s.cancelTimer [] .prepareForDownload
  | prepared {e : Event} (hp : s.phase = .prepareForDownload) (he : e.grants = true) :
      Advance s e s.cancelTimer [] .startDownload
  | started {e : Event} (hp : s.phase = .startDownload) (he : e.grants = true) :
      Advance s e s.cancelTimer [] .dataTransfer
  | transferred {response : Option Bytes} (hp : s.phase = .dataTransfer)
      (hall : s.acknowledged.transfer.isDone = true) :
      Advance s (.written .data (.ok response)) s.acknowledged s.chunkReport .verify
  | verified {e : Event} (hp : s.phase = .verify) (he : e.grants = true) :
      Advance s e s.cancelTimer [] .complete
  | rebooted {error : Option LinkError} (hp : s.phase = .verify) (hw : s.wait = .response)
      (ht : s.timer.armed.isSome = true) :
      Advance s (.connection false error) (s.noting (.connection false error)).cancelTimer
        [.report (.log .info "Device rebooted after verify")] .complete
  | gaveUp {e : Event} (hp : s.phase = .abort)
      (he : e.answer?.isSome = true ∨ (∃ error, e = .connection false error) ∨
        ∃ error, e = .written .controlPoint (.failed error)) :
      Advance s e (s.noting e).cancelTimer [] .complete

/-- The events that end an upgrade by an error or have it given up. -/
inductive Failure (s : Session) : Event → Session → Cause → Phase → Prop where
  | mtu {d : Device} {error : Option LinkError} (hp : s.phase = .connect)
      (hd : s.device = some d) (hs : s.config.chunkSizeFor? d.mtu d.overhead = some 0) :
      Failure s (.connection true error)
        { (s.noting (.connection true error)).cancelTimer with connected := true }
        (.invalidMtu d.mtu) .complete
  | unconnected {error : Option LinkError} (hp : s.phase = .connect) :
      Failure s (.connection false error) (s.noting (.connection false error)).cancelTimer
        (connectCause error) .complete
  | disconnected {error : Option LinkError} (hu : s.phase.underWay = true)
      (hc : s.phase ≠ .connect) (ha : s.phase ≠ .abort) (hv : s.verifyAccepted = false) :
      Failure s (.connection false error) (s.noting (.connection false error)).cancelTimer
        .disconnected (if s.phase.isBeforeDownload then .complete else .abort)
  | unsupported {variant : Option Variant} {error : Option LinkError}
      (hp : s.phase = .serviceDiscover) (hn : variant = none ∨ error ≠ none) :
      Failure s (.service variant error) s.cancelTimer .upgradeNotSupported .complete
  | silent {enabled : Bool} {error : Option LinkError} (hp : s.phase = .enableNotification)
      (hn : enabled = false ∨ error ≠ none) :
      Failure s (.notifications enabled error) s.cancelTimer (notificationsCause error) .complete
  | unprepared {e : Event} {answer : Option Bytes} (hp : s.phase = .prepareForDownload)
      (he : e.answer? = some answer) (hn : e.grants = false) :
      Failure s e s.cancelTimer (.commandRejected .prepareDownload (Status.decode answer))
        .complete
  | unstarted {e : Event} {answer : Option Bytes} (hp : s.phase = .startDownload)
      (he : e.answer? = some answer) (hn : e.grants = false) :
      Failure s e s.cancelTimer (.commandRejected .startDownload (Status.decode answer)) .abort
  | unverified {e : Event} {answer : Option Bytes} (hp : s.phase = .verify)
      (he : e.answer? = some answer) (hn : e.grants = false) :
      Failure s e s.cancelTimer (.verificationFailed (Status.decode answer)) .abort
  | unwritten {command : Opcode} {error : LinkError} (hc : commandOf? s.phase = some command)
      (ha : s.phase ≠ .abort) :
      Failure s (.written .controlPoint (.failed error)) s.cancelTimer
        (writeCause command error) .abort
  | chunk {error : LinkError} (hp : s.phase = .dataTransfer) :
      Failure s (.written .data (.failed error)) s.cancelTimer
        (.transferFailed s.transfer.imageSize s.transfer.offset error.message) .abort
  | stopped {dfu : Bool} (hp : s.phase = .idle) :
      Failure s (.abort dfu) (s.noting (.abort dfu)) (abortCause dfu) .complete
  | stoppedDownload {dfu : Bool} (hp : s.phase.canAbort = true) :
      Failure s (.abort dfu) (s.noting (.abort dfu)) (abortCause dfu) .abort

/-- A failing upgrade is given up or ends at once. -/
theorem Failure.gives_up {s s' : Session} {e : Event} {cause : Cause} {p : Phase}
    (h : Failure s e s' cause p) : p = .abort ∨ p = .complete := by
  cases h with
  | disconnected =>
    split
    · exact .inr rfl
    · exact .inl rfl
  | _ => simp

/-- The answers to an event, other than a timeout, with which a session stays in its phase. -/
inductive Answer (s : Session) : Event → Turn → Prop where
  | rest {e : Event} (h : s.expects e = false) : Answer s e (s.noting e).stay
  /-- Before the download the link is closed, and the report of that will end the upgrade. -/
  | closing {d : Device} {dfu : Bool} (hu : s.phase.underWay = true)
      (hb : s.phase.isBeforeDownload = true) (hd : s.device = some d) :
      Answer s (.abort dfu)
        (((s.noting (.abort dfu)).recordError (abortCause dfu)).ask d .disconnect)
  | written (hc : (commandOf? s.phase).isSome = true) :
      Answer s (.written .controlPoint (.ok none)) ({ s with wait := .response } : Session).stay
  | asks {value : Option Bytes} {error : Option LinkError} {address : UInt16}
      (hw : s.wait = .appInfo) (hv : value.bind AppInfo.decode? = none)
      (ha : s.askable? = some address) :
      Answer s (.value .appInfo value error)
        (({ s.cancelTimer.armTimer with
            guard := s.guard.begin .componentMetadata
            wait := .meshMetadata } : Session).stay [.askMesh address])
  | next {image : Image} {d : Device} {size count : Nat} {response : Option Bytes}
      (hp : s.phase = .dataTransfer) (hi : s.image = some image) (hd : s.device = some d)
      (pos : 0 < size) (ht : s.transfer = .after image size count (count + 1))
      (lt : (count + 1) * size < image.size) :
      Answer s (.written .data (.ok response))
        (((s.acknowledged.armTimer.sending image size (count + 1)).ask d
          (.write .data (image.chunk size (count + 1)))).after s.chunkReport)
  | overflow {d : Device} {error : Option LinkError} (hp : s.phase = .connect)
      (hd : s.device = some d) (hs : s.config.chunkSizeFor? d.mtu d.overhead = none) :
      Answer s (.connection true error)
        (({ (s.noting (.connection true error)).cancelTimer with
            connected := true } : Session).crashed .sizeOverflow)

/-- Every first answer to an event other than a timeout. -/
inductive Response (s : Session) : Event → Turn → Prop where
  | answer {e : Event} {t : Turn} (h : Answer s e t) : Response s e t
  | advance {e : Event} {s' : Session} {es : List Effect} {p : Phase} (h : Advance s e s' es p) :
      Response s e ((s'.moveTo p).after es)
  | failure {e : Event} {s' : Session} {cause : Cause} {p : Phase} (h : Failure s e s' cause p) :
      Response s e (s'.failTo cause p)

/-- Everything that can come of an event other than a timeout, once the session is at rest. -/
inductive Reply (s : Session) : Event → Turn → Prop where
  | rest {e : Event} (h : s.expects e = false) : Reply s e (s.noting e).stay
  | advance {e : Event} {s' : Session} {es : List Effect} {p : Phase} (h : Advance s e s' es p) :
      Reply s e ((s'.proceed p).after es)
  | failure {e : Event} {s' : Session} {cause : Cause} {p : Phase} (h : Failure s e s' cause p) :
      Reply s e ((s'.recordError cause).proceed p)
  /-- Before the download the link is closed, and the report of that will end the upgrade. -/
  | closing {d : Device} {dfu : Bool} (hu : s.phase.underWay = true)
      (hb : s.phase.isBeforeDownload = true) (hd : s.device = some d) :
      Reply s (.abort dfu)
        (((s.noting (.abort dfu)).recordError (abortCause dfu)).ask d .disconnect)
  | written (hc : (commandOf? s.phase).isSome = true) :
      Reply s (.written .controlPoint (.ok none)) ({ s with wait := .response } : Session).stay
  | asks {value : Option Bytes} {error : Option LinkError} {address : UInt16}
      (hw : s.wait = .appInfo) (hv : value.bind AppInfo.decode? = none)
      (ha : s.askable? = some address) :
      Reply s (.value .appInfo value error)
        (({ s.cancelTimer.armTimer with
            guard := s.guard.begin .componentMetadata
            wait := .meshMetadata } : Session).stay [.askMesh address])
  | next {image : Image} {d : Device} {size count : Nat} {response : Option Bytes}
      (hp : s.phase = .dataTransfer) (hi : s.image = some image) (hd : s.device = some d)
      (pos : 0 < size) (ht : s.transfer = .after image size count (count + 1))
      (lt : (count + 1) * size < image.size) :
      Reply s (.written .data (.ok response))
        (((s.acknowledged.armTimer.sending image size (count + 1)).ask d
          (.write .data (image.chunk size (count + 1)))).after s.chunkReport)
  | overflow {d : Device} {error : Option LinkError} (hp : s.phase = .connect)
      (hd : s.device = some d) (hs : s.config.chunkSizeFor? d.mtu d.overhead = none) :
      Reply s (.connection true error)
        (({ (s.noting (.connection true error)).cancelTimer with
            connected := true } : Session).crashed .sizeOverflow)

/-- Everything that can come of an event. The timeout outstanding counts as fired and becomes the
failure of the step that was waited for. -/
inductive Step (s : Session) : Event → Turn → Prop where
  | reply {e : Event} {t : Turn} (hn : ∀ id, e ≠ .timeout id) (h : Reply s e t) : Step s e t
  | stale {id : Nat} (h : s.timer.due? id = none) : Step s (.timeout id) s.stay
  | expired {id : Nat} {timeout : Timeout} {e : Event} {t : Turn}
      (h : s.timer.due? id = some timeout)
      (he : s.failureEvent? (.timeout timeout.ms) = some e)
      (ht : Reply { s with timer := s.timer.fire } e t) :
      Step s (.timeout id)
        (t.after [.report (.log .warn s!"{timeout.phase.name} timed out after {timeout.ms}ms")])

/-- Every first answer to an event. -/
inductive Dispatch (s : Session) : Event → Turn → Prop where
  | response {e : Event} {t : Turn} (hn : ∀ id, e ≠ .timeout id) (h : Response s e t) :
      Dispatch s e t
  | stale {id : Nat} (h : s.timer.due? id = none) : Dispatch s (.timeout id) s.stay
  | expired {id : Nat} {timeout : Timeout} {e : Event} {t : Turn}
      (h : s.timer.due? id = some timeout)
      (he : s.failureEvent? (.timeout timeout.ms) = some e)
      (ht : Response { s with timer := s.timer.fire } e t) :
      Dispatch s (.timeout id)
        (t.after [.report (.log .warn s!"{timeout.phase.name} timed out after {timeout.ms}ms")])

/-! ## From the first answer to where the session rests -/

variable {s : Session} {e : Event} {t : Turn}

/-- An answer within the phase leaves nothing to follow. -/
theorem Answer.reach (h : Answer s e t) : t.reaction.reach = 0 := by
  cases h <;> simp

theorem Answer.reply (h : Answer s e t) : Reply s e t := by
  cases h with
  | rest h => exact .rest h
  | closing hu hb hd => exact .closing hu hb hd
  | written hc => exact .written hc
  | asks hw hv ha => exact .asks hw hv ha
  | next hp hi hd pos ht lt => exact .next hp hi hd pos ht lt
  | overflow hp hd hs => exact .overflow hp hd hs

theorem Response.reply (h : Response s e t) : Reply s e (settle t) := by
  cases h with
  | answer h =>
    rw [settle_of_reach h.reach]
    exact h.reply
  | advance h =>
    rw [settle_after, settle_moveTo]
    exact .advance h
  | failure h =>
    rw [settle_failTo]
    exact .failure h

theorem Dispatch.step (h : Dispatch s e t) : Step s e (settle t) := by
  cases h with
  | response hn h => exact .reply hn h.reply
  | stale h =>
    rw [settle_stay]
    exact .stale h
  | expired h he ht =>
    rw [settle_after]
    exact .expired h he ht.reply

end Session
end OtaUpgrade
