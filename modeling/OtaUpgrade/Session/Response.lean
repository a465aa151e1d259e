import OtaUpgrade.Session.Entry

/-!
What a session does when it is told something. A response that the phase does not wait for changes
nothing but the books of outstanding requests and of the connection.
-/
namespace OtaUpgrade.Session

/-- Begins an upgrade that has not begun. -/
def onStart (s : Session) : Turn :=
  if s.phase = .idle && !s.running then
    ({ s with running := true } : Session).moveTo .connect
  else
    s.stay

/-- The link is up. The chunk size is settled here for the rest of the upgrade. -/
def onConnected (s : Session) : Turn :=
  if s.phase = .connect then
    let s : Session := { s.cancelTimer with connected := true }
    s.withDevice fun d =>
      match s.config.chunkSizeFor? d.mtu d.overhead with
      | none => s.crashed .sizeOverflow
      | some 0 => s.failTo (.invalidMtu d.mtu) .complete
      | some size =>
        ({ s with transfer := { s.transfer with chunkSize := size } } : Session).moveTo
          .serviceDiscover
  else
    s.stay

/-- Why connecting failed. -/
def connectCause : Option LinkError → Cause
  | none => .connectFailed "link closed"
  | some e => if e.isTimeout then .connectionTimeout else .connectFailed e.message

/-- The verify command was written and its status is still waited for. -/
def verifyAccepted (s : Session) : Bool :=
  s.phase == .verify && s.wait == .response && s.timer.armed.isSome

/-- The link is down. A device that falls silent once the verify command was written has rebooted
into the new image. -/
def onDisconnected (s : Session) (error : Option LinkError) : Turn :=
  let s : Session := { s with connected := false }
  if s.verifyAccepted then
    (s.cancelTimer.moveTo .complete).after
      [.report (.log .info "Device rebooted after verify")]
  else
    match s.phase with
    | .idle | .complete => s.stay
    | .connect => s.cancelTimer.failTo (connectCause error) .complete
    | .abort => s.cancelTimer.moveTo .complete
    | phase =>
      s.cancelTimer.failTo .disconnected (if phase.isBeforeDownload then .complete else .abort)

/-- The link came up or went down; either way the connection request is answered. -/
def onConnection (s : Session) (connected : Bool) (error : Option LinkError) : Turn :=
  let s : Session := { s with guard := s.guard.finish .connection }
  if connected then s.onConnected else s.onDisconnected error

/-- The caller asks to stop. A download is given up by command; before that the link is closed and
the rest follows from the report that it is down. -/
def onAbort (s : Session) (dfu : Bool) : Turn :=
  let s : Session := { s with stopRequested := s.stopRequested || dfu }
  let cause : Cause := if dfu then .abortedForDfu else .aborted
  match s.phase with
  | .idle => s.failTo cause .complete
  | .abort | .complete => s.stay
  | phase =>
    if phase.canAbort then s.failTo cause .abort
    else
      let s := s.recordError cause
      match s.device with
      | some d => s.ask d .disconnect
      | none => s.moveTo .complete

/-- The service was looked for. -/
def onService (s : Session) (variant : Option Variant) (error : Option LinkError) : Turn :=
  if s.phase = .serviceDiscover then
    let s := s.cancelTimer
    match variant, error with
    | some v, none => ({ s with variant := some v } : Session).moveTo .readAppInfo
    | _, _ => s.failTo .upgradeNotSupported .complete
  else
    s.stay

/-- The application info was read, or could not be. -/
def onAppInfo (s : Session) (value : Option Bytes) : Turn :=
  if s.phase = .readAppInfo && s.wait = .appInfo then
    let s := s.cancelTimer
    match value.bind AppInfo.decode? with
    | some info =>
      ({ s with identity := some (.appInfo info) } : Session).moveTo .enableNotification
    | none => s.askMeshCore true
  else
    s.stay

/-- The mesh core answered. -/
def onMeshMetadata (s : Session) (metadata : Option ComponentMetadata) : Turn :=
  let asked := s.guard.has .componentMetadata
  let s : Session := { s with guard := s.guard.finish .componentMetadata }
  if asked && s.phase = .readAppInfo && s.wait = .meshMetadata then
    let s := s.cancelTimer
    match metadata with
    | some m => ({ s with identity := some (.mesh m) } : Session).moveTo .enableNotification
    | none => s.moveTo .enableNotification
  else
    s.stay

/-- Why notifications stay off. -/
def notificationsCause : Option LinkError → Cause
  | none => .notificationsFailed "indications left disabled"
  | some e =>
    if e.isTimeout then .timeout "notification setup" else .notificationsFailed e.message

/-- Notifications were switched. -/
def onNotifications (s : Session) (enabled : Bool) (error : Option LinkError) : Turn :=
  if s.phase = .enableNotification then
    let s := s.cancelTimer
    if enabled && error.isNone then s.moveTo .prepareForDownload
    else s.failTo (notificationsCause error) .complete
  else
    s.stay

/-- The command of a phase. -/
def commandOf? : Phase → Option Opcode
  | .prepareForDownload => some .prepareDownload
  | .startDownload => some .startDownload
  | .verify => some .verify
  | .abort => some .abort
  | _ => none

/-- The command whose status is waited for. -/
def commandInHand? (s : Session) : Option Opcode :=
  match s.wait with
  | .write | .response => commandOf? s.phase
  | _ => none

/-- The status of a command came. -/
def onStatus (s : Session) (command : Opcode) (status : Status) : Turn :=
  let s := s.cancelTimer
  let accepted := status == .success
  match s.phase with
  | .prepareForDownload =>
    if accepted then s.moveTo .startDownload
    else s.failTo (.commandRejected command status) .complete
  | .startDownload =>
    if accepted then s.moveTo .dataTransfer
    else s.failTo (.commandRejected command status) .abort
  | .verify =>
    if accepted then s.moveTo .complete else s.failTo (.verificationFailed status) .abort
  | _ => s.moveTo .complete

/-- A command was written. Its status either came along or will follow as an indication. -/
def onCommandWritten (s : Session) (result : WriteResult) : Turn :=
  match s.commandInHand? with
  | none => s.stay
  | some command =>
    match result with
    | .ok (some response) => s.onStatus command (Status.decode (some response))
    | .ok none => ({ s with wait := .response } : Session).stay
    | .failed e =>
      let s := s.cancelTimer
      if command = .abort then s.moveTo .complete
      else if e.isTimeout then s.failTo (.timeout s!"{command.name} response") .abort
      else s.failTo (.commandFailed command e.message) .abort

/-- A status came as an indication. -/
def onIndication (s : Session) (value : Option Bytes) : Turn :=
  match s.commandInHand? with
  | none => s.stay
  | some command => s.onStatus command (Status.decode value)

/-- A chunk was written. Only a direct upgrade reports each chunk. -/
def onChunkWritten (s : Session) (result : WriteResult) : Turn :=
  if s.phase = .dataTransfer && s.wait = .chunkAck then
    let s := s.cancelTimer
    match result with
    | .failed e => s.failTransfer e.message
    | .ok _ =>
      let offset := s.transfer.offset + s.transfer.inFlight
      if offset < wordLimit then
        let s : Session :=
          { s with transfer := { s.transfer with offset, inFlight := 0 }, wait := .nothing }
        let acknowledged : List Effect :=
          if s.mode.isDfu then [] else [.report (.progress s.progress)]
        let turn := if s.transfer.isDone then s.moveTo .verify else s.armTimer.sendNextChunk
        turn.after acknowledged
      else
        s.crashed .sizeOverflow
  else
    s.stay

/-- What a session does when it is told anything but that its time is over. -/
def respond (s : Session) : Event → Turn
  | .start => s.onStart
  | .connection connected error => s.onConnection connected error
  | .service variant error => s.onService variant error
  | .notifications enabled error => s.onNotifications enabled error
  | .written .controlPoint result => s.onCommandWritten result
  | .written .data result => s.onChunkWritten result
  | .written .appInfo _ => s.stay
  | .value .appInfo value _ => s.onAppInfo value
  | .value .controlPoint value _ => s.onIndication value
  | .value .data _ _ => s.stay
  | .meshMetadata metadata => s.onMeshMetadata metadata
  | .timeout _ => s.stay
  | .abort dfu => s.onAbort dfu

/-- The event by which the step that a session waits for would report its failure. -/
def failureEvent? (s : Session) (error : LinkError) : Option Event :=
  match s.phase with
  | .idle | .complete => none
  | .connect => some (.connection false (some error))
  | .serviceDiscover => some (.service none (some error))
  | .readAppInfo =>
    if s.wait = .meshMetadata then some (.meshMetadata none)
    else some (.value .appInfo none (some error))
  | .enableNotification => some (.notifications false (some error))
  | .prepareForDownload | .startDownload | .verify | .abort =>
    some (.written .controlPoint (.failed error))
  | .dataTransfer => some (.written .data (.failed error))

/-- The timeout with this number is over. The one outstanding turns into the failure of the step it
was armed for; any other is out of date. -/
def onTimeout (s : Session) (id : Nat) : Turn :=
  match s.timer.due? id with
  | none => s.stay
  | some timeout =>
    let s : Session := { s with timer := s.timer.fire }
    let turn :=
      match s.failureEvent? (.timeout timeout.ms) with
      | none => s.stay
      | some e => s.respond e
    turn.after
      [.report (.log .warn s!"{timeout.phase.name} timed out after {timeout.ms}ms")]

/-- The first answer of a session to an event. Once its end is reported it does nothing more. -/
def dispatch (s : Session) (e : Event) : Turn :=
  if s.finished then s.stay
  else
    match e with
    | .timeout id => s.onTimeout id
    | e => s.respond e

end OtaUpgrade.Session
