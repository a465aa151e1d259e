import OtaUpgrade.Session.Basic

/-!
What a session does on entering a phase. The timeout of the phase before is given up, the one of
the new phase is armed, observers are told, and the phase's own action runs. An action either
waits in the phase or goes on to a later one.
-/
namespace OtaUpgrade.Session

/-- Runs an action that needs the device; without one the upgrade ends. -/
def withDevice (s : Session) (action : Device → Turn) : Turn :=
  match s.device with
  | some d => action d
  | none => s.failTo .noDevice .complete

/-- Connecting takes an image and a device. A connection that someone else has requested is only
waited for. -/
def enterConnect (s : Session) : Turn :=
  match s.image with
  | none => s.failTo .noImage .complete
  | some _ =>
    s.withDevice fun d =>
      if s.guard.has .connection then s.stay
      else (({ s with guard := s.guard.begin .connection } : Session).ask d .connect).after [.bind]

/-- Asks the mesh core for the metadata of a device behind the mesh, and goes on without them where
that is not possible. With `rearm` the request gets a timeout of its own. -/
def askMeshCore (s : Session) (rearm : Bool) : Turn :=
  match s.device.bind Device.nodeAddress? with
  | none => s.moveTo .enableNotification
  | some address =>
    if s.collaborators.meshCore && !s.guard.has .componentMetadata then
      let s := if rearm then s.armTimer else s
      ({ s with
          guard := s.guard.begin .componentMetadata
          wait := .meshMetadata } : Session).stay [.askMesh address]
    else
      s.moveTo .enableNotification

/-- Reads the application info where the service has it; otherwise the mesh core is asked. -/
def enterReadAppInfo (s : Session) : Turn :=
  match s.variant, s.device with
  | some v, some d =>
    if v.has .appInfo then ({ s with wait := .appInfo } : Session).ask d (.read .appInfo)
    else s.askMeshCore false
  | _, _ => s.askMeshCore false

/-- Verification sends the checksum over all chunks. -/
def enterVerify (s : Session) : Turn :=
  match s.transfer.crc.final with
  | none => s.failTo (.invalidImage "checksum was never finalized") .abort
  | some crc => s.withDevice fun d => s.sendCommand d (.verify crc)

/-- Gives the download up, as far as there is still someone to tell. -/
def enterAbort (s : Session) : Turn :=
  if s.connected then
    let turn :=
      match s.device with
      | some d => s.sendCommand d .abort
      | none => s.moveTo .complete
    turn.after [.report (.log .warn "Aborting upgrade")]
  else
    s.moveTo .complete

/-- The transfer cannot go on. -/
def failTransfer (s : Session) (reason : String) : Turn :=
  s.failTo (.transferFailed s.transfer.imageSize s.transfer.offset reason) .abort

/-- Sends the chunk at the offset. -/
def sendNextChunk (s : Session) : Turn :=
  match s.transfer.nextChunk? with
  | none => s.failTransfer "no data left to send"
  | some (start, stop) =>
    match s.image, s.device with
    | none, _ => s.failTransfer "image missing"
    | some _, none => s.failTransfer "device missing"
    | some image, some d =>
      if image.size < stop then s.crashed .outsideImage
      else
        let chunk := image.slice start stop
        match s.transfer.crc.update? chunk with
        | none => s.crashed .finalChecksum
        | some crc =>
          if s.transfer.chunksSent + 1 < wordLimit then
            ({ s with
                transfer := s.transfer.sent crc start stop
                wait := .chunkAck } : Session).ask d (.write .data chunk)
          else
            s.crashed .sizeOverflow

/-- What the orchestrator of mesh DFU is told at the end: how the upload ended, and to stop
distributing if it failed or was stopped. -/
def closingSignals (s : Session) : List Effect :=
  match s.mode.dfuMetadata? with
  | none => []
  | some metadata =>
    if s.collaborators.orchestrator then
      .signal (.uploadFinished metadata s.error) ::
        (if s.stopRequested || s.error.isSome then [.signal .stopDistribution] else [])
    else []

/-- Ends the upgrade once: the device is let go, the requests are forgotten, and the end is
reported. -/
def finish (s : Session) : Turn :=
  if s.finished then s.stay
  else
    let s := s.cancelTimer
    let closing : Turn :=
      match s.device with
      | none => s.stay
      | some d => if s.connected then s.ask d .disconnect else s.stay
    match closing.reaction with
    | .crash _ => closing
    | _ =>
      let release : List Effect := if s.device.isSome then [.release] else []
      let s : Session :=
        { s with
          device := none
          running := false
          connected := false
          guard := {}
          finished := true }
      s.stay (closing.effects ++ release ++ .report (.complete s.progress) :: s.closingSignals)

/-- The action of a phase. -/
def entryAction (s : Session) : Phase → Turn
  | .idle => s.stay
  | .connect => s.enterConnect
  | .serviceDiscover => s.withDevice fun d => s.ask d .discover
  | .readAppInfo => s.enterReadAppInfo
  | .enableNotification => s.withDevice fun d => s.ask d (.enableNotifications true)
  | .prepareForDownload => s.withDevice fun d => s.sendCommand d s.mode.prepareCommand
  | .startDownload =>
    s.withDevice fun d => s.sendCommand d (.start (UInt32.ofNat s.transfer.imageSize))
  | .dataTransfer => s.sendNextChunk
  | .verify => s.enterVerify
  | .abort => s.enterAbort
  | .complete => s.finish

/-- Enters a phase. The last phase is reported by its own action. -/
def enter (s : Session) (phase : Phase) : Turn :=
  let s := ((s.cancelTimer).goto phase).armTimer
  let entered : List Effect :=
    if phase = .complete then [] else [.report (.progress s.progress)]
  (s.entryAction phase).after entered

end OtaUpgrade.Session
