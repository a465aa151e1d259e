import OtaUpgrade.Config.Basic
import OtaUpgrade.Session.Device
import OtaUpgrade.Session.Event
import OtaUpgrade.Session.Guard
import OtaUpgrade.Session.Report
import OtaUpgrade.Session.Transfer

/-!
The state of one upgrade, and turns: what the session becomes, what it does to the outside on the
way, and whether it goes on to another phase.
-/
namespace OtaUpgrade

/-- Pushing firmware to the device itself, or uploading it for mesh DFU to distribute. -/
inductive Mode where
  | direct
  | dfu (metadata : DfuMetadata)
  deriving DecidableEq, Repr

namespace Mode

/-- The metadata of an upload for mesh DFU. -/
def dfuMetadata? : Mode → Option DfuMetadata
  | direct => none
  | dfu metadata => some metadata

/-- The upgrade is an upload for mesh DFU. -/
def isDfu (m : Mode) : Bool :=
  m.dfuMetadata?.isSome

/-- The command that prepares a download in this mode. -/
def prepareCommand : Mode → Command
  | direct => .prepare
  | dfu metadata => .prepareDfu metadata.companyId metadata.firmwareId

end Mode

/-- Who else takes part in an upgrade. They never break down, and neither do observers. -/
structure Collaborators where
  meshCore : Bool := false
  orchestrator : Bool := false
  deriving DecidableEq, Repr

/-- The collaborators in one line. -/
def Collaborators.summary (c : Collaborators) : String :=
  s!"Collaborators \x7b mesh_core: {c.meshCore}, dfu: {c.orchestrator} \x7d"

/-- One upgrade. -/
structure Session where
  config : Config := {}
  mode : Mode := .direct
  image : Option Image := none
  collaborators : Collaborators := {}
  /-- The device, until it is released. -/
  device : Option Device := none
  phase : Phase := .idle
  wait : Wait := .nothing
  timer : Timer := {}
  transfer : Transfer
  guard : Guard := {}
  /-- The first error. -/
  error : Option UpgradeError := none
  running : Bool := false
  connected : Bool := false
  variant : Option Variant := none
  identity : Option Identity := none
  /-- The caller stopped the upgrade on behalf of mesh DFU. -/
  stopRequested : Bool := false
  /-- The end of the upgrade was reported. -/
  finished : Bool := false

/-- What others see of a session. -/
structure SessionStatus where
  phase : Phase
  wait : Wait
  imageSize : Nat
  transferred : Nat
  error : Option UpgradeError
  finished : Bool
  deriving DecidableEq, Repr

/-- Something a session does to the outside. -/
inductive Effect where
  /-- The device is told where to post its events. -/
  | bind
  /-- The device is told to post no more events. -/
  | release
  | call (c : DeviceCall)
  | report (r : Report)
  /-- The mesh core is asked for a node's component metadata. -/
  | askMesh (address : UInt16)
  | signal (s : DfuSignal)
  deriving DecidableEq, Repr

/-- Why a session breaks down. -/
inductive Crash where
  /-- A size or a counter does not fit a word. -/
  | sizeOverflow
  /-- A chunk was fed into a final checksum. -/
  | finalChecksum
  /-- A chunk lies outside the image. -/
  | outsideImage
  /-- The device's driver broke down in a call. -/
  | device
  deriving DecidableEq, Repr

/-- What a session does after an event or on entering a phase. -/
inductive Reaction where
  | stay
  | enter (next : Phase)
  /-- Record the error, then enter the phase. -/
  | fail (cause : Cause) (next : Phase)
  | crash (crash : Crash)
  deriving DecidableEq, Repr

/-- The session after a step, the effects of the step in order, and the reaction to follow. -/
structure Turn where
  session : Session
  effects : List Effect := []
  reaction : Reaction := .stay

namespace Session

/-- A session that has not begun. -/
def fresh (config : Config) (mode : Mode) (image : Option Image) (device : Option Device)
    (collaborators : Collaborators) (guard : Guard) : Session :=
  { config, mode, image, device, collaborators, guard
    transfer := { imageSize := (image.map Image.size).getD 0 } }

/-- What others see of the session. -/
def status (s : Session) : SessionStatus :=
  { phase := s.phase
    wait := s.wait
    imageSize := s.transfer.imageSize
    transferred := s.transfer.offset
    error := s.error
    finished := s.finished }

/-- The progress to report. -/
def progress (s : Session) : Progress :=
  { phase := s.phase
    wait := s.wait
    error := s.error
    imageSize := s.transfer.imageSize
    transferred := s.transfer.offset }

/-- How the upgrade ended, or stands. -/
def outcome (s : Session) : Except UpgradeError Unit :=
  match s.error with
  | some e => .error e
  | none => .ok ()

/-- Keeps the first error, with the phase it arose in. -/
def recordError (s : Session) (cause : Cause) : Session :=
  if s.error.isSome then s else { s with error := some ⟨s.phase, cause⟩ }

/-- Moves to a phase, waiting for nothing yet. -/
def goto (s : Session) (phase : Phase) : Session :=
  { s with phase, wait := .nothing }

/-- Gives up the timeout outstanding. -/
def cancelTimer (s : Session) : Session :=
  { s with timer := s.timer.cancel }

/-- Arms a fresh timeout for the phase. -/
def armTimer (s : Session) : Session :=
  { s with timer := s.timer.arm s.config.timeouts s.phase }

/-- Nothing more to do. -/
def stay (s : Session) (effects : List Effect := []) : Turn :=
  { session := s, effects }

/-- On to a phase. -/
def moveTo (s : Session) (next : Phase) : Turn :=
  { session := s, reaction := .enter next }

/-- On to a phase with an error. -/
def failTo (s : Session) (cause : Cause) (next : Phase) : Turn :=
  { session := s, reaction := .fail cause next }

/-- The session breaks down. -/
def crashed (s : Session) (crash : Crash) : Turn :=
  { session := s, reaction := .crash crash }

/-- Asks something of the device, and breaks down if its driver does. -/
def ask (s : Session) (d : Device) (c : DeviceCall) : Turn :=
  { session := s
    effects := [.call c]
    reaction := if c ∈ d.breaksOn then .crash .device else .stay }

/-- Writes a command to the control point and waits for the write. -/
def sendCommand (s : Session) (d : Device) (c : Command) : Turn :=
  ({ s with wait := .write } : Session).ask d (.write .controlPoint c.encode)

end Session

namespace Turn

/-- The same turn with effects in front. -/
def after (t : Turn) (effects : List Effect) : Turn :=
  { t with effects := effects ++ t.effects }

/-- The crash that ended the turn. -/
def crash? (t : Turn) : Option Crash :=
  match t.reaction with
  | .crash c => some c
  | _ => none

end Turn
end OtaUpgrade
