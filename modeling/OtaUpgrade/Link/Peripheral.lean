import OtaUpgrade.Checksum.Crc32
import OtaUpgrade.Link.Basic
import OtaUpgrade.Protocol.Command
import OtaUpgrade.Protocol.Identity
import OtaUpgrade.Protocol.Status

/-!
A simulated peripheral. It speaks the command protocol, checks the announced size and the checksum
on verification, keeps a log of what it saw, and can show the faults of real peripherals.
-/
namespace OtaUpgrade

/-- How a peripheral behaves. -/
structure PeripheralSetup where
  /-- The service it has, if any. -/
  variant : Option Variant := some .current
  mtu : Nat := 23
  appInfo : Option AppInfo := none
  /-- Drops the link instead of answering a verification that succeeds. -/
  rebootsOnVerify : Bool := false
  /-- Answers this command with this status, and does nothing. -/
  rejects : Option (Opcode × Status) := none
  /-- Refuses the data write with this number, counted from zero. -/
  failsDataWrite : Option Nat := none
  /-- Answers commands by indications instead of at once. -/
  indicates : Bool := false
  refusesConnection : Bool := false
  deriving DecidableEq, Repr

/-- What a peripheral saw. -/
structure PeripheralLog where
  connected : Bool := false
  connects : Nat := 0
  disconnects : Nat := 0
  notifying : Bool := false
  commands : Array Command := #[]
  /-- Length of each data write accepted. -/
  dataWrites : Array Nat := #[]
  received : Array UInt8 := #[]
  announcedSize : Option UInt32 := none
  verifiedCrc : Option UInt32 := none
  aborted : Bool := false
  deriving DecidableEq, Repr

/-- A peripheral with its log and the notices not yet taken. -/
structure Peripheral where
  setup : PeripheralSetup := {}
  log : PeripheralLog := {}
  notices : List Notice := []
  deriving DecidableEq, Repr

namespace PeripheralLog

/-- Forgets the download before. -/
def prepared (log : PeripheralLog) : PeripheralLog :=
  { log with received := #[], announcedSize := none, verifiedCrc := none }

/-- The link is down. -/
def dropped (log : PeripheralLog) : PeripheralLog :=
  { log with connected := false, disconnects := log.disconnects + 1 }

/-- What is wrong with the bytes received, as a status; `success` if they have the announced size
and the checksum. -/
def verdict (log : PeripheralLog) (crc : UInt32) : Status :=
  match log.announcedSize with
  | none => .invalidState
  | some size =>
    if log.received.size ≠ size.toNat then .invalidImageSize
    else if Crc32.ofBytes log.received.toList ≠ crc then .invalidCrc
    else .success

end PeripheralLog

namespace Peripheral

/-- The peripheral with another log. -/
def withLog (p : Peripheral) (log : PeripheralLog) : Peripheral :=
  { p with log }

/-- Verifies the download. A peripheral that reboots stays silent and is gone. -/
def verify (p : Peripheral) (crc : UInt32) : Option Status × Peripheral :=
  match p.log.verdict crc with
  | .success =>
    let log := { p.log with verifiedCrc := some crc }
    if p.setup.rebootsOnVerify then
      (none, { p with log := log.dropped, notices := p.notices ++ [.disconnected] })
    else
      (some .success, p.withLog log)
  | status => (some status, p)

/-- Obeys a command; without a status the peripheral stays silent. -/
def obey (p : Peripheral) (c : Command) : Option Status × Peripheral :=
  match c.opcode, c.params with
  | .prepareDownload, _ => (some .success, p.withLog p.log.prepared)
  | .startDownload, .long size =>
    (some .success, p.withLog { p.log with announcedSize := some size })
  | .verify, .long crc => p.verify crc
  | .abort, _ => (some .success, p.withLog { p.log with aborted := true })
  | .startDownload, _ | .verify, _ => (some .invalidParameter, p)
  | _, _ => (some .success, p)

/-- Executes what was written to the control point. -/
def execute (p : Peripheral) (payload : Bytes) : Option Status × Peripheral :=
  match Command.decode payload with
  | .error _ => (some .invalidParameter, p)
  | .ok c =>
    let p := p.withLog { p.log with commands := p.log.commands.push c }
    match p.setup.rejects with
    | some (opcode, status) => if opcode = c.opcode then (some status, p) else p.obey c
    | none => p.obey c

/-- Why a call on a channel is refused: the link is down, or the service lacks the channel. -/
def refusal? (p : Peripheral) (channel : Characteristic) : Option LinkError :=
  if !p.log.connected then some .notConnected
  else if p.setup.variant.any fun v => v.has channel then none
  else some (.characteristicNotFound channel)

/-- Takes a command and answers it, at once or by an indication. -/
def writeCommand (p : Peripheral) (payload : Bytes) : Answer (Option Bytes) × Peripheral :=
  match p.execute payload with
  | (none, p) => (.ok none, p)
  | (some status, p) =>
    let response : Bytes := [status.byte]
    if !p.setup.indicates then (.ok (some response), p)
    else if p.log.notifying then
      (.ok none, { p with notices := p.notices ++ [.indication .controlPoint response] })
    else
      (.ok none, p)

/-- Takes a chunk. -/
def writeData (p : Peripheral) (chunk : Bytes) : Answer (Option Bytes) × Peripheral :=
  let index := p.log.dataWrites.size
  if p.log.announcedSize.isNone then (.failed (.writeFailed "download not started"), p)
  else if p.setup.failsDataWrite = some index then
    (.failed (.writeFailed s!"chunk {index} rejected"), p)
  else
    (.ok none,
      p.withLog
        { p.log with
          dataWrites := p.log.dataWrites.push chunk.length
          received := p.log.received ++ chunk })

instance : Link Peripheral where
  connect p :=
    if p.setup.refusesConnection then (.failed (.connectFailed "peer refused"), p)
    else (.ok (), p.withLog { p.log with connected := true, connects := p.log.connects + 1 })
  disconnect p :=
    let log := if p.log.connected then p.log.dropped else p.log
    (.ok (), p.withLog { log with notifying := false })
  discover p :=
    if p.log.connected then (.ok p.setup.variant, p) else (.failed .notConnected, p)
  setNotify p channel enabled :=
    match p.refusal? channel with
    | some e => (.failed e, p)
    | none => (.ok enabled, p.withLog { p.log with notifying := enabled })
  write p channel payload :=
    match p.refusal? channel with
    | some e => (.failed e, p)
    | none =>
      match channel with
      | .controlPoint => p.writeCommand payload
      | .data => p.writeData payload
      | .appInfo => (.failed (.writeFailed "app info is read-only"), p)
  read p channel :=
    match p.refusal? channel with
    | some e => (.failed e, p)
    | none =>
      match channel, p.setup.appInfo with
      | .appInfo, some info => (.ok info.encode, p)
      | _, _ => (.failed (.readFailed s!"{channel.name} not readable"), p)
  mtu p := p.setup.mtu
  takeNotices p := (p.notices, { p with notices := [] })

end Peripheral
end OtaUpgrade
