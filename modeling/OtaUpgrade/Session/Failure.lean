import OtaUpgrade.Protocol.Command
import OtaUpgrade.Protocol.Status
import OtaUpgrade.Session.Phase

/-!
Why an upgrade fails. Each cause has a stable number, belongs to one category and has one wording;
an upgrade's error is a cause with the phase in which it arose.
-/
namespace OtaUpgrade

/-- Groups of causes. -/
inductive Category where
  | connection
  | protocol
  | data
  | resource
  | procedural
  deriving DecidableEq, Repr

/-- The category's name. -/
def Category.label : Category → String
  | connection => "Connection"
  | protocol => "Protocol"
  | data => "Data"
  | resource => "Resource"
  | procedural => "Procedural"

/-- Why an upgrade fails. -/
inductive Cause where
  | connectionTimeout
  | connectFailed (reason : String)
  | disconnected
  | upgradeNotSupported
  | notificationsFailed (reason : String)
  | commandRejected (command : Opcode) (status : Status)
  | commandFailed (command : Opcode) (reason : String)
  | invalidImage (reason : String)
  | verificationFailed (status : Status)
  | transferFailed (imageSize offset : Nat) (reason : String)
  | noDevice
  | noImage
  | invalidMtu (mtu : Nat)
  /-- There was nothing to run the session on. No manager comes upon that here. -/
  | sessionUnavailable (reason : String)
  | busy
  | timeout (awaited : String)
  | aborted
  | abortedForDfu
  deriving DecidableEq, Repr

namespace Cause

/-- The number under which a cause is reported. -/
def code : Cause → Nat
  | connectionTimeout => 0x0101
  | connectFailed _ => 0x0102
  | disconnected => 0x0103
  | upgradeNotSupported => 0x0201
  | notificationsFailed _ => 0x0202
  | commandFailed _ _ => 0x0203
  | commandRejected _ status => 0x0280 + status.byte.toNat
  | invalidImage _ => 0x0301
  | verificationFailed _ => 0x0302
  | transferFailed _ _ _ => 0x0303
  | noDevice => 0x0401
  | noImage => 0x0402
  | invalidMtu _ => 0x0403
  | sessionUnavailable _ => 0x0404
  | busy => 0x0501
  | timeout _ => 0x0502
  | aborted => 0x0503
  | abortedForDfu => 0x0504

/-- The group a cause belongs to. -/
def category : Cause → Category
  | connectionTimeout | connectFailed _ | disconnected => .connection
  | upgradeNotSupported | notificationsFailed _ | commandRejected _ _ | commandFailed _ _ =>
    .protocol
  | invalidImage _ | verificationFailed _ | transferFailed _ _ _ => .data
  | noDevice | noImage | invalidMtu _ | sessionUnavailable _ => .resource
  | busy | timeout _ | aborted | abortedForDfu => .procedural

/-- The cause's name in one word. -/
def label : Cause → String
  | connectionTimeout => "ConnectionTimeout"
  | connectFailed _ => "ConnectFailed"
  | disconnected => "Disconnected"
  | upgradeNotSupported => "UpgradeNotSupported"
  | notificationsFailed _ => "NotificationsFailed"
  | commandRejected _ _ => "CommandRejected"
  | commandFailed _ _ => "CommandFailed"
  | invalidImage _ => "InvalidImage"
  | verificationFailed _ => "VerificationFailed"
  | transferFailed _ _ _ => "TransferFailed"
  | noDevice => "NoDevice"
  | noImage => "NoImage"
  | invalidMtu _ => "InvalidMtu"
  | sessionUnavailable _ => "SessionUnavailable"
  | busy => "Busy"
  | timeout _ => "Timeout"
  | aborted => "Aborted"
  | abortedForDfu => "AbortedForDfu"

/-- The wording of a cause. -/
def text : Cause → String
  | connectionTimeout => "connection timed out"
  | connectFailed reason => s!"connection failed: {reason}"
  | disconnected => "device disconnected unexpectedly"
  | upgradeNotSupported => "device does not support upgrade"
  | notificationsFailed reason => s!"failed to enable notifications: {reason}"
  | commandRejected command status => s!"device rejected {command.name}: {status.text}"
  | commandFailed command reason => s!"{command.name} failed: {reason}"
  | invalidImage reason => s!"invalid firmware image: {reason}"
  | verificationFailed status => s!"verification failed: {status.text}"
  | transferFailed imageSize offset reason =>
    s!"data write failed at offset {offset} of {imageSize}: {reason}"
  | noDevice => "no target device"
  | noImage => "no firmware image"
  | invalidMtu mtu => s!"transport MTU {mtu} leaves no room for firmware data"
  | sessionUnavailable reason => s!"could not start session: {reason}"
  | busy => "another upgrade is already running"
  | timeout awaited => s!"timed out waiting for {awaited}"
  | aborted => "upgrade aborted"
  | abortedForDfu => "upgrade aborted for mesh DFU"

end Cause

/-- The error of an upgrade: the phase it arose in and its cause. -/
structure UpgradeError where
  phase : Phase
  cause : Cause
  deriving DecidableEq, Repr

namespace UpgradeError

/-- The number of the error's cause. -/
def code (e : UpgradeError) : Nat := e.cause.code

/-- The wording of the error. -/
def text (e : UpgradeError) : String :=
  s!"{e.cause.text} (in {e.phase.name})"

end UpgradeError
end OtaUpgrade
