import OtaUpgrade.Protocol.Service

/-!
What can go wrong between the session and the device.
-/
namespace OtaUpgrade

/-- The failure of one link operation. -/
inductive LinkError where
  | connectFailed (reason : String)
  | notConnected
  | disconnected
  | characteristicNotFound (c : Characteristic)
  | writeFailed (reason : String)
  | readFailed (reason : String)
  | crypto (reason : String)
  /-- The worker that runs the link's operations is gone. -/
  | linkClosed
  | timeout (ms : Nat)
  deriving DecidableEq, Repr

namespace LinkError

/-- The failure's name in one word. -/
def label : LinkError → String
  | connectFailed _ => "ConnectFailed"
  | notConnected => "NotConnected"
  | disconnected => "Disconnected"
  | characteristicNotFound _ => "CharacteristicNotFound"
  | writeFailed _ => "WriteFailed"
  | readFailed _ => "ReadFailed"
  | crypto _ => "Crypto"
  | linkClosed => "LinkClosed"
  | timeout _ => "Timeout"

/-- The wording of the failure. -/
def message : LinkError → String
  | connectFailed reason => s!"Connection failed: {reason}"
  | notConnected => "Not connected"
  | disconnected => "Device disconnected"
  | characteristicNotFound c => s!"Characteristic not found: {c.name}"
  | writeFailed reason => s!"Write failed: {reason}"
  | readFailed reason => s!"Read failed: {reason}"
  | crypto reason => s!"Tunnel crypto failed: {reason}"
  | linkClosed => "Link worker stopped"
  | timeout ms => s!"Timeout after {ms}ms"

/-- The operation took too long. -/
def isTimeout : LinkError → Bool
  | timeout _ => true
  | _ => false

end LinkError
end OtaUpgrade
