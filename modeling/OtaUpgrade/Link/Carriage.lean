import OtaUpgrade.Link.Basic
import OtaUpgrade.Session.Device
import OtaUpgrade.Session.Event
import OtaUpgrade.Tunnel

/-!
How the calls of a session are carried to a link, plainly or through a tunnel, and the event by which
each call is completed.
-/
namespace OtaUpgrade

namespace DeviceCall

/-- The event that completes a call that failed. -/
def failure (call : DeviceCall) (error : LinkError) : Event :=
  match call with
  | .connect | .disconnect => .connection false (some error)
  | .discover => .service none (some error)
  | .enableNotifications _ => .notifications false (some error)
  | .write channel _ => .written channel (.failed error)
  | .read channel => .value channel none (some error)

/-- The event that completes a call, unless the driver broke down within it. -/
def completion? {α : Type} (call : DeviceCall) (answer : Answer α) (success : α → Event) :
    Option Event :=
  match answer with
  | .ok value => some (success value)
  | .failed e => some (call.failure e)
  | .crash => none

end DeviceCall

/-- How payloads are carried. -/
inductive Carriage where
  | plain
  /-- Through the tunnel to the node with this address. -/
  | tunnel (near : TunnelEnd) (address : UInt16)
  deriving DecidableEq, Repr

namespace Carriage

/-- Through a fresh tunnel under a key. -/
def tunnelTo (address : UInt16) (key : SecretKey) : Carriage :=
  .tunnel { key, direction := .toNode } address

/-- Bytes added to each payload. -/
def overhead : Carriage → Nat
  | plain => 0
  | tunnel _ _ => TunnelEnd.overhead

/-- The route that the session is told. -/
def route : Carriage → Route
  | plain => .direct
  | tunnel _ _ => .meshTunnel

/-- The address of the node at the far end. -/
def meshAddress : Carriage → Option UInt16
  | plain => none
  | tunnel _ address => some address

/-- A payload on its way to the device. -/
def outgoing (c : Carriage) (payload : Bytes) : Bytes × Carriage :=
  match c with
  | plain => (payload, plain)
  | tunnel near address => (near.wrap payload, tunnel near.advance address)

/-- A payload on its way from the device. -/
def incoming (c : Carriage) (payload : Bytes) : Except LinkError Bytes :=
  match c with
  | plain => .ok payload
  | tunnel near _ => near.unwrap payload

/-- A response on its way from the device. -/
def incomingResponse (c : Carriage) (response : Option Bytes) : Answer (Option Bytes) :=
  match response with
  | none => .ok none
  | some payload => (Answer.ofExcept (c.incoming payload)).map some

/-- The event that tells of a notice. -/
def noticed (c : Carriage) : Notice → Event
  | .disconnected => .connection false (some .disconnected)
  | .indication channel payload =>
    match c.incoming payload with
    | .ok value => .value channel (some value) none
    | .error e => .value channel none (some e)

/-- Makes a call on a link. There is no completion if the link's driver breaks down. -/
def perform {σ : Type} [Link σ] (c : Carriage) (link : σ) (call : DeviceCall) :
    Option Event × Carriage × σ :=
  match call with
  | .connect =>
    let (answer, link) := Link.connect link
    (call.completion? answer fun _ => .connection true none, c, link)
  | .disconnect =>
    let (answer, link) := Link.disconnect link
    (call.completion? answer fun _ => .connection false none, c, link)
  | .discover =>
    let (answer, link) := Link.discover link
    (call.completion? answer fun variant => .service variant none, c, link)
  | .enableNotifications enabled =>
    let (answer, link) := Link.setNotify link .controlPoint enabled
    (call.completion? answer fun state => .notifications state none, c, link)
  | .write channel data =>
    let (payload, c) := c.outgoing data
    let (answer, link) := Link.write link channel payload
    (call.completion? (answer.bind c.incomingResponse) fun response =>
      .written channel (.ok response), c, link)
  | .read channel =>
    let (answer, link) := Link.read link channel
    (call.completion? (answer.bind fun payload => Answer.ofExcept (c.incoming payload)) fun value =>
      .value channel (some value) none, c, link)

end Carriage
end OtaUpgrade
