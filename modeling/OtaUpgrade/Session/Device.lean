import OtaUpgrade.Protocol.Service

/-!
What a session knows of its device and what it can ask of it. A call returns at once; its outcome
is told to the session later, as an event.

A driver may break down in a call (`Device.breaksOn`). One that breaks down in being bound to a
session, in being let go, or in telling its packet size or its overhead is left out.
-/
namespace OtaUpgrade

/-- The way on which the device is reached. -/
inductive Route where
  | direct
  | meshTunnel
  deriving DecidableEq, Repr

/-- The route's name in messages. -/
def Route.name : Route → String
  | direct => "direct"
  | meshTunnel => "mesh-tunnel"

/-- Something asked of the device. -/
inductive DeviceCall where
  | connect
  | disconnect
  | discover
  | enableNotifications (enabled : Bool)
  | write (channel : Characteristic) (data : Bytes)
  | read (channel : Characteristic)
  deriving DecidableEq, Repr

/-- A device as the session sees it. -/
structure Device where
  name : String
  /-- Most bytes of a packet on the link. -/
  mtu : Nat := 23
  /-- Bytes that the route adds to each payload. -/
  overhead : Nat := 0
  route : Route := .direct
  meshAddress : Option UInt16 := none
  /-- Calls in which the device's driver breaks down. Whatever else is done with the device goes
  through. -/
  breaksOn : List DeviceCall := []
  deriving DecidableEq, Repr

/-- The unicast address to ask the mesh core about, for a device behind the mesh. -/
def Device.nodeAddress? (d : Device) : Option UInt16 :=
  match d.route with
  | .direct => none
  | .meshTunnel => d.meshAddress

end OtaUpgrade
