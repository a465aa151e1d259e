import OtaUpgrade.Session.Host

/-!
The manager starts upgrades, one at a time. The sessions that it started share one guard; an upgrade
that is asked for while another is unfinished is rejected, and takes no device from the selector.

A session that is admitted always starts. That the system may have nothing left to run it on is left
out: `start` never fails with `Cause.sessionUnavailable`.
-/
namespace OtaUpgrade

/-- Supplies the device to upgrade, if there is one; asking may change what it supplies next. -/
class DeviceSelector (σ : Type) where
  select : σ → Option Device × σ

/-- Hands out one device, once. -/
structure Selector where
  device : Option Device := none
  deriving DecidableEq, Repr

instance : DeviceSelector Selector where
  select selector := (selector.device, {})

/-- The manager with the sessions it started, oldest first. -/
structure Manager where
  config : Config := {}
  collaborators : Collaborators := {}
  /-- Shared by all sessions. -/
  guard : Guard := {}
  sessions : Array Host := #[]

namespace Manager

/-- What the newest session shows. -/
def activeStatus? (m : Manager) : Option SessionStatus :=
  m.sessions.back?.map Host.status

/-- The newest session is unfinished, for all one can see. -/
def busy (m : Manager) : Bool :=
  m.activeStatus?.any fun status => !status.finished

/-- A new session, with the request to begin in its inbox. -/
def opening (m : Manager) (device : Option Device) (image : Option Image) (mode : Mode) : Host :=
  { session := Session.fresh m.config mode image device m.collaborators m.guard
    inbox := { waiting := [.start] } }

/-- Asks for an upgrade of the device that the selector supplies. Only another upgrade that is not
finished stands against it. -/
def start {σ : Type} [DeviceSelector σ] (m : Manager) (selector : σ) (image : Option Image)
    (mode : Mode) : Except UpgradeError (Manager × σ) :=
  match m.activeStatus?.filter fun status => !status.finished with
  | some status => .error ⟨status.phase, .busy⟩
  | none =>
    let (device, selector) := DeviceSelector.select selector
    .ok ({ m with sessions := m.sessions.push (m.opening device image mode) }, selector)

/-- Lets a session do something, under the shared guard. -/
def withSession {α : Type} (m : Manager) (index : Nat) (act : Host → Host × α) :
    Manager × Option α :=
  if h : index < m.sessions.size then
    let host := m.sessions[index]
    let (host, a) := act { host with session := { host.session with guard := m.guard } }
    ({ m with guard := host.session.guard, sessions := m.sessions.set index host }, some a)
  else
    (m, none)

/-- Lets the newest session do something. -/
def withNewest {α : Type} (m : Manager) (act : Host → Host × α) : Manager × Option α :=
  m.withSession (m.sessions.size - 1) act

/-- Everything the sessions have done, oldest session first. -/
def history (m : Manager) : List Effect :=
  m.sessions.toList.flatMap fun host => host.trace.toList

end Manager
end OtaUpgrade
