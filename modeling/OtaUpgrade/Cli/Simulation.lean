import OtaUpgrade.Cli.Arguments
import OtaUpgrade.Link.Peripheral
import OtaUpgrade.Link.Sealed
import OtaUpgrade.Upgrade

/-!
The upgrade of a simulated peripheral, reached directly or through a mesh node, and what there is to
see afterwards.
-/
namespace OtaUpgrade.Cli

/-- The peripheral that the options describe. -/
def SimulateOptions.peripheral (o : SimulateOptions) : Peripheral :=
  { setup :=
      { variant := some (if o.legacy then .legacy else .current)
        mtu := o.mtu
        appInfo := some { vendorId := 0x0211, productId := 0x0001, version := 0x00010000 }
        rebootsOnVerify := o.rebootOnVerify
        indicates := o.indicate } }

/-- What the mesh core knows of the node. -/
def meshNode : ComponentMetadata :=
  { companyId := 0x0211, productId := 0x0001, versionId := 1 }

/-- What is left of an upgrade. -/
structure Simulation where
  /-- What the sessions did, in order. -/
  history : List Effect
  /-- What the peripheral saw. -/
  log : PeripheralLog
  outcome : Except UpgradeError Unit

namespace Simulation

/-- Upgrades the peripheral behind an adapter; `log` finds its log in the link. -/
def through {σ : Type} [Link σ] (c : Config) (image : Image) (mode : Mode) (adapter : Adapter σ)
    (log : σ → PeripheralLog) : Except UpgradeError Simulation :=
  let manager : Manager :=
    { config := c, collaborators := { meshCore := true, orchestrator := true } }
  match manager.upgrade adapter (some image) mode (some meshNode) 0 with
  | .error e => .error e
  | .ok (manager, loop) =>
    .ok
      { history := manager.history
        log := (loop.map fun l => log l.adapter.link).getD {}
        outcome := (loop.map fun l => l.host.outcome).getD (.error ⟨.idle, .aborted⟩) }

/-- Upgrades a peripheral that is reached directly. -/
def direct (c : Config) (image : Image) (mode : Mode) (p : Peripheral) :
    Except UpgradeError Simulation :=
  through c image mode { name := "sim-peripheral", carriage := .plain, link := p } fun p => p.log

/-- Upgrades a peripheral behind a mesh node. -/
def tunnelled (c : Config) (image : Image) (mode : Mode) (p : Peripheral) (address : UInt16)
    (key : SecretKey) : Except UpgradeError Simulation :=
  through c image mode
    { name := "sim-node", carriage := .tunnelTo address key, link := SealedLink.ofKey key p }
    fun l => l.inner.log

end Simulation
end OtaUpgrade.Cli
