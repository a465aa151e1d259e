import OtaUpgrade.Manager
import OtaUpgrade.Session.ClosedLoop

/-!
A whole upgrade of a device behind an adapter: the manager starts the session, the loop is played
out, and the adapter's worker runs out of jobs.
-/
namespace OtaUpgrade.Manager

variable {σ : Type} [Link σ]

/-- Upgrades the device behind an adapter. `known` is what the mesh core knows of the device, and
`notices` how many notices the device may raise besides those of a peripheral. -/
def upgrade (m : Manager) (adapter : Adapter σ) (image : Option Image) (mode : Mode)
    (known : Option ComponentMetadata) (notices : Nat) :
    Except UpgradeError (Manager × Option (ClosedLoop σ)) :=
  match m.start ({ device := some adapter.device } : Selector) image mode with
  | .error e => .error e
  | .ok (m, _) =>
    .ok <| m.withNewest fun host =>
      let l : ClosedLoop σ := { host, adapter }
      let l := (l.playOut known (l.moveLimit notices)).drain
      (l.host, l)

end OtaUpgrade.Manager
