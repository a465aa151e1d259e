import OtaUpgrade.Session.Phase

/-!
The one timeout a session may have outstanding. Arming cancels what was armed before; an expiry
counts only under the number of the timeout that is armed. Every timeout that was armed is counted
as cancelled, as fired, or is armed still (`Timer.Balanced`). Numbers and counts have no limit here.
-/
namespace OtaUpgrade

/-- How long the steps of an upgrade may take, in milliseconds. -/
structure Timeouts where
  /-- Commands, notification setup, reads and chunks. -/
  baseMs : Nat := 5000
  /-- Service discovery and verification. -/
  extendedMs : Nat := 10000
  /-- Finding the device and connecting. -/
  connectMs : Nat := 15000
  deriving DecidableEq, Repr

/-- How long a session may wait in a phase; the first and the last phase wait for nothing. -/
def Timeouts.duration? (t : Timeouts) : Phase → Option Nat
  | .idle | .complete => none
  | .connect => some t.connectMs
  | .serviceDiscover | .verify => some t.extendedMs
  | _ => some t.baseMs

/-- An armed timeout: its number, the phase it was armed in and its duration. -/
structure Timeout where
  id : Nat
  phase : Phase
  ms : Nat
  deriving DecidableEq, Repr

/-- The timeout outstanding, the last number given out, and what became of all timeouts. -/
structure Timer where
  armed : Option Timeout := none
  lastId : Nat := 0
  scheduled : Nat := 0
  cancelled : Nat := 0
  fired : Nat := 0
  deriving DecidableEq, Repr

namespace Timer

/-- Gives up the timeout outstanding, if there is one. -/
def cancel (t : Timer) : Timer :=
  match t.armed with
  | none => t
  | some _ => { t with armed := none, cancelled := t.cancelled + 1 }

/-- Arms a fresh timeout for a phase, in place of the one outstanding. -/
def arm (t : Timer) (timeouts : Timeouts) (phase : Phase) : Timer :=
  let t := t.cancel
  match timeouts.duration? phase with
  | none => t
  | some ms =>
    { t with
      armed := some { id := t.lastId + 1, phase, ms }
      lastId := t.lastId + 1
      scheduled := t.scheduled + 1 }

/-- The timeout outstanding, if it has this number. -/
def due? (t : Timer) (id : Nat) : Option Timeout :=
  t.armed.filter fun timeout => timeout.id == id

/-- Counts the timeout outstanding as fired. -/
def fire (t : Timer) : Timer :=
  { t with armed := none, fired := t.fired + 1 }

/-- Every timeout is accounted for once. -/
def Balanced (t : Timer) : Prop :=
  t.scheduled = t.cancelled + t.fired + (if t.armed.isSome then 1 else 0)

@[simp] theorem armed_cancel (t : Timer) : t.cancel.armed = none := by
  unfold cancel
  cases h : t.armed <;> simp [h]

theorem Balanced.cancel {t : Timer} (h : t.Balanced) : t.cancel.Balanced := by
  unfold Balanced Timer.cancel at *
  cases ha : t.armed <;> simp_all
  omega

theorem Balanced.arm {t : Timer} (h : t.Balanced) (timeouts : Timeouts) (phase : Phase) :
    (t.arm timeouts phase).Balanced := by
  have hc := h.cancel
  unfold Timer.arm
  cases timeouts.duration? phase with
  | none => exact hc
  | some ms =>
    unfold Balanced at *
    simp_all

end Timer
end OtaUpgrade
