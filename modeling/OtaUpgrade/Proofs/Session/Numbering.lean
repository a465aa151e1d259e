import Mathlib
import OtaUpgrade.Proofs.Session.Proceed

/-!
The numbers of timeouts. A regular timer has given out the numbers from one to the count of its
timeouts, the outstanding one has the last of them, and every timeout is accounted for. `Later` says
what can have become of a timer: what is armed was armed before, or has a number never seen till
then.
-/
namespace OtaUpgrade.Timer

/-- The books of a timer are in order. -/
structure Regular (t : Timer) : Prop where
  balanced : t.Balanced
  numbered : t.lastId = t.scheduled
  latest : ∀ x, t.armed = some x → x.id = t.lastId

/-- Some time later. -/
structure Later (t t' : Timer) : Prop where
  lastId_le : t.lastId ≤ t'.lastId
  armed : ∀ x, t'.armed = some x → t.armed = some x ∨ t.lastId < x.id

@[simp] theorem lastId_cancel (t : Timer) : t.cancel.lastId = t.lastId := by
  unfold cancel
  cases t.armed <;> rfl

@[simp] theorem scheduled_cancel (t : Timer) : t.cancel.scheduled = t.scheduled := by
  unfold cancel
  cases t.armed <;> rfl

theorem arm_eq {t : Timer} {timeouts : Timeouts} {p : Phase} {ms : Nat}
    (h : timeouts.duration? p = some ms) :
    t.arm timeouts p =
      { t.cancel with
        armed := some { id := t.lastId + 1, phase := p, ms }
        lastId := t.lastId + 1
        scheduled := t.scheduled + 1 } := by
  unfold arm
  rw [h]
  simp

theorem arm_of_none {t : Timer} {timeouts : Timeouts} {p : Phase}
    (h : timeouts.duration? p = none) : t.arm timeouts p = t.cancel := by
  unfold arm
  rw [h]

theorem Regular.start : Regular {} := ⟨rfl, rfl, nofun⟩

theorem Regular.cancel {t : Timer} (h : t.Regular) : t.cancel.Regular where
  balanced := h.balanced.cancel
  numbered := by simpa using h.numbered
  latest := by simp

theorem Regular.arm {t : Timer} (h : t.Regular) (timeouts : Timeouts) (p : Phase) :
    (t.arm timeouts p).Regular := by
  cases hd : timeouts.duration? p with
  | none =>
    rw [arm_of_none hd]
    exact h.cancel
  | some ms =>
    refine ⟨h.balanced.arm timeouts p, ?_, ?_⟩
    · rw [arm_eq hd]
      exact congrArg (· + 1) h.numbered
    · rw [arm_eq hd]
      intro x hx
      cases hx
      rfl

/-- Firing accounts for the timeout that was armed. -/
theorem Regular.fire {t : Timer} (h : t.Regular) (ha : t.armed.isSome = true) :
    t.fire.Regular := by
  refine ⟨?_, h.numbered, nofun⟩
  have hb := h.balanced
  unfold Balanced at hb ⊢
  rw [if_pos ha] at hb
  simp only [Timer.fire, Option.isSome_none, Bool.false_eq_true, if_false]
  omega

theorem isSome_of_due {t : Timer} {id : Nat} {x : Timeout} (h : t.due? id = some x) :
    t.armed.isSome = true := by
  rw [due?, Option.filter_eq_some_iff] at h
  rw [h.1]
  rfl

theorem Later.refl (t : Timer) : Later t t := ⟨Nat.le_refl _, fun _ hx => .inl hx⟩

theorem Later.trans {a b c : Timer} (h : Later a b) (h' : Later b c) : Later a c where
  lastId_le := Nat.le_trans h.lastId_le h'.lastId_le
  armed x hx := by
    rcases h'.armed x hx with hb | hlt
    · exact h.armed x hb
    · exact .inr (Nat.lt_of_le_of_lt h.lastId_le hlt)

theorem Later.cancel (t : Timer) : Later t t.cancel := ⟨by simp, by simp⟩

theorem Later.fire (t : Timer) : Later t t.fire := ⟨Nat.le_refl _, nofun⟩

theorem Later.arm (t : Timer) (timeouts : Timeouts) (p : Phase) : Later t (t.arm timeouts p) := by
  cases hd : timeouts.duration? p with
  | none =>
    rw [arm_of_none hd]
    exact .cancel t
  | some ms =>
    rw [arm_eq hd]
    refine ⟨Nat.le_succ _, fun x hx => ?_⟩
    cases hx
    exact .inr (Nat.lt_succ_self _)

/-- A timeout that is no longer armed is not armed again, and every later one has a larger
number. -/
theorem Later.lt_of_gone {a b c : Timer} (hr : a.Regular) (h : Later a b) (h' : Later b c)
    {x y : Timeout} (hx : a.armed = some x) (hgone : b.armed ≠ some x) (hy : c.armed = some y) :
    x.id < y.id := by
  have hlast := hr.latest x hx
  -- armed since `a`, `y` would be `x`, which is gone
  rcases h'.armed y hy with hb | hlt
  · rcases h.armed y hb with ha | hlt
    · obtain rfl : x = y := Option.some.inj (hx.symm.trans ha)
      exact absurd hb hgone
    · omega
  · have := h.lastId_le
    omega

end OtaUpgrade.Timer
