import Mathlib
import OtaUpgrade.Proofs.Session.CallScript
import OtaUpgrade.Proofs.Session.Indifferent
import OtaUpgrade.Proofs.Session.Numbering

/-!
The numbers of timeouts mean nothing but which timeout is which. Two sessions that differ only in
their identities and in how far their timeouts are numbered go on alike for ever, if each is told
its own numbers (`Indifference.Sessions.run_renamed`).
-/
namespace OtaUpgrade

/-- The timeout under another number. -/
def Timeout.renamed (ρ : Nat → Nat) (x : Timeout) : Timeout :=
  { x with id := ρ x.id }

/-- The event with the number of its timeout changed. -/
def Event.renamed (ρ : Nat → Nat) : Event → Event
  | .timeout id => .timeout (ρ id)
  | e => e

/-- The number last given out, and all that come after it, are counted from another number; the ones
before belong to timeouts that are gone, and so they do afterwards. -/
structure Renumbers (ρ : Nat → Nat) (last last' : Nat) : Prop where
  later : ∀ k, ρ (last + k) = last' + k
  earlier : ∀ id < last, ρ id < last'

namespace Renumbers

variable {ρ : Nat → Nat} {last last' : Nat}

theorem last_eq (h : Renumbers ρ last last') : ρ last = last' := h.later 0

theorem succ (h : Renumbers ρ last last') : Renumbers ρ (last + 1) (last' + 1) where
  later k := by
    rw [Nat.add_assoc, h.later, Nat.add_assoc]
  earlier id hid := by
    rcases Nat.lt_succ_iff_lt_or_eq.mp hid with hid | rfl
    · exact Nat.lt_succ_of_lt (h.earlier id hid)
    · rw [h.last_eq]
      exact Nat.lt_succ_self _

/-- The last number is no other's. -/
theorem eq_iff (h : Renumbers ρ last last') (id : Nat) : ρ last = ρ id ↔ last = id := by
  refine ⟨fun heq => ?_, congrArg ρ⟩
  rw [h.last_eq] at heq
  rcases Nat.lt_or_ge id last with hlt | hge
  · have := h.earlier id hlt
    omega
  · obtain ⟨k, rfl⟩ := Nat.exists_eq_add_of_le hge
    rw [h.later k] at heq
    omega

/-- Numbers can be counted from any other but zero. -/
theorem exists_of_pos (last : Nat) (h : 0 < last') : ∃ ρ, Renumbers ρ last last' := by
  refine ⟨fun id => if id < last then 0 else last' + (id - last), fun k => ?_, fun id hid => ?_⟩
  · rw [if_neg (by omega), Nat.add_sub_cancel_left]
  · rw [if_pos hid]
    exact h

end Renumbers

namespace Timer

/-- The same timeout is outstanding, under the number that stands for its own. -/
structure Renamed (ρ : Nat → Nat) (t t' : Timer) : Prop where
  numbers : Renumbers ρ t.lastId t'.lastId
  latest : ∀ x, t.armed = some x → x.id = t.lastId
  armed : t'.armed = t.armed.map (Timeout.renamed ρ)

namespace Renamed

variable {ρ : Nat → Nat} {t t' : Timer} (h : Renamed ρ t t')

include h

theorem cancel : Renamed ρ t.cancel t'.cancel where
  numbers := by simpa using h.numbers
  latest := by simp
  armed := by simp

theorem fire : Renamed ρ t.fire t'.fire := ⟨h.numbers, nofun, rfl⟩

theorem arm (timeouts : Timeouts) (p : Phase) :
    Renamed ρ (t.arm timeouts p) (t'.arm timeouts p) := by
  cases hd : timeouts.duration? p with
  | none =>
    rw [arm_of_none hd, arm_of_none hd]
    exact h.cancel
  | some ms =>
    rw [arm_eq hd, arm_eq hd]
    refine ⟨h.numbers.succ, ?_, ?_⟩
    · rintro x ⟨⟩
      rfl
    · simp [Timeout.renamed, h.numbers.succ.last_eq]

/-- A number is due if and only if the one that stands for it is. -/
theorem due?_eq (id : Nat) : t'.due? (ρ id) = (t.due? id).map (Timeout.renamed ρ) := by
  unfold due?
  rw [h.armed]
  cases ha : t.armed with
  | none => rfl
  | some x =>
    have hid := h.latest x ha
    have hiff := h.numbers.eq_iff id
    rw [← hid] at hiff
    by_cases hx : x.id = id
    · simp [Option.filter, Timeout.renamed, hx]
    · simp [Option.filter, Timeout.renamed, hx, hiff]

end Renamed
end Timer

/-- Timers that differ only in how far their timeouts are numbered, and any two identities. -/
def Indifference.renumbering (ρ : Nat → Nat) : Indifference where
  timers := Timer.Renamed ρ
  identities _ _ := True
  armed h := by
    rw [h.armed, Option.isSome_map]
  arm h := h.arm
  same _ := trivial

namespace Indifference.Sessions

variable {ρ : Nat → Nat} {s s' : Session} (h : (renumbering ρ).Sessions s s')

include h

theorem onTimeout (id : Nat) : (renumbering ρ).Turns (s.onTimeout id) (s'.onTimeout (ρ id)) := by
  obtain @⟨t, i, ht, hi⟩ := h
  have hfired : (renumbering ρ).Sessions ({ s with timer := s.timer.fire } : Session)
      ({ s.recast t i with timer := t.fire } : Session) := .recast ht.fire hi
  have hdue : (s.recast t i).timer.due? (ρ id) = (s.timer.due? id).map (Timeout.renamed ρ) :=
    ht.due?_eq id
  cases hd : s.timer.due? id with
  | none =>
    rw [hd] at hdue
    rw [Session.onTimeout_of_stale hd, Session.onTimeout_of_stale hdue]
    exact .stay (.recast ht hi) _
  | some x =>
    -- what the step would report depends on neither the timer nor the identity
    rw [hd] at hdue
    cases he : s.failureEvent? (.timeout x.ms) with
    | none =>
      rw [Session.onTimeout_of_unfailing hd he, Session.onTimeout_of_unfailing hdue he]
      exact .after (.stay hfired _) _
    | some e =>
      rw [Session.onTimeout_of_due hd he, Session.onTimeout_of_due hdue he]
      exact .after (hfired.respond e) _

theorem handle_renamed (e : Event) :
    (renumbering ρ).Turns (s.handle e) (s'.handle (e.renamed ρ)) := by
  by_cases hn : ∀ id, e ≠ .timeout id
  · have he : e.renamed ρ = e := by
      cases e with
      | timeout id => exact absurd rfl (hn id)
      | _ => rfl
    rw [he]
    exact h.handle hn
  · obtain ⟨id, rfl⟩ : ∃ id, e = .timeout id := by simpa using hn
    cases hf : s.finished with
    | true =>
      rw [Session.handle_of_finished hf, Session.handle_of_finished (h.finished.trans hf)]
      exact .stay h _
    | false =>
      have hf' : s'.finished = false := h.finished.trans hf
      have hd : s.dispatch (.timeout id) = s.onTimeout id := if_neg (by simp [hf])
      have hd' : s'.dispatch (.timeout (ρ id)) = s'.onTimeout (ρ id) := if_neg (by simp [hf'])
      unfold Session.handle Event.renamed
      rw [hd, hd']
      exact (h.onTimeout id).settle

/-- Told its own numbers, each goes on as the other does. -/
theorem run_renamed (es : List Event) :
    (renumbering ρ).Turns (s.run es) (s'.run (es.map (Event.renamed ρ))) := by
  induction es generalizing s s' with
  | nil => exact .stay h _
  | cons e es ih =>
    have hfirst := h.handle_renamed e
    rw [List.map_cons]
    cases hc : (s.handle e).crash? with
    | some c =>
      rw [Session.run_crash hc, Session.run_crash (hfirst.crash?.trans hc)]
      exact hfirst
    | none =>
      rw [Session.run_event hc, Session.run_event (hfirst.crash?.trans hc), hfirst.effects]
      exact .after (ih hfirst.session) _

end Indifference.Sessions
end OtaUpgrade
