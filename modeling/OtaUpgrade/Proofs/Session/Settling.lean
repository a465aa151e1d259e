import Mathlib
import OtaUpgrade.Proofs.Session.Entries

/-!
Settling comes to an end, whatever the session is like. Entering a phase rests there or goes on
along an edge of `Phase.onward`. The edges lead to later phases, and no path has more than three of
them (`Phase.stretch`). `Rounds` is the loop itself, with nothing that bounds its rounds: how far it
can still go falls with each round, and so it ends.
-/
namespace OtaUpgrade

namespace Phase

/-- The most phases of a path along `onward` that starts here, this one included. -/
def stretch : Phase → Nat
  | idle | complete => 1
  | readAppInfo | dataTransfer | verify => 3
  | connect | serviceDiscover | enableNotification | prepareForDownload | startDownload | abort => 2

theorem stretch_lt_of_mem_onward {p q : Phase} (h : q ∈ p.onward) : q.stretch < p.stretch := by
  have shorter : ∀ q ∈ p.onward, q.stretch < p.stretch := by cases p <;> decide
  exact shorter q h

theorem stretch_pos (p : Phase) : 0 < p.stretch := by
  cases p <;> decide

theorem stretch_le (p : Phase) : p.stretch ≤ 3 := by
  cases p <;> decide

end Phase

namespace Reaction

/-- The most phases that are entered after the reaction. -/
def stretch : Reaction → Nat
  | stay | crash _ => 0
  | enter next | fail _ next => next.stretch

theorem Onto.stretch_lt {p : Phase} {r : Reaction} (h : r.Onto (· ∈ p.onward)) :
    r.stretch < p.stretch := by
  cases r with
  | stay | crash => exact p.stretch_pos
  | enter | fail => exact Phase.stretch_lt_of_mem_onward h

theorem stretch_le (r : Reaction) : r.stretch ≤ 3 := by
  cases r with
  | stay | crash => exact Nat.zero_le _
  | enter next | fail _ next => exact next.stretch_le

end Reaction

theorem Turn.stretch_departure {t : Turn} {p : Phase} {s : Session}
    (h : t.departure? = some (p, s)) : t.reaction.stretch = p.stretch := by
  rcases reaction_of_departure h with hr | ⟨cause, hr⟩ <;> rw [hr] <;> rfl

namespace Session

/-! ## The loop -/

/-- Rounds of the loop that settles a turn: as long as it goes on to a phase, that phase is entered.
They are told by the phases, each with the session about to enter it. Whoever shares the guard may
have changed it before any of them. -/
inductive Rounds : Turn → List (Phase × Session) → Turn → Prop where
  | nil (t : Turn) : Rounds t [] t
  | cons {t t' : Turn} {p : Phase} {s : Session} {xs : List (Phase × Session)}
      (hd : t.departure? = some (p, s)) (guard : Guard)
      (rest : Rounds ((({ s with guard } : Session).enter p).after t.effects) xs t') :
      Rounds t ((p, { s with guard }) :: xs) t'

namespace Rounds

variable {t t' : Turn} {xs : List (Phase × Session)}

/-- Each round takes at least one from what the turn can still go. -/
theorem length_add_stretch_le (h : Rounds t xs t') :
    xs.length + t'.reaction.stretch ≤ t.reaction.stretch := by
  -- on the rounds: each follows an edge of the graph, and every edge shortens the stretch
  induction h with
  | nil => simp
  | @cons t t' p s xs hd guard _ ih =>
    have hlt := (({ s with guard } : Session).onward_enter p).stretch_lt
    rw [Turn.reaction_after] at ih
    rw [Turn.stretch_departure hd, List.length_cons]
    omega

/-- Once a turn goes on to later phases only, so do its rounds. -/
theorem later (h : Rounds t xs t') {p : Phase} (hp : t.reaction.Onto (p < ·)) :
    ∀ x ∈ xs, p < x.1 := by
  induction h generalizing p with
  | nil => exact fun _ hx => absurd hx List.not_mem_nil
  | @cons t t' q s xs hd guard _ ih =>
    have hpq : p < q := Turn.onto_departure hd hp
    intro x hx
    rcases List.mem_cons.mp hx with rfl | hx
    · exact hpq
    · exact Nat.lt_trans hpq (ih (later_enter _ q) x hx)

theorem ascending (h : Rounds t xs t') : (xs.map Prod.fst).Pairwise (· < ·) := by
  induction h with
  | nil => exact .nil
  | @cons t t' p s xs hd guard rest ih =>
    refine List.pairwise_cons.mpr ⟨fun q hq => ?_, ih⟩
    obtain ⟨x, hx, rfl⟩ := List.mem_map.mp hq
    exact rest.later (later_enter _ p) x hx

/-- What is broken down at the end was so at the beginning, or broke down over entering a phase. -/
theorem crash (h : Rounds t xs t') {c : Crash} (hc : t'.reaction = .crash c) :
    t.reaction = .crash c ∨ ∃ x ∈ xs, (x.2.enter x.1).reaction = .crash c := by
  induction h with
  | nil => exact .inl hc
  | cons hd guard _ ih =>
    rcases ih hc with hx | ⟨x, hx, hcx⟩
    · exact .inr ⟨_, List.mem_cons_self, hx⟩
    · exact .inr ⟨x, List.mem_cons_of_mem _ hx, hcx⟩

end Rounds

/-- Following a turn is going rounds with nobody else at the guard. -/
theorem rounds_follow (depth : Nat) (t : Turn) :
    Rounds t (entering depth t) (follow depth t) := by
  induction depth generalizing t with
  | zero => exact .nil t
  | succ depth ih =>
    cases hd : t.departure? with
    | none =>
      rw [entering_of_rest hd, follow_of_rest hd]
      exact .nil t
    | some x =>
      obtain ⟨p, s⟩ := x
      have hi := ih ((s.enter p).after t.effects)
      rw [entering_after] at hi
      rw [entering_of_departure hd, follow_of_departure hd]
      exact .cons hd s.guard hi

/-- How a turn settles. -/
structure Settles (t : Turn) : Prop where
  /-- However far the loop is followed, and whoever shares the guard, it enters at most three
  phases. -/
  bounded : ∀ xs t', Rounds t xs t' → xs.length ≤ 3
  /-- They come in the order of the protocol, none of them twice. -/
  ascending : ∀ xs t', Rounds t xs t' → (xs.map Prod.fst).Pairwise (· < ·)
  /-- With nobody else at the guard the loop goes all the way to where the turn settles. -/
  reaches : Rounds t (passing t) (settle t)
  /-- From there it goes no further. -/
  rests : (settle t).departure? = none
  /-- Where the loop goes no further the session waits, unless it had broken down before or broke
  down over entering a phase. -/
  waits : ∀ xs t', Rounds t xs t' → t'.departure? = none →
    t'.reaction = .stay ∨ ∃ c, t'.reaction = .crash c ∧
      (t.reaction = .crash c ∨ ∃ x ∈ xs, (x.2.enter x.1).reaction = .crash c)

/-- The action of a phase goes on to later phases only, whatever session enters it, and every turn
settles with at most three phases entered. -/
theorem settles_within_three :
    (∀ (s : Session) (p : Phase), (s.entryAction p).reaction.Onto (p < ·)) ∧
      ∀ t : Turn, Settles t := by
  refine ⟨later_entryAction, fun t => ?_⟩
  constructor
  case bounded =>
    intro xs t' h
    have hlen := h.length_add_stretch_le
    have hthree := t.reaction.stretch_le
    omega
  case ascending => exact fun _ _ h => h.ascending
  case reaches => exact rounds_follow _ t
  case rests => exact Turn.departure?_eq_none.mpr (reaction_settle t)
  case waits =>
    intro xs t' h hd
    rcases Turn.departure?_eq_none.mp hd with hw | ⟨c, hc⟩
    · exact .inl hw
    · exact .inr ⟨c, hc, h.crash hc⟩

-- with everything acknowledged there is no chunk to send, and without a link nobody to tell
example : (passing (({ transfer := { imageSize := 3, offset := 3 } } : Session).moveTo
    .dataTransfer)).map Prod.fst = [.dataTransfer, .abort, .complete] := by decide

end Session
end OtaUpgrade
