import Mathlib
import OtaUpgrade.Proofs.Session.FirstError

/-!
What a runner says of the session that it fed. Its verdict is the first thing that ever went wrong
with the session, and once the session has ended it is what observers were told and nothing can
change it. But a queue that is closed ends the feeding as well: of a session that has met no error
by then, and has not ended either, the runner says that all went well.
-/
namespace OtaUpgrade

/-- What a session comes upon in the care of its runner: something arrives, or someone else changes
the guard that it shares. -/
inductive Incident where
  | arrival (a : Arrival)
  | guard (g : Guard)
  deriving DecidableEq, Repr

namespace Session

/-! ## Feeding under a shared guard -/

/-- The event that a session takes from an arrival. One that is over takes no more. -/
def taken? (s : Session) (a : Arrival) : Option Event :=
  if s.finished then none else s.arriving? a

/-- What happens to a session that comes upon all this. -/
def happened (s : Session) : List Incident → List Happening
  | [] => []
  | .guard guard :: rest => .guard guard :: ({ s with guard } : Session).happened rest
  | .arrival a :: rest =>
    match s.taken? a with
    | none => s.happened rest
    | some e => .event e :: (s.handle e).session.happened rest

/-- A session fed with what arrives, while others change its guard. -/
def attend (s : Session) (xs : List Incident) : Turn :=
  s.live (s.happened xs)

section attend

variable {s : Session} {a : Arrival} {rest : List Incident}

theorem happened_untaken (h : s.taken? a = none) :
    s.happened (.arrival a :: rest) = s.happened rest := by
  rw [happened, h]

theorem happened_taken {e : Event} (h : s.taken? a = some e) :
    s.happened (.arrival a :: rest) = .event e :: (s.handle e).session.happened rest := by
  rw [happened, h]

end attend

/-- With the guard left alone this is what the runner does. -/
theorem attend_map_arrival (s : Session) (arrivals : List Arrival) :
    s.attend (arrivals.map .arrival) = s.feed arrivals := by
  induction arrivals generalizing s with
  | nil => rfl
  | cons a rest ih =>
    rw [List.map_cons, attend, feed]
    cases hf : s.finished with
    | true =>
      rw [happened_untaken (by rw [taken?, hf]; rfl), ← attend, ih, feed_of_finished hf]
      rfl
    | false =>
      have htaken : s.taken? a = s.arriving? a := by
        rw [taken?, hf]
        rfl
      simp only [Bool.false_eq_true, if_false]
      cases ha : s.arriving? a with
      | none =>
        rw [happened_untaken (htaken.trans ha), ← attend]
        exact ih s
      | some e =>
        have hrest := ih (s.handle e).session
        rw [happened_taken (htaken.trans ha), live, ← attend]
        dsimp only
        cases (s.handle e).reaction with
        | crash _ => rfl
        | stay | enter _ | fail _ _ => exact congrArg (·.after (s.handle e).effects) hrest

/-- What has happened so far does not depend on what comes later. -/
theorem happened_append {s : Session} {xs : List Incident} (hc : (s.attend xs).crash? = none)
    (more : List Incident) :
    s.happened (xs ++ more) = s.happened xs ++ (s.attend xs).session.happened more := by
  induction xs generalizing s with
  | nil => rfl
  | cons x rest ih =>
    cases x with
    | guard guard => exact congrArg (.guard guard :: ·) (ih hc)
    | arrival a =>
      rw [List.cons_append]
      cases ht : s.taken? a with
      | none =>
        rw [attend, happened_untaken ht] at hc
        rw [attend, happened_untaken ht, happened_untaken ht]
        exact ih hc
      | some e =>
        rw [attend, happened_taken ht] at hc
        rw [attend, happened_taken ht, happened_taken ht]
        cases hx : (s.handle e).crash? with
        | some c =>
          rw [live_crash hx, hx] at hc
          cases hc
        | none =>
          rw [live_event hx] at hc ⊢
          exact congrArg (.event e :: ·) (ih hc)

theorem attend_append {s : Session} {xs : List Incident} (hc : (s.attend xs).crash? = none)
    (more : List Incident) :
    s.attend (xs ++ more) = ((s.attend xs).session.attend more).after (s.attend xs).effects := by
  rw [attend, happened_append hc, live_append _ _ _ hc]
  rfl

/-- A session that is over takes nothing of what still arrives. -/
theorem attend_of_finished {s : Session} (hf : s.finished = true) (arrivals : List Arrival) :
    s.attend (arrivals.map .arrival) = s.stay := by
  rw [attend_map_arrival, feed_of_finished hf]

/-! ## The verdict -/

/-- A verdict that tells how a session stands. All went well if and only if the session is over
without an error; and an error is the session's own, or says that the session is not over. -/
def Truthful (s : Session) (verdict : Except UpgradeError Unit) : Prop :=
  (verdict = .ok () ↔ s.finished = true ∧ s.error = none) ∧
    ∀ e, verdict = .error e → s.error = some e ∨ s.finished = false

theorem outcome_eq (s : Session) : s.outcome = s.error.elim (.ok ()) .error := by
  unfold outcome
  cases s.error <;> rfl

/-- The outcome tells how a session stands unless it is neither over nor in error. -/
theorem truthful_outcome_iff (s : Session) :
    s.Truthful s.outcome ↔ s.finished = true ∨ s.error ≠ none := by
  unfold Truthful
  rw [outcome_eq]
  cases s.error <;> simp

/-- What the runner of a session `r` says, which has come from `s` by what happened before. -/
structure Verdict (s : Session) (before : List Happening) (r : Session) (xs : List Incident) :
    Prop where
  /-- With the guard left alone it is what the runner returns. -/
  returned : ∀ arrivals, xs = arrivals.map .arrival →
    r.feedOutcome arrivals = (r.attend xs).session.outcome
  /-- It is the first thing that went wrong in all the session's life. -/
  first : (r.attend xs).session.outcome
    = ((s.mishapsOver (before ++ r.happened xs)).head?.map Mishap.error).elim (.ok ()) .error
  /-- It is what observers were told at the end. -/
  told : (r.attend xs).session.finished = true →
    ∃ p, Trace.completions (s.live (before ++ r.happened xs)).effects = [p] ∧
      (r.attend xs).session.outcome = p.error.elim (.ok ()) .error
  /-- Once the session is over, whatever still arrives changes nothing. -/
  final : (r.attend xs).session.finished = true → ∀ arrivals : List Arrival,
    (r.attend (xs ++ arrivals.map .arrival)).session = (r.attend xs).session
  /-- It tells how the session stands if that is over or something went wrong; otherwise the queue
  was closed too early, and it does not. -/
  truthful_iff : (r.attend xs).session.Truthful (r.attend xs).session.outcome ↔
    (r.attend xs).session.finished = true ∨ s.mishapsOver (before ++ r.happened xs) ≠ []

/-- Whatever an upgrade was told before and is fed with now, and whoever shares its guard, the
verdict of a runner that returns tells how it stands, unless it is neither over nor did anything go
wrong. -/
theorem verdict_attend (config : Config) (mode : Mode) (image : Option Image)
    (device : Option Device) (collaborators : Collaborators) (guard : Guard)
    (before : List Happening) (xs : List Incident)
    (hbefore : ((fresh config mode image device collaborators guard).live before).crash? = none)
    (hreturns : (((fresh config mode image device collaborators guard).live before).session.attend
      xs).crash? = none) :
    Verdict (fresh config mode image device collaborators guard) before
      ((fresh config mode image device collaborators guard).live before).session xs := by
  have h := Sound.fresh config mode image device collaborators guard
  have hnone : (fresh config mode image device collaborators guard).error = none := rfl
  have hopen : (fresh config mode image device collaborators guard).finished = false := rfl
  generalize fresh config mode image device collaborators guard = s
    at h hnone hopen hbefore hreturns
  -- the life before and what happens in the runner's care are one life
  have hlive : (s.live (before ++ (s.live before).session.happened xs)).session
      = ((s.live before).session.attend xs).session := by
    rw [live_append s _ _ hbefore, Turn.session_after, attend]
  have herror := h.error_live (before ++ (s.live before).session.happened xs)
  rw [hlive, hnone, Option.none_or] at herror
  constructor
  case returned =>
    rintro arrivals rfl
    rw [attend_map_arrival, feedOutcome]
  case first => rw [outcome_eq, herror]
  case told =>
    intro hf
    cases h.fate hopen (before ++ (s.live before).session.happened xs) with
    | goesOn _ hgoes =>
      rw [hlive, hf] at hgoes
      cases hgoes
    | @ended q guard front _ hfront hq he =>
      refine ⟨q.closed.progress, ?_, ?_⟩
      · rw [he, q.completions_ending hfront]
      · rw [outcome_eq, ← hlive, hq]
        rfl
  case final =>
    intro hf arrivals
    rw [attend_append hreturns, attend_of_finished hf]
    rfl
  case truthful_iff =>
    rw [truthful_outcome_iff, herror]
    simp

/-- An upgrade whose link is lost while it looks for the service. -/
theorem verdict_disconnected :
    let s := fresh {} .direct (some ⟨#[6], by decide, by decide⟩) (some { name := "node" }) {} {}
    let before : List Happening := [.event .start]
    let xs : List Incident :=
      [.arrival (.event (.connection true none)), .guard { connection := true },
        .arrival (.event (.connection false none)), .arrival .expiry]
    (s.live before).crash? = none ∧ ((s.live before).session.attend xs).crash? = none ∧
      Verdict s before (s.live before).session xs := by
  intro s before xs
  have hbefore : (s.live before).crash? = none := by decide
  have hreturns : ((s.live before).session.attend xs).crash? = none := by decide
  exact ⟨hbefore, hreturns, verdict_attend {} .direct _ _ {} {} before xs hbefore hreturns⟩

/-- The queue is closed as soon as the upgrade has begun. All went well, says the runner, though the
upgrade stands at connecting. -/
theorem untruthful_of_closed :
    let s := fresh {} .direct (some ⟨#[6], by decide, by decide⟩) (some { name := "node" }) {} {}
    s.feedOutcome [.event .start] = .ok () ∧
      (s.feed [.event .start]).session.phase = .connect ∧
      (s.feed [.event .start]).session.finished = false ∧
      ¬ (s.feed [.event .start]).session.Truthful (s.feedOutcome [.event .start]) := by
  intro s
  have hok : s.feedOutcome [.event .start] = .ok () := by rfl
  have hf : (s.feed [.event .start]).session.finished = false := by decide
  refine ⟨hok, by decide, hf, ?_⟩
  intro h
  have hend := (h.1.mp hok).1
  rw [hf] at hend
  cases hend

end Session
end OtaUpgrade
