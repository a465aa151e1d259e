import Mathlib
import OtaUpgrade.Proofs.Session.DeviceView

/-!
The life of a session that may share its guard: it is told events, and between two of them someone
else may change the guard. A chronicle keeps for each event what the session stood in and what it
did. `live_invariant` is the one induction over lives; all that holds of chronicles follows from
what a single episode adds.
-/
namespace OtaUpgrade

/-- What happens to a session: it is told something, or someone else changes the guard they
share. -/
inductive Happening where
  | event (e : Event)
  | guard (g : Guard)
  deriving DecidableEq, Repr

/-- An event, where the session stood when it was told, and what the session did. -/
structure Episode where
  phase : Phase
  wait : Wait
  event : Event
  effects : List Effect
  deriving DecidableEq, Repr

/-- Everything done in these episodes. -/
def Episode.deeds (c : List Episode) : List Effect := c.flatMap Episode.effects

@[simp] theorem Episode.deeds_append (a b : List Episode) :
    deeds (a ++ b) = deeds a ++ deeds b :=
  List.flatMap_append

@[simp] theorem Episode.deeds_singleton (x : Episode) : deeds [x] = x.effects :=
  List.flatMap_singleton ..

namespace Session

/-- The session after all that happens, and everything it did; one that breaks down does nothing
more. -/
def live (s : Session) : List Happening → Turn
  | [] => s.stay
  | .guard guard :: rest => ({ s with guard } : Session).live rest
  | .event e :: rest =>
    let turn := s.handle e
    match turn.reaction with
    | .crash _ => turn
    | _ => (turn.session.live rest).after turn.effects

/-- What a session makes of an event. -/
def episode (s : Session) (e : Event) : Episode :=
  { phase := s.phase, wait := s.wait, event := e, effects := (s.handle e).effects }

/-- The episodes of a life, in order. -/
def chronicle (s : Session) : List Happening → List Episode
  | [] => []
  | .guard guard :: rest => ({ s with guard } : Session).chronicle rest
  | .event e :: rest =>
    s.episode e ::
      match (s.handle e).reaction with
      | .crash _ => []
      | _ => (s.handle e).session.chronicle rest

variable {s : Session} {e : Event} {rest : List Happening}

theorem live_event (hc : (s.handle e).crash? = none) :
    s.live (.event e :: rest) = ((s.handle e).session.live rest).after (s.handle e).effects := by
  rw [live]
  split
  · next c hr => exact absurd hr (Turn.reaction_ne_crash hc c)
  · rfl

theorem live_crash {c : Crash} (hc : (s.handle e).crash? = some c) :
    s.live (.event e :: rest) = s.handle e := by
  rw [live, Turn.reaction_of_crash? hc]

theorem chronicle_event (hc : (s.handle e).crash? = none) :
    s.chronicle (.event e :: rest)
      = s.episode e :: (s.handle e).session.chronicle rest := by
  rw [chronicle]
  split
  · next c hr => exact absurd hr (Turn.reaction_ne_crash hc c)
  · rfl

theorem chronicle_crash {c : Crash} (hc : (s.handle e).crash? = some c) :
    s.chronicle (.event e :: rest) = [s.episode e] := by
  rw [chronicle, Turn.reaction_of_crash? hc]

/-- With the guard left alone a life is a run. -/
theorem live_map_event (s : Session) (es : List Event) : s.live (es.map .event) = s.run es := by
  induction es generalizing s with
  | nil => rfl
  | cons e es ih =>
    rw [List.map_cons]
    cases hc : (s.handle e).crash? with
    | some c =>
      rw [live_crash hc, run, Turn.reaction_of_crash? hc]
    | none =>
      rw [live_event hc, ih, run]
      split
      · next c hr => exact absurd hr (Turn.reaction_ne_crash hc c)
      · rfl

/-- The chronicle tells everything a session did. -/
theorem deeds_chronicle (s : Session) (hs : List Happening) :
    Episode.deeds (s.chronicle hs) = (s.live hs).effects := by
  induction hs generalizing s with
  | nil => rfl
  | cons x hs ih =>
    cases x with
    | guard guard => exact ih _
    | event e =>
      cases hc : (s.handle e).crash? with
      | some c =>
        rw [live_crash hc, chronicle_crash hc, Episode.deeds_singleton]
        rfl
      | none =>
        rw [live_event hc, chronicle_event hc, Turn.effects_after, ← ih]
        rfl

/-- A life goes on from where its first part leads. -/
theorem live_append (s : Session) (hs more : List Happening) (hc : (s.live hs).crash? = none) :
    s.live (hs ++ more) = ((s.live hs).session.live more).after (s.live hs).effects := by
  induction hs generalizing s with
  | nil => rfl
  | cons x hs ih =>
    cases x with
    | guard guard => exact ih _ hc
    | event e =>
      cases hx : (s.handle e).crash? with
      | some c =>
        rw [live_crash hx, hx] at hc
        cases hc
      | none =>
        rw [live_event hx] at hc ⊢
        rw [List.cons_append, live_event hx, ih _ hc, Turn.after_after]
        rfl

/-- A session that has broken down does nothing more. -/
theorem live_append_of_crash (s : Session) (hs more : List Happening) {c : Crash}
    (hc : (s.live hs).crash? = some c) : s.live (hs ++ more) = s.live hs := by
  induction hs generalizing s with
  | nil => cases hc
  | cons x hs ih =>
    cases x with
    | guard guard => exact ih _ hc
    | event e =>
      rw [List.cons_append]
      cases hx : (s.handle e).crash? with
      | some c => rw [live_crash hx, live_crash hx]
      | none =>
        rw [live_event hx] at hc
        rw [live_event hx, live_event hx, ih _ hc]

/-- What one episode keeps holds throughout a life. -/
theorem live_invariant {P : List Episode → Session → Prop}
    (shared : ∀ {c s} (guard : Guard), P c s → P c { s with guard })
    (told : ∀ {c s} (e : Event), P c s → (s.handle e).crash? = none →
      P (c ++ [s.episode e]) (s.handle e).session)
    {c : List Episode} {s : Session} (h : P c s) (hs : List Happening)
    (hc : (s.live hs).crash? = none) : P (c ++ s.chronicle hs) (s.live hs).session := by
  -- the episodes so far grow at their end while the induction takes happenings from the front
  induction hs generalizing c s with
  | nil =>
    rw [chronicle, List.append_nil]
    exact h
  | cons x hs ih =>
    cases x with
    | guard guard => exact ih (shared guard h) hc
    | event e =>
      cases hx : (s.handle e).crash? with
      | some c =>
        rw [live_crash hx, hx] at hc
        cases hc
      | none =>
        rw [live_event hx] at hc ⊢
        have hi := ih (told e h hx) hc
        rwa [List.append_assoc, List.singleton_append, ← chronicle_event hx] at hi

/-- Everyone who was ever told something is sound. -/
theorem Sound.live (h : s.Sound) (hs : List Happening) (hc : (s.live hs).crash? = none) :
    (s.live hs).session.Sound :=
  live_invariant (P := fun _ s => s.Sound) (fun guard h => h.withGuard guard)
    (fun e h => h.handle e) (c := []) h hs hc

/-- An upgrade keeps its configuration, mode and image all its life. -/
theorem Sound.alike_live (h : s.Sound) (hs : List Happening) (hc : (s.live hs).crash? = none) :
    Alike s (s.live hs).session :=
  (live_invariant (P := fun _ r => r.Sound ∧ Alike s r)
    (fun guard h => ⟨h.1.withGuard guard, h.2.config, h.2.mode, h.2.image⟩)
    (fun e h hx => ⟨h.1.handle e hx, h.2.trans (h.1.alike e)⟩) (c := []) ⟨h, .refl s⟩ hs hc).2

/-- What holds of every event between the sessions before and after it and what was done in between
holds of a life, also of one that breaks down, if it can be put together. -/
theorem Sound.live_between {R : Session → List Effect → Session → Prop} (none : ∀ s, R s [] s)
    (shared : ∀ {s es r} (guard : Guard), R { s with guard } es r → R s es r)
    (append : ∀ {s as r bs t}, R s as r → R r bs t → R s (as ++ bs) t)
    (told : ∀ {s}, s.Sound → ∀ e, R s (s.handle e).effects (s.handle e).session)
    (h : s.Sound) (hs : List Happening) : R s (s.live hs).effects (s.live hs).session := by
  induction hs generalizing s with
  | nil => exact none s
  | cons x hs ih =>
    cases x with
    | guard guard => exact shared guard (ih (h.withGuard guard))
    | event e =>
      cases hx : (s.handle e).crash? with
      | some c =>
        rw [live_crash hx]
        exact told h e
      | none =>
        rw [live_event hx]
        exact append (told h e) (ih (h.handle e hx))

end Session
end OtaUpgrade
