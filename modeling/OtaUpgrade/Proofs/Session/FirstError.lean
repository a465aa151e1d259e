import Mathlib
import OtaUpgrade.Proofs.Session.Ending

/-!
The first error wins. Every turn of a session can fail, one event can take several of them, and a
request to stop is a mishap of its own; `mishapsOver` lists the mishaps of a life in order, each
with the session as it stood then. What a session keeps is the first of them (`error_live`), so it
never changes, and when the upgrade ends every channel tells it.
-/
namespace OtaUpgrade

/-- Something that goes wrong, and the session as it stands then. -/
structure Mishap where
  session : Session
  cause : Cause

/-- The error as which a mishap is recorded. -/
def Mishap.error (f : Mishap) : UpgradeError :=
  ⟨f.session.phase, f.cause⟩

/-- The mishap that a turn ends in. -/
def Turn.mishap? (t : Turn) : Option Mishap :=
  match t.reaction with
  | .fail cause _ => some ⟨t.session, cause⟩
  | _ => none

namespace Session

/-- The mishap of an upgrade that is stopped before its download; it stays where it is until the
link is down. -/
def stopped? (s : Session) : Event → Option Mishap
  | .abort dfu =>
    if !s.finished && s.phase.underWay && s.phase.isBeforeDownload then some ⟨s, abortCause dfu⟩
    else none
  | _ => none

/-- The mishaps of a turn that is followed to where the session rests. -/
def mishapsOf (t : Turn) : List Mishap :=
  (t :: (passing t).map fun x => x.2.enter x.1).filterMap Turn.mishap?

/-- The mishaps of an event, in order. -/
def mishaps (s : Session) (e : Event) : List Mishap :=
  (s.stopped? e).toList ++ mishapsOf (s.dispatch e)

/-- The mishaps of a life, in order. -/
def mishapsOver (s : Session) : List Happening → List Mishap
  | [] => []
  | .guard guard :: rest => ({ s with guard } : Session).mishapsOver rest
  | .event e :: rest =>
    s.mishaps e ++
      match (s.handle e).reaction with
      | .crash _ => []
      | _ => (s.handle e).session.mishapsOver rest

theorem error_recordError (s : Session) (cause : Cause) :
    (s.recordError cause).error = s.error.or (some (Mishap.error ⟨s, cause⟩)) := by
  rw [recordError_eq]
  cases s.error <;> rfl

/-! ## One event -/

section event

variable {s : Session} {e : Event} {p : Phase} {t : Turn}

theorem Entrance.error_eq (h : Entrance s p t) : t.session.error = s.error := by
  cases h with
  | halts hh => cases hh <;> rfl
  | slips hs => cases hs <;> rfl

theorem Passage.poised {entries : List (Phase × Session)} (h : Passage s e entries t) :
    ∀ x ∈ entries, x.2.Poised x.1 := by
  induction h with
  | ended | stale | rests => exact fun _ hx => absurd hx List.not_mem_nil
  | enters _ hr => exact List.forall_mem_singleton.mpr hr
  | slips _ hr _ hr' => exact List.forall_mem_cons.mpr ⟨hr, List.forall_mem_singleton.mpr hr'⟩
  | expired _ _ _ ih => exact ih

/-- Following a turn records the first of its mishaps, if nothing went wrong before. -/
theorem error_follow {depth : Nat} (hn : t.reaction.reach ≤ depth)
    (hall : ∀ x ∈ entering depth t, x.2.Poised x.1) :
    (follow depth t).session.error = t.session.error.or
      (((t :: (entering depth t).map fun x => x.2.enter x.1).filterMap Turn.mishap?).head?.map
        Mishap.error) := by
  -- on the depth: entering a phase keeps the error, and only a failing turn adds to it
  induction depth generalizing t with
  | zero =>
    rcases Reaction.eq_of_reach (Nat.le_zero.mp hn) with hr | ⟨c, hr⟩ <;>
      simp [follow, entering, Turn.mishap?, hr]
  | succ depth ih =>
    cases hr : t.reaction with
    | stay | crash => simp [follow, entering, Turn.mishap?, hr]
    | enter next =>
      have hlt := reach_enter_lt t.session next
      rw [hr, Reaction.reach] at hn
      simp only [entering, hr, List.forall_mem_cons] at hall
      have hi := ih (t := t.session.enter next) (by omega) hall.2
      rw [(entrance_complete hall.1).error_eq] at hi
      simpa [follow, follow_after, entering, Turn.mishap?, hr] using hi
    | fail cause next =>
      have hlt := reach_enter_lt (t.session.recordError cause) next
      rw [hr, Reaction.reach] at hn
      simp only [entering, hr, List.forall_mem_cons] at hall
      have hi := ih (t := (t.session.recordError cause).enter next) (by omega) hall.2
      rw [(entrance_complete hall.1).error_eq, error_recordError, Option.or_assoc] at hi
      simpa [follow, follow_after, entering, Turn.mishap?, hr] using hi

/-- Only a request to stop between connecting and the download is a mishap of its own. -/
theorem stopped?_of_phase (hp : s.phase = p) (hn : (p.underWay && p.isBeforeDownload) = false) :
    s.stopped? e = none := by
  subst hp
  cases e with
  | abort dfu => simp [stopped?, Bool.and_assoc, hn]
  | _ => rfl

theorem Answer.error_eq (hf : s.finished = false) (h : Answer s e t) :
    t.session.error = s.error.or ((s.stopped? e).map Mishap.error) := by
  cases h with
  | rest hx =>
    have hnone : s.stopped? e = none := by
      cases e with
      | abort dfu =>
        -- what is not expected any more comes too late to stop anything
        refine stopped?_of_phase rfl ?_
        simp only [expects] at hx
        cases hp : s.phase <;> first | rfl | (rw [hp] at hx; cases hx)
      | _ => rfl
    rw [hnone, Option.map_none, Option.or_none]
    exact s.error_noting e
  | closing hu hb =>
    have hsome {dfu : Bool} : s.stopped? (.abort dfu) = some ⟨s, abortCause dfu⟩ := by
      simp [stopped?, hf, hu, hb]
    rw [hsome, session_ask, error_recordError]
    rfl
  | written | asks | next | overflow => exact (Option.or_none).symm

theorem Advance.error_eq {s' : Session} {es : List Effect} (h : Advance s e s' es p) :
    s'.error = s.error ∧ s.stopped? e = none := by
  cases h with
  | prepared hp | started hp | verified hp => exact ⟨rfl, stopped?_of_phase hp rfl⟩
  | gaveUp hp => exact ⟨by simp [cancelTimer], stopped?_of_phase hp rfl⟩
  | _ => exact ⟨rfl, rfl⟩

theorem Failure.error_eq {s' : Session} {cause : Cause} (h : Failure s e s' cause p) :
    s'.error = s.error ∧ s.stopped? e = none := by
  cases h with
  | unprepared hp | unstarted hp | unverified hp | stopped hp => exact ⟨rfl, stopped?_of_phase hp rfl⟩
  | stoppedDownload hp =>
    refine ⟨rfl, stopped?_of_phase rfl ?_⟩
    cases hq : s.phase <;> first | rfl | (rw [hq] at hp; cases hp)
  | _ => exact ⟨rfl, rfl⟩

theorem Response.error_eq (hf : s.finished = false) (h : Response s e t) :
    t.session.error = s.error.or ((s.stopped? e).map Mishap.error) := by
  cases h with
  | answer ha => exact ha.error_eq hf
  | advance ha =>
    rw [ha.error_eq.2, Option.map_none, Option.or_none]
    exact ha.error_eq.1
  | failure ha =>
    rw [ha.error_eq.2, Option.map_none, Option.or_none]
    exact ha.error_eq.1

/-- The first answer to an event records at most that the upgrade is stopped. -/
theorem Dispatch.error_eq (hf : s.finished = false) (h : Dispatch s e t) :
    t.session.error = s.error.or ((s.stopped? e).map Mishap.error) := by
  cases h with
  | response _ hr => exact hr.error_eq hf
  | stale => exact (Option.or_none).symm
  | @expired id x e t hd he hr =>
    have hstop : ({ s with timer := s.timer.fire } : Session).stopped? e = none := by
      obtain ⟨-, -, -, -, -, -, ha, -⟩ := failureEvent?_fails he
      cases e with
      | abort dfu => exact absurd rfl (ha dfu)
      | _ => rfl
    have herror := Response.error_eq (s := { s with timer := s.timer.fire }) hf hr
    rw [hstop] at herror
    exact herror

/-- The error of a session after an event is the one before, or the first mishap of the event. -/
theorem Sound.error_handle (h : s.Sound) (e : Event) :
    (s.handle e).session.error = s.error.or ((s.mishaps e).head?.map Mishap.error) := by
  cases hf : s.finished with
  | true =>
    have hnone : s.mishaps e = [] := by
      have hd : s.dispatch e = s.stay := if_pos hf
      have hs : s.stopped? e = none := by cases e <;> simp [stopped?, hf]
      rw [mishaps, hd, hs]
      rfl
    rw [handle_of_finished hf, hnone]
    exact (Option.or_none).symm
  | false =>
    have hfollow := error_follow (Nat.le_refl _) (passage_complete h e).poised
    rw [(dispatch_complete h hf e).error_eq hf, Option.or_assoc] at hfollow
    refine hfollow.trans (congrArg s.error.or ?_)
    rw [mishaps, List.head?_append, Option.map_or]
    cases s.stopped? e <;> rfl

end event

/-! ## Lives -/

section lives

variable {s : Session} (h : s.Sound)

include h

/-- The error of a session is the first of its mishaps. -/
theorem Sound.error_live (hs : List Happening) :
    (s.live hs).session.error = s.error.or ((s.mishapsOver hs).head?.map Mishap.error) := by
  induction hs generalizing s with
  | nil => exact (Option.or_none).symm
  | cons x hs ih =>
    cases x with
    | guard guard => exact ih (h.withGuard guard)
    | event e =>
      have herror := h.error_handle e
      rw [mishapsOver, List.head?_append, Option.map_or, ← Option.or_assoc, ← herror]
      cases hx : (s.handle e).crash? with
      | some c =>
        rw [live_crash hx, Turn.reaction_of_crash? hx]
        exact (Option.or_none).symm
      | none =>
        rw [live_event hx]
        split
        · next c hr => exact absurd hr (Turn.reaction_ne_crash hx c)
        · exact ih (h.handle e hx)

/-- Whatever happens later, an error that was recorded stays. -/
theorem Sound.error_stays (hs more : List Happening) {x : UpgradeError}
    (hx : (s.live hs).session.error = some x) :
    (s.live (hs ++ more)).session.error = some x := by
  cases hc : (s.live hs).crash? with
  | some c => rwa [live_append_of_crash s hs more hc]
  | none =>
    rw [live_append s hs more hc, Turn.session_after, (h.live hs hc).error_live more, hx]
    rfl

end lives

/-! ## The runner -/

/-- The events that arrivals bring to a session that is fed with them. -/
def brought (s : Session) : List Arrival → List Event
  | [] => []
  | a :: rest =>
    if s.finished then []
    else
      match s.arriving? a with
      | none => brought s rest
      | some e =>
        e ::
          match (s.handle e).reaction with
          | .crash _ => []
          | _ => brought (s.handle e).session rest

/-- Feeding a session is telling it the events that arrivals bring. -/
theorem feed_eq_run (s : Session) (arrivals : List Arrival) :
    s.feed arrivals = s.run (s.brought arrivals) := by
  induction arrivals generalizing s with
  | nil => rfl
  | cons a rest ih =>
    unfold feed brought
    cases hf : s.finished with
    | true => rfl
    | false =>
      simp only [Bool.false_eq_true, if_false]
      cases s.arriving? a with
      | none => exact ih s
      | some e =>
        dsimp only [run]
        cases hr : (s.handle e).reaction with
        | crash => rfl
        | stay | enter | fail => rw [ih]

/-! ## The outcome -/

section signals

variable (q : Session)

theorem signals_ending {front : List Effect} (h : Trace.closings front = []) :
    Trace.signals (front ++ q.ending.effects) = Trace.signals q.closed.closingSignals := by
  rw [← Trace.signals_closings, Trace.closings_append, h, closings_ending, List.nil_append]
  unfold farewell
  cases q.device <;> rfl

/-- The orchestrator learns how an upload for mesh DFU ended. -/
theorem signals_closingSignals {metadata : DfuMetadata} (hm : q.mode = .dfu metadata)
    (ho : q.collaborators.orchestrator = true) :
    Trace.signals q.closingSignals
      = .uploadFinished metadata q.error ::
          if q.stopRequested || q.error.isSome then [.stopDistribution] else [] := by
  simp only [closingSignals, hm, Mode.dfuMetadata?, ho, if_true]
  split <;> rfl

end signals

/-- The outcome of an upgrade that has ended, as it is told on every channel. -/
structure Announced (s : Session) (hs : List Happening) (outcome : Option UpgradeError) :
    Prop where
  completion : ∃ p, Trace.completions (s.hosted hs).trace.toList = [p] ∧
    p.errorCode = (outcome.map UpgradeError.code).getD 0 ∧
    p.errorText = outcome.map UpgradeError.text
  status : (s.hosted hs).status.error = outcome ∧ (s.hosted hs).status.finished = true
  runner : ∀ arrivals, hs = (s.brought arrivals).map .event →
    s.feedOutcome arrivals = outcome.elim (.ok ()) .error
  orchestrator : ∀ metadata, s.mode = .dfu metadata → s.collaborators.orchestrator = true →
    ∃ rest, Trace.signals (s.hosted hs).trace.toList = .uploadFinished metadata outcome :: rest ∧
      ∀ x ∈ rest, x = .stopDistribution

/-- The error of an upgrade is its first mishap, for good and for everyone. -/
structure FirstErrorWins (s : Session) (hs : List Happening) : Prop where
  first : (s.hosted hs).session.error = (s.mishapsOver hs).head?.map Mishap.error
  stays : ∀ x, (s.hosted hs).session.error = some x →
    ∀ more, (s.hosted (hs ++ more)).session.error = some x
  announced : (s.hosted hs).session.finished = true →
    Announced s hs (s.hosted hs).session.error

theorem Fate.announced {s : Session} (h : s.Sound) {hs : List Happening} (hf : Fate s (s.live hs))
    (hend : (s.live hs).session.finished = true) :
    Announced s hs (s.live hs).session.error := by
  cases hf with
  | goesOn _ hopen => cases hopen.symm.trans hend
  | @ended q guard front hk hfront hq he =>
    have herror : (s.live hs).session.error = q.error := by rw [hq]; rfl
    constructor
    case completion =>
      refine ⟨q.closed.progress, ?_, ?_, ?_⟩
      · rw [trace_hosted, he, q.completions_ending hfront]
      · rw [herror]
        rfl
      · rw [herror]
        rfl
    case status =>
      rw [status_hosted (h.crash?_live hs hend)]
      exact ⟨rfl, hend⟩
    case runner =>
      intro arrivals hbrought
      rw [feedOutcome, feed_eq_run, ← live_map_event, ← hbrought, outcome]
      cases (s.live hs).session.error <;> rfl
    case orchestrator =>
      intro metadata hm ho
      have hsignals := q.closed.signals_closingSignals (hk.mode.trans hm)
        ((congrArg Collaborators.orchestrator hk.collaborators).trans ho)
      rw [← q.signals_ending hfront, ← he, ← trace_hosted] at hsignals
      rw [herror]
      refine ⟨_, hsignals, fun x hx => ?_⟩
      split at hx
      · exact List.mem_singleton.mp hx
      · cases hx

/-- Whatever an upgrade is told, and whoever shares its guard, its first mishap is its error, and
its end is told with that error everywhere. -/
theorem firstErrorWins_live (config : Config) (mode : Mode) (image : Option Image)
    (device : Option Device) (collaborators : Collaborators) (guard : Guard)
    (hs : List Happening) :
    FirstErrorWins (fresh config mode image device collaborators guard) hs := by
  have h := Sound.fresh config mode image device collaborators guard
  have hnone : (fresh config mode image device collaborators guard).error = none := rfl
  have hopen : (fresh config mode image device collaborators guard).finished = false := rfl
  generalize fresh config mode image device collaborators guard = s at h hnone hopen
  constructor
  case first => rw [session_hosted, h.error_live hs, hnone, Option.none_or]
  case stays =>
    intro x hx more
    rw [session_hosted] at hx ⊢
    exact h.error_stays hs more hx
  case announced =>
    intro hend
    rw [session_hosted] at hend ⊢
    exact (h.fate hopen hs).announced h hend

end Session
end OtaUpgrade
