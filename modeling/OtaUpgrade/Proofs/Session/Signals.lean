import Mathlib
import OtaUpgrade.Proofs.Session.FirstError

/-!
What the orchestrator of mesh DFU is told. It hears of an upload once, on the event that ends it and
behind the report of the end: how the upload ended, and to stop distributing exactly if it failed.
That a request to stop is never lost rests on `Heeds`: whoever was asked to stop on behalf of mesh
DFU has an error recorded, be it the request itself or a failure that came first.
-/
namespace OtaUpgrade

namespace Trace

theorem signals_of_closings {es : List Effect} (h : closings es = []) : signals es = [] := by
  rw [← signals_closings, h]
  rfl

theorem signals_map_signal (signals : List DfuSignal) :
    Trace.signals (signals.map .signal) = signals := by
  induction signals with
  | nil => rfl
  | cons signal signals ih => exact congrArg (signal :: ·) ih

end Trace

namespace Session

/-- A request to stop on behalf of mesh DFU is not without an error. -/
def Heeds (s : Session) : Prop :=
  s.stopRequested = true → s.error.isSome = true

/-- What the orchestrator is told on an event comes last, behind the report of the end, and on no
other event than the one that ends the upgrade. -/
structure SignalsDuly (s : Session) (e : Event) : Prop where
  ends : Trace.signals (s.handle e).effects ≠ [] →
    s.finished = false ∧ (s.handle e).session.finished = true
  behind : Trace.signals (s.handle e).effects ≠ [] → ∃ front p,
    Trace.signals front = [] ∧
      (s.handle e).effects
        = front ++ .report (.complete p) :: (Trace.signals (s.handle e).effects).map .signal

/-- What the orchestrator is told over a life. -/
structure Signals (s : Session) (hs : List Happening) : Prop where
  direct : s.mode = .direct → Trace.signals (s.live hs).effects = []
  /-- The outcome of an upload is told once it has ended, and then to stop if it failed. -/
  upload : s.collaborators.orchestrator = true → ∀ metadata, s.mode = .dfu metadata →
    Trace.signals (s.live hs).effects
      = if (s.live hs).session.finished then
          .uploadFinished metadata (s.live hs).session.error ::
            (if (s.live hs).session.error.isSome then [.stopDistribution] else [])
        else []
  duly : ∀ before e after, hs = before ++ .event e :: after → (s.live before).crash? = none →
    (s.live before).session.SignalsDuly e
  /-- A request to stop that comes before the end is passed on, whatever went wrong first. -/
  stopped : s.collaborators.orchestrator = true → ∀ metadata, s.mode = .dfu metadata →
    ∀ before after, hs = before ++ .event (.abort true) :: after →
      (s.live before).crash? = none → (s.live before).session.finished = false →
        (s.live hs).session.finished = true →
          (Trace.signals (s.live hs).effects).count .stopDistribution = 1

/-! ## One event -/

section event

variable {s r : Session} {e : Event} {p q : Phase} {t : Turn}

theorem Heeds.of_error (h : s.error.isSome = true) : s.Heeds := fun _ => h

theorem Heeds.congr (h : s.Heeds) (hs : r.stopRequested = s.stopRequested)
    (he : r.error = s.error) : r.Heeds := by
  rw [Heeds, hs, he]
  exact h

theorem Heeds.recordError (cause : Cause) : (s.recordError cause).Heeds :=
  .of_error (by simp)

theorem Halt.heeds (h : Halt s p t) (hs : s.Heeds) : t.session.Heeds := by
  cases h <;> exact hs.congr rfl rfl

theorem Slip.heeds (h : Slip s p q r t) (hs : s.Heeds) : r.Heeds := by
  cases h with
  | noImage | noDevice => exact .recordError _
  | skip | unlinked => exact hs.congr rfl rfl

/-- Nothing that takes an upgrade on is a request to stop. -/
theorem Advance.stopRequested_eq {es : List Effect} (h : Advance s e r es p) :
    r.stopRequested = s.stopRequested := by
  have answered {answer : Option Bytes} (he : e.answer? = some answer) :
      (s.noting e).cancelTimer.stopRequested = s.stopRequested := by
    rw [noting_of_answer he]
    rfl
  cases h with
  | gaveUp hp he =>
    rcases he with he | ⟨error, rfl⟩ | ⟨error, rfl⟩
    · obtain ⟨answer, he⟩ := Option.isSome_iff_exists.mp he
      exact answered he
    · rfl
    · rfl
  | _ => rfl

theorem Move.heeds (h : Move s e p r t) (hs : s.Heeds) : r.Heeds := by
  cases h with
  | advance ha => exact hs.congr ha.stopRequested_eq ha.error_eq.1
  | failure => exact .recordError _

theorem Answer.heeds (h : s.Sound) (hf : s.finished = false) (ha : Answer s e t) (hs : s.Heeds) :
    t.session.Heeds := by
  cases ha with
  | rest hx =>
    cases e with
    | abort dfu =>
      -- a request that is not expected finds the upgrade given up already, for an error
      have hp : s.phase = .abort := by simpa [expects, h.not_complete hf] using hx
      exact .of_error (h.abort hp)
    | connection connected error => cases connected <;> exact hs.congr rfl rfl
    | _ => exact hs.congr rfl rfl
  | closing => exact .recordError _
  | _ => exact hs.congr rfl rfl

theorem Passage.heeds {entries : List (Phase × Session)} (hp : Passage s e entries t)
    (h : s.Sound) (hf : s.finished = false) (hs : s.Heeds) : t.session.Heeds := by
  induction hp with
  | ended | stale => exact hs
  | rests ha => exact ha.heeds h hf hs
  | enters hm _ hh => exact hh.heeds (hm.heeds hs)
  | slips hm _ hslip _ hh => exact hh.heeds (hslip.heeds (hm.heeds hs))
  | @expired s _ _ _ _ _ hd _ _ ih =>
    exact ih (h.withTimer (h.not_idle_of_due hd) s.timer.fire) hf (hs.congr rfl rfl)

theorem Heeds.handle (hs : s.Heeds) (h : s.Sound) (e : Event) : (s.handle e).session.Heeds := by
  cases hf : s.finished with
  | true =>
    rw [handle_of_finished hf]
    exact hs
  | false => exact (passage_complete h e).heeds h hf hs

/-- Whoever is asked to stop before the end has an error from then on. -/
theorem Sound.error_abort (h : s.Sound) (hf : s.finished = false) (dfu : Bool) :
    (s.handle (.abort dfu)).session.error.isSome = true := by
  have hd : s.dispatch (.abort dfu) = s.onAbort dfu := by simp [dispatch, hf, respond]
  have fails {r : Session} {cause : Cause} {p : Phase} (ht : s.onAbort dfu = r.failTo cause p) :
      (s.handle (.abort dfu)).session.error.isSome = true := by
    rw [h.error_handle, mishaps, hd, ht]
    simp [mishapsOf, Turn.mishap?, failTo]
  have stops (hs : (s.stopped? (.abort dfu)).isSome = true) :
      (s.handle (.abort dfu)).session.error.isSome = true := by
    obtain ⟨f, hs⟩ := Option.isSome_iff_exists.mp hs
    rw [h.error_handle, mishaps, hs]
    simp
  cases hp : s.phase with
  | complete => exact absurd hp (h.not_complete hf)
  | abort =>
    rw [h.error_handle]
    simp [Option.isSome_or, h.abort hp]
  | idle => exact fails (by rw [onAbort, hp])
  | prepareForDownload | startDownload | dataTransfer | verify =>
    exact fails (by rw [onAbort, hp]; rfl)
  | connect | serviceDiscover | readAppInfo | enableNotification =>
    exact stops (by rw [stopped?, hf, hp]; rfl)

theorem Sound.signalsDuly (h : s.Sound) (e : Event) : s.SignalsDuly e := by
  have silent (hn : Trace.signals (s.handle e).effects = []) : s.SignalsDuly e :=
    ⟨fun hne => absurd hn hne, fun hne => absurd hn hne⟩
  cases hf : s.finished with
  | true => exact silent (by rw [handle_of_finished hf]; rfl)
  | false =>
    cases (passage_complete h e).outcome hf with
    | goesOn _ hc => exact silent (Trace.signals_of_closings hc)
    | @ends q front _ _ hr ht =>
      refine ⟨fun _ => ⟨hf, by rw [ht]; rfl⟩, fun _ => ?_⟩
      obtain ⟨signals, hs⟩ := q.closed.closingSignals_eq
      have hfront : Trace.signals front = [] := Trace.signals_of_closings hr.closings
      have hsignals : Trace.signals (s.handle e).effects = signals := by
        rw [ht, Turn.effects_after, q.signals_ending hr.closings, hs, Trace.signals_map_signal]
      rw [hsignals, ht, Turn.effects_after, effects_ending, hs, ← List.append_assoc]
      refine ⟨_, q.closed.progress, ?_, rfl⟩
      rw [Trace.signals_append, hfront]
      split
      · split <;> rfl
      · rfl

end event

/-! ## Lives -/

section lives

variable {s : Session} (h : s.Sound)

include h

theorem Sound.heeds_live (hs : s.Heeds) (happenings : List Happening)
    (hc : (s.live happenings).crash? = none) : (s.live happenings).session.Heeds :=
  (live_invariant (P := fun _ r => r.Sound ∧ r.Heeds)
    (fun guard h => ⟨h.1.withGuard guard, h.2.congr rfl rfl⟩)
    (fun e h hx => ⟨h.1.handle e hx, h.2.handle h.1 e⟩) (c := []) ⟨h, hs⟩ happenings hc).2

/-- Whoever was asked to stop before the end has an error for good. -/
theorem Sound.error_live_abort {before after : List Happening} {dfu : Bool}
    (hc : (s.live before).crash? = none) (hf : (s.live before).session.finished = false) :
    (s.live (before ++ .event (.abort dfu) :: after)).session.error.isSome = true := by
  obtain ⟨x, hx⟩ := Option.isSome_iff_exists.mp ((h.live before hc).error_abort hf dfu)
  have hsession : (s.live (before ++ [.event (.abort dfu)])).session
      = ((s.live before).session.handle (.abort dfu)).session := by
    rw [live_append s before _ hc, Turn.session_after]
    cases hy : ((s.live before).session.handle (.abort dfu)).crash? with
    | some c => rw [live_crash hy]
    | none =>
      rw [live_event hy]
      rfl
  rw [← hsession] at hx
  rw [List.append_cons, h.error_stays _ after hx]
  rfl

theorem Sound.signals_live (hf : s.finished = false) (hheeds : s.Heeds) (hs : List Happening)
    (ho : s.collaborators.orchestrator = true) {metadata : DfuMetadata}
    (hm : s.mode = .dfu metadata) :
    Trace.signals (s.live hs).effects
      = if (s.live hs).session.finished then
          .uploadFinished metadata (s.live hs).session.error ::
            (if (s.live hs).session.error.isSome then [.stopDistribution] else [])
        else [] := by
  cases h.fate hf hs with
  | goesOn _ hopen hc =>
    rw [hopen]
    exact Trace.signals_of_closings hc
  | @ended q guard front hk hfront hq he =>
    have hend : (s.live hs).session.finished = true := by
      rw [hq]
      rfl
    have herror : (s.live hs).session.error = q.closed.error := by
      rw [hq]
    -- a request to stop alone adds nothing, since it is an error too
    have hstop : (q.closed.stopRequested || q.closed.error.isSome) = q.closed.error.isSome := by
      have hlast := h.heeds_live hheeds hs (h.crash?_live hs hend)
      rw [hq] at hlast
      cases hr : q.closed.stopRequested with
      | false => rfl
      | true => exact (hlast hr).symm
    rw [he, q.signals_ending hfront,
      q.closed.signals_closingSignals (hk.mode.trans hm)
        ((congrArg Collaborators.orchestrator hk.collaborators).trans ho),
      hstop, hend, herror]
    rfl

theorem Sound.signals_live_direct (hf : s.finished = false) (hs : List Happening)
    (hm : s.mode = .direct) : Trace.signals (s.live hs).effects = [] := by
  cases h.fate hf hs with
  | goesOn _ _ hc => exact Trace.signals_of_closings hc
  | @ended q guard front hk hfront _ he =>
    have hmode : q.closed.mode = .direct := hk.mode.trans hm
    rw [he, q.signals_ending hfront, closingSignals, hmode]
    rfl

end lives

/-- Whatever an upgrade is told, and whoever shares its guard, the orchestrator hears of an upload
when it ends, once and with its error, and of nothing else. -/
theorem signals_fresh (config : Config) (mode : Mode) (image : Option Image)
    (device : Option Device) (collaborators : Collaborators) (guard : Guard)
    (hs : List Happening) :
    Signals (fresh config mode image device collaborators guard) hs := by
  have h := Sound.fresh config mode image device collaborators guard
  have hf : (fresh config mode image device collaborators guard).finished = false := rfl
  have hheeds : (fresh config mode image device collaborators guard).Heeds := nofun
  generalize fresh config mode image device collaborators guard = s at h hf hheeds
  constructor
  case direct => exact h.signals_live_direct hf hs
  case upload => exact fun ho metadata hm => h.signals_live hf hheeds hs ho hm
  case duly => exact fun before e after _ hc => (h.live before hc).signalsDuly e
  case stopped =>
    rintro ho metadata hm before after rfl hc hopen hend
    rw [h.signals_live hf hheeds _ ho hm, hend, h.error_live_abort hc hopen]
    rfl

end Session
end OtaUpgrade
