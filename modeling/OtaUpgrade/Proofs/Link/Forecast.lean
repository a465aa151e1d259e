import Mathlib
import OtaUpgrade.Link.Adapter

/-!
What a worker will still post, and what it will leave of its link. As nobody but the worker touches
the link, both are settled by the jobs it has: a new job adds its answer at the end of the forecast,
and each step of the worker only turns the head of the forecast into events. So an adapter can be
thought to make every call at the moment it is asked for.
-/
namespace OtaUpgrade

variable {σ : Type} [Link σ]

/-- The plain carriage stays plain. -/
theorem Carriage.perform_plain (link : σ) (call : DeviceCall) :
    (Carriage.plain.perform link call).2.1 = .plain := by
  cases call <;> rfl

/-- What a call comes to when it is made directly: its completion, the notices raised meanwhile, and
the link afterwards. -/
def Link.answered (link : σ) (call : DeviceCall) : List Event × σ :=
  let made := Carriage.plain.perform link call
  let taken := Link.takeNotices made.2.2
  (made.1.toList ++ taken.1.map Carriage.plain.noticed, taken.2)

/-- What calls come to, made one after the other. -/
def Link.answeredAll (link : σ) : List DeviceCall → List Event × σ
  | [] => ([], link)
  | call :: calls =>
    let first := answered link call
    let rest := answeredAll first.2 calls
    (first.1 ++ rest.1, rest.2)

/-- A link whose driver never breaks down. -/
class SteadyLink (σ : Type) [Link σ] : Prop where
  completes : ∀ (link : σ) (call : DeviceCall), (Carriage.plain.perform link call).1.isSome = true

namespace Link

theorem answeredAll_append (link : σ) (calls more : List DeviceCall) :
    answeredAll link (calls ++ more)
      = ((answeredAll link calls).1 ++ (answeredAll (answeredAll link calls).2 more).1,
          (answeredAll (answeredAll link calls).2 more).2) := by
  induction calls generalizing link with
  | nil => simp [answeredAll]
  | cons first calls ih => simp [answeredAll, ih]

theorem answered_ne_nil [SteadyLink σ] (link : σ) (call : DeviceCall) :
    (answered link call).1 ≠ [] := by
  obtain ⟨e, he⟩ := Option.isSome_iff_exists.mp (SteadyLink.completes link call)
  simp [answered, he]

end Link

namespace Adapter

/-- The events to come, were an inbox bound all the time, and the link behind them. -/
def forecast (a : Adapter σ) : List Event × σ :=
  match a.stage with
  | .resting => Link.answeredAll a.link a.jobs
  | .executed completion =>
    let taken := Link.takeNotices a.link
    let rest := Link.answeredAll taken.2 a.jobs
    (completion :: taken.1.map Carriage.plain.noticed ++ rest.1, rest.2)
  | .collected completion notices =>
    let rest := Link.answeredAll a.link a.jobs
    (completion :: notices.map Carriage.plain.noticed ++ rest.1, rest.2)

/-- The worker runs, and makes its calls directly. -/
structure Direct (a : Adapter σ) : Prop where
  alive : a.alive = true
  plain : a.carriage = .plain

/-- Jobs are answered after all that was to come before, whether or not an inbox is bound. -/
theorem forecast_append (a : Adapter σ) (calls : List DeviceCall) (sink : Option Nat) :
    ({ a with jobs := a.jobs ++ calls, sink } : Adapter σ).forecast
      = (a.forecast.1 ++ (Link.answeredAll a.forecast.2 calls).1,
          (Link.answeredAll a.forecast.2 calls).2) := by
  unfold forecast
  cases a.stage <;> simp [Link.answeredAll_append]

variable {a : Adapter σ}

/-- A step of the worker posts the head of the forecast or nothing, and leaves the rest. -/
theorem Direct.step [SteadyLink σ] (h : a.Direct) :
    a.step.1.Direct ∧ a.step.1.sink = a.sink ∧ a.step.1.forecast.2 = a.forecast.2 ∧
      ∃ es, a.forecast.1 = es ++ a.step.1.forecast.1 ∧
        a.step.2.events = if a.sink.isSome then es else [] := by
  obtain ⟨name, carriage, link, jobs, stage, alive, sink⟩ := a
  obtain ⟨rfl, rfl⟩ := h
  -- only `collected` posts; the other two stages move on within the forecast
  cases stage with
  | resting =>
    cases jobs with
    | nil => exact ⟨⟨rfl, rfl⟩, rfl, rfl, [], rfl, by cases sink <;> rfl⟩
    | cons call jobs =>
      have hp := Carriage.perform_plain link call
      obtain ⟨e, he⟩ := Option.isSome_iff_exists.mp (SteadyLink.completes link call)
      simp only [Adapter.step, forecast, Link.answeredAll, Link.answered]
      generalize Carriage.plain.perform link call = x at hp he
      obtain ⟨e', c, l⟩ := x
      obtain rfl : e' = some e := he
      obtain rfl : c = .plain := hp
      exact ⟨⟨rfl, rfl⟩, rfl, rfl, [], rfl, by cases sink <;> rfl⟩
  | executed e => exact ⟨⟨rfl, rfl⟩, rfl, rfl, [], rfl, by cases sink <;> rfl⟩
  | collected e notices =>
    refine ⟨⟨rfl, rfl⟩, rfl, rfl, e :: notices.map Carriage.plain.noticed, rfl, ?_⟩
    cases sink <;> rfl

/-- A worker from which nothing is to come has nothing to do. -/
theorem idle_of_forecast [SteadyLink σ] (h : a.forecast.1 = []) :
    a.stage = .resting ∧ a.jobs = [] ∧ a.forecast.2 = a.link := by
  unfold forecast at h ⊢
  cases hs : a.stage with
  | resting =>
    rw [hs] at h
    cases hj : a.jobs with
    | nil => exact ⟨rfl, rfl, rfl⟩
    | cons call jobs =>
      -- every job is answered by its completion at least
      rw [hj] at h
      simp [Link.answeredAll, Link.answered_ne_nil] at h
  | executed => simp [hs] at h
  | collected => simp [hs] at h

end Adapter
end OtaUpgrade
