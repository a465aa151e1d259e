import Mathlib
import OtaUpgrade.Proofs.Link.Soundness
import OtaUpgrade.Proofs.Session.Success
import OtaUpgrade.Session.ClosedLoop

/-!
The course of an upgrade in a loop with a simulated peripheral. A loop is in one of four stages: the
upgrade goes on in agreement with the peripheral, an error was recorded, the session broke down, or
the image was delivered (`Stage`). Whatever happens next leads from a stage to a stage, and the only
way to the end without error is by delivery.
-/
namespace OtaUpgrade

/-- Something that happens to a loop: a move, or someone other than the device tells the session
something. -/
inductive Occurrence where
  | move (m : Move)
  | told (e : Event) (outside : e.fromDevice = false)

namespace ClosedLoop

section loop

variable {σ : Type} [Link σ]

/-- The loop after an occurrence. -/
def undergo (l : ClosedLoop σ) : Occurrence → ClosedLoop σ
  | .move m => l.move m
  | .told e _ => l.receive [e]

/-- The loop after all that occurs. -/
def undergoAll (l : ClosedLoop σ) (os : List Occurrence) : ClosedLoop σ :=
  os.foldl undergo l

/-- What the session is still to be told by its device. -/
def pending (l : ClosedLoop σ) : List Event :=
  l.host.inbox.waiting.filter Event.fromDevice ++ l.adapter.forecast.1

end loop

section loop

variable {σ : Type} [Link σ] {l : ClosedLoop σ}

/-- The oldest event that waits is the next one pending, or comes from elsewhere and never was. -/
theorem takes_pending {e : Event} {rest : List Event} (hw : l.host.inbox.waiting = e :: rest) :
    Takes l.pending e (rest.filter Event.fromDevice ++ l.adapter.forecast.1) := by
  rw [pending, hw]
  cases hd : e.fromDevice with
  | false =>
    rw [List.filter_cons_of_neg (by simp [hd])]
    exact .elsewhere hd
  | true =>
    rw [List.filter_cons_of_pos hd]
    exact .front e _

end loop

/-- The adapter has taken in these calls and nothing else has changed. -/
structure Charged {σ : Type} [Link σ] (a a' : Adapter σ) (calls : List DeviceCall) : Prop where
  direct : a'.Direct
  link : a'.link = a.link
  stage : a'.stage = a.stage
  jobs : a'.jobs = a.jobs ++ calls
  forecast : a'.forecast
    = (a.forecast.1 ++ (Link.answeredAll a.forecast.2 calls).1,
        (Link.answeredAll a.forecast.2 calls).2)

section charge

variable {σ : Type}

/-- As long as its worker runs, the effects of a turn only give it jobs and bind it or not. -/
theorem exertAll_of_alive (l : ClosedLoop σ) (ha : l.adapter.alive = true) (es : List Effect) :
    (es.foldl exert l).host = l.host ∧
      ∃ sink, (es.foldl exert l).adapter
        = { l.adapter with jobs := l.adapter.jobs ++ Trace.calls es, sink } := by
  induction es generalizing l with
  | nil => exact ⟨rfl, l.adapter.sink, by simp [Trace.calls]⟩
  | cons e es ih =>
    cases e with
    | report | askMesh | signal => exact ih l ha
    | bind => exact ih { l with adapter := l.adapter.bind 0 } ha
    | release => exact ih { l with adapter := l.adapter.release } ha
    | call c =>
      have hx : l.exert (.call c)
          = { l with adapter := { l.adapter with jobs := l.adapter.jobs ++ [c] } } := by
        simp only [exert, Adapter.submit, ha]
        rfl
      rw [List.foldl_cons, hx]
      obtain ⟨hh, sink, hs⟩ :=
        ih { l with adapter := { l.adapter with jobs := l.adapter.jobs ++ [c] } } ha
      refine ⟨hh, sink, ?_⟩
      rw [hs]
      simp [Trace.calls, Effect.call?]

theorem handle_of_alive (l : ClosedLoop σ) (ha : l.adapter.alive = true) (e : Event) :
    (l.handle e).host = l.host.absorb (l.host.session.handle e) ∧
      ∃ sink, (l.handle e).adapter
        = { l.adapter with
            jobs := l.adapter.jobs ++ Trace.calls (l.host.session.handle e).effects
            sink } := by
  obtain ⟨hh, sink, hs⟩ :=
    exertAll_of_alive { l with host := l.host.absorb (l.host.session.handle e) } ha
      (l.host.session.handle e).effects
  unfold handle
  dsimp only
  split
  · exact ⟨hh, none, by rw [hs]; rfl⟩
  · exact ⟨hh, sink, hs⟩

theorem charged_handle [Link σ] (l : ClosedLoop σ) (h : l.adapter.Direct) (e : Event) :
    (l.handle e).host = l.host.absorb (l.host.session.handle e) ∧
      Charged l.adapter (l.handle e).adapter
        (Trace.calls (l.host.session.handle e).effects) := by
  obtain ⟨hhost, sink, hadapter⟩ := l.handle_of_alive h.alive e
  refine ⟨hhost, ?_⟩
  rw [hadapter]
  exact ⟨⟨h.alive, h.plain⟩, rfl, rfl, rfl, l.adapter.forecast_append _ sink⟩

end charge

/-! ## Stages -/

/-- How far the upgrade has come. -/
inductive Stage (setup : PeripheralSetup) (image : Option Image) (l : ClosedLoop Peripheral) :
    Prop where
  | broken (hc : l.host.crash.isSome = true) (hf : l.host.session.finished = false)
  | failed (hc : l.host.crash = none) (hs : l.host.session.Sound)
      (he : l.host.session.error.isSome = true)
  | goesOn (hc : l.host.crash = none) (hs : l.host.session.Sound)
      (hf : l.host.session.finished = false) (he : l.host.session.error = none)
      (hi : l.host.session.image = image)
      (ha : l.host.session.Agrees l.pending l.adapter.forecast.2)
      (hq : l.adapter.forecast.2.Quiet setup)
  /-- The end without error. Nothing is left to do but to close the link. -/
  | delivered {i : Image} (hf : l.host.session.finished = true) (hi : image = some i)
      (hd : Delivered i l.adapter.link.log) (hj : ∀ c ∈ l.adapter.jobs, c = .disconnect)

/-- A loop on its way: its worker runs, its inbox is open. -/
structure Course (setup : PeripheralSetup) (image : Option Image) (l : ClosedLoop Peripheral) :
    Prop where
  direct : l.adapter.Direct
  opened : l.host.inbox.closed = false
  stage : Stage setup image l

section

variable {setup : PeripheralSetup} {image : Option Image} {l : ClosedLoop Peripheral}

/-- A session that breaks down does not come to its end. -/
theorem Stage.handle_crash (hd : l.adapter.Direct) {e : Event} {c : Crash}
    (hs : l.host.session.Sound) (hc : (l.host.session.handle e).crash? = some c) :
    Stage setup image (l.handle e) := by
  obtain ⟨hhost, -⟩ := charged_handle l hd e
  refine .broken (by rw [hhost]; exact congrArg Option.isSome hc) ?_
  rw [hhost]
  cases hfin : (l.host.session.handle e).session.finished with
  | false => exact hfin
  | true =>
    rw [hs.crash?_of_finished e hfin] at hc
    cases hc

theorem Stage.handle_failed (hd : l.adapter.Direct) (e : Event) (hs : l.host.session.Sound)
    (he : l.host.session.error.isSome = true) : Stage setup image (l.handle e) := by
  obtain ⟨hhost, -⟩ := charged_handle l hd e
  cases hc : (l.host.session.handle e).crash? with
  | some c => exact .handle_crash hd hs hc
  | none =>
    refine .failed (by rw [hhost]; exact hc) (by rw [hhost]; exact hs.handle e hc) ?_
    rw [hhost]
    exact (hs.deed e).error_isSome he

/-- An event that a session under way is told leads on. -/
theorem Stage.handle_goesOn (hreject : setup.rejects ≠ some (.verify, .success))
    (hd : l.adapter.Direct) {e : Event} {queue : List Event} (hs : l.host.session.Sound)
    (hf : l.host.session.finished = false) (hi : l.host.session.image = image)
    (ha : l.host.session.Agrees queue l.adapter.forecast.2)
    (hq : l.adapter.forecast.2.Quiet setup) (ht : Takes queue e l.pending) :
    Stage setup image (l.handle e) := by
  obtain ⟨hhost, hcharged⟩ := charged_handle l hd e
  have hdeed := hs.deed e
  have halike := (hs.alike e).image
  rw [← Trace.calls_dealings] at hcharged
  cases hc : (l.host.session.handle e).crash? with
  | some c => exact .handle_crash hd hs hc
  | none =>
    have hcrash : (l.handle e).host.crash = none := by rw [hhost]; exact hc
    have hsession : (l.handle e).host.session = (l.host.session.handle e).session := by
      rw [hhost]
      rfl
    have hsound := hs.handle e hc
    cases her : (l.host.session.handle e).session.error with
    | some error => exact .failed hcrash (hsession ▸ hsound) (by rw [hsession, her]; rfl)
    | none =>
      cases hfin : (l.host.session.handle e).session.finished with
      | false =>
        obtain ⟨hagrees, hquiet⟩ :=
          hdeed.agrees hreject hs halike her (hsound.not_complete hfin) ha hq ht
        have hpending : (l.handle e).pending
            = l.pending ++ (Link.answeredAll l.adapter.forecast.2
                (Trace.calls (Trace.dealings (l.host.session.handle e).effects))).1 := by
          unfold pending
          rw [hcharged.forecast, hhost, List.append_assoc]
          rfl
        refine .goesOn hcrash (hsession ▸ hsound) (hsession ▸ hfin) (hsession ▸ her)
          (hsession ▸ halike.trans hi) ?_ ?_
        · rw [hsession, hpending, hcharged.forecast]
          exact hagrees
        · rw [hcharged.forecast]
          exact hquiet
      | true =>
        have hend := hsound.finished_iff.mp hfin
        obtain ⟨i, him, hempty, hdel, hcalls⟩ :=
          hdeed.delivers hs hf hend her ha ht
        -- nothing was to come: the worker rests, and its link is the one forecast
        have hnone : l.adapter.forecast.1 = [] := (List.append_eq_nil_iff.mp hempty).2
        obtain ⟨hrest, hjobs, hlink⟩ := Adapter.idle_of_forecast hnone
        refine .delivered (hsession ▸ hfin) (hi.symm.trans him) ?_ ?_
        · rw [hcharged.link, ← hlink]
          exact hdel
        · rw [hcharged.jobs, hjobs]
          exact hcalls

theorem Course.handle (hreject : setup.rejects ≠ some (.verify, .success))
    {l' : ClosedLoop Peripheral} (h : Course setup image l) {e : Event} (hl : l.host.live = true)
    (hsession : l'.host.session = l.host.session) (hadapter : l'.adapter = l.adapter)
    (hopened : l'.host.inbox.closed = false) (ht : Takes l.pending e l'.pending) :
    Course setup image (l'.handle e) := by
  have hd : l'.adapter.Direct := hadapter ▸ h.direct
  obtain ⟨hhost, hcharged⟩ := charged_handle l' hd e
  have hlive : l.host.session.finished = false ∧ l.host.crash = none := by
    simpa [Host.live] using hl
  refine ⟨hcharged.direct, by rw [hhost]; exact hopened, ?_⟩
  cases h.stage with
  | broken hc =>
    rw [hlive.2] at hc
    cases hc
  | failed hc hs he =>
    exact .handle_failed hd e (hsession ▸ hs) (hsession ▸ he)
  | goesOn hc hs hf he hi ha hq =>
    exact .handle_goesOn hreject hd (hsession ▸ hs) (hsession ▸ hf) (hsession ▸ hi)
      (by rw [hsession, hadapter]; exact ha) (by rw [hadapter]; exact hq) ht
  | delivered hf => exact absurd (hlive.1.symm.trans hf) nofun

/-- Events from elsewhere may be put into the inbox at any time. -/
theorem Course.receive (h : Course setup image l) {es : List Event}
    (hn : ∀ e ∈ es, e.fromDevice = false) : Course setup image (l.receive es) := by
  have hpost : (l.receive es).host.inbox
      = { l.host.inbox with waiting := l.host.inbox.waiting ++ es } :=
    Inbox.postAll_of_open h.opened es
  have hpending : (l.receive es).pending = l.pending := by
    unfold pending
    have hes : es.filter Event.fromDevice = [] :=
      List.filter_eq_nil_iff.mpr fun e he => by simp [hn e he]
    rw [hpost, List.filter_append, hes, List.append_nil]
    rfl
  refine ⟨h.direct, by rw [hpost]; exact h.opened, ?_⟩
  cases h.stage with
  | broken hc hf => exact .broken hc hf
  | failed hc hs he => exact .failed hc hs he
  | goesOn hc hs hf he hi ha hq => exact .goesOn hc hs hf he hi (hpending ▸ ha) hq
  | delivered hf hi hd hj => exact .delivered hf hi hd hj

/-- A step of a worker that is to close the link, and to do nothing else, changes no more than the
state of the link. -/
theorem step_parting {a : Adapter Peripheral} (hj : ∀ c ∈ a.jobs, c = .disconnect) :
    (∃ connected disconnects notifying,
      a.step.1.link.log = { a.link.log with connected, disconnects, notifying }) ∧
      ∀ c ∈ a.step.1.jobs, c = .disconnect := by
  obtain ⟨name, carriage, link, jobs, stage, alive, sink⟩ := a
  cases stage with
  | resting =>
    cases jobs with
    | nil => exact ⟨⟨_, _, _, rfl⟩, hj⟩
    | cons c jobs =>
      obtain rfl : c = .disconnect := hj c List.mem_cons_self
      refine ⟨?_, fun c hc => hj c (List.mem_cons_of_mem _ hc)⟩
      simp only [Adapter.step, Carriage.perform, Link.disconnect, DeviceCall.completion?]
      split <;> exact ⟨_, _, _, rfl⟩
  | executed e => exact ⟨⟨_, _, _, rfl⟩, hj⟩
  | collected e notices => exact ⟨⟨_, _, _, rfl⟩, hj⟩

/-- A step of the worker closes the link at most, once the image is delivered. -/
theorem Delivered.step {i : Image} {a : Adapter Peripheral} (h : Delivered i a.link.log)
    (hj : ∀ c ∈ a.jobs, c = .disconnect) :
    Delivered i a.step.1.link.log ∧ ∀ c ∈ a.step.1.jobs, c = .disconnect := by
  obtain ⟨⟨connected, disconnects, notifying, hlog⟩, hjobs⟩ := step_parting hj
  rw [hlog]
  exact ⟨⟨h.received, h.announced, h.verified⟩, hjobs⟩

/-- A step of the worker brings the session nothing but what was to come. -/
theorem Course.work (h : Course setup image l) : Course setup image (l.move .work) := by
  obtain ⟨hdirect, -, hlink, es, hes, hposted⟩ := h.direct.step
  have hpost : (l.move .work).host.inbox
      = { l.host.inbox with waiting := l.host.inbox.waiting ++ l.adapter.step.2.events } :=
    Inbox.postAll_of_open h.opened _
  -- what is posted was the head of the forecast; without an inbox it is lost
  have hpending : (l.move .work).pending.Sublist l.pending := by
    unfold pending
    rw [hpost, List.filter_append, List.append_assoc, hes]
    refine List.Sublist.append (List.Sublist.refl _) (List.Sublist.append ?_ (List.Sublist.refl _))
    refine List.Sublist.trans List.filter_sublist ?_
    rw [hposted]
    split
    · exact List.Sublist.refl _
    · exact List.nil_sublist _
  refine ⟨hdirect, by rw [hpost]; exact h.opened, ?_⟩
  cases h.stage with
  | broken hc hf => exact .broken hc hf
  | failed hc hs he => exact .failed hc hs he
  | goesOn hc hs hf he hi ha hq =>
    refine .goesOn hc hs hf he hi ?_ (show (l.adapter.step.1.forecast.2).Quiet setup from ?_)
    · show l.host.session.Agrees _ l.adapter.step.1.forecast.2
      rw [hlink]
      exact ha.sublist hpending
    · rw [hlink]
      exact hq
  | delivered hf hi hd hj =>
    obtain ⟨hd, hj⟩ := Delivered.step hd hj
    exact .delivered hf hi hd hj

end

end ClosedLoop
end OtaUpgrade
