import Mathlib
import OtaUpgrade.Proofs.Link.UpgradeInvariant
import OtaUpgrade.Proofs.Link.Course

/-!
What a loop has before it. A move is ready if there is something for it to do; the clock moves on
only when nothing else is pending, and nobody asks to stop. In an orderly play every move is ready
when it is made. What is outstanding is counted in moves (`movesLeft`): a move of the worker or an
answer of the mesh core takes one off at least, and what a turn of the session adds is what its
effects ask for.
-/
namespace OtaUpgrade

/-- Steps that the worker has before it. -/
def Adapter.labour {σ : Type} (a : Adapter σ) : Nat :=
  3 * a.jobs.length +
    match a.stage with
    | .resting => 0
    | .collected _ _ => 1
    | .executed _ => 2

theorem Adapter.labour_step {σ : Type} [Link σ] [SteadyLink σ] {a : Adapter σ} (h : a.Direct)
    (hi : a.idle = false) : a.step.1.labour + 1 = a.labour := by
  obtain ⟨name, carriage, link, jobs, stage, alive, sink⟩ := a
  obtain ⟨rfl, rfl⟩ := h
  cases stage with
  | resting =>
    cases jobs with
    | nil => cases hi
    | cons call jobs =>
      obtain ⟨e, he⟩ := Option.isSome_iff_exists.mp (SteadyLink.completes link call)
      simp only [Adapter.step]
      generalize Carriage.plain.perform link call = x at he
      obtain ⟨e', c, l⟩ := x
      obtain rfl : e' = some e := he
      simp only [labour, List.length_cons]
      omega
  | executed e => rfl
  | collected e notices => rfl

/-- A worker with nothing to do brings nothing more. -/
theorem Adapter.forecast_of_idle {σ : Type} [Link σ] {a : Adapter σ} (h : a.idle = true) :
    a.forecast.1 = [] := by
  obtain ⟨hjobs, hstage⟩ := Bool.and_eq_true_iff.mp h
  rw [forecast, eq_of_beq hstage, List.isEmpty_iff.mp hjobs]
  rfl

theorem Adapter.idle_of_forecast_nil {σ : Type} [Link σ] [SteadyLink σ] {a : Adapter σ}
    (h : a.forecast.1 = []) : a.idle = true := by
  obtain ⟨hstage, hjobs, -⟩ := idle_of_forecast h
  rw [idle, hstage, hjobs]
  rfl

namespace ClosedLoop

variable {σ : Type}

/-- The move has something to do. Timeouts run out only while nothing else is pending. -/
def ready (l : ClosedLoop σ) : Move → Bool
  | .deliver => l.host.live && !l.host.inbox.waiting.isEmpty
  | .work => !l.adapter.idle
  | .answer _ => 0 < l.host.asked
  | .expire =>
    l.host.live && l.host.session.timer.armed.isSome && l.host.inbox.waiting.isEmpty
      && l.adapter.idle
  | .abort _ => false

/-- Each move is ready when it is made. -/
def orderly [Link σ] (l : ClosedLoop σ) : List Move → Bool
  | [] => true
  | m :: ms => l.ready m && (l.move m).orderly ms

/-- The move that is played out next is ready. -/
theorem ready_of_nextMove? {l : ClosedLoop σ} {known : Option ComponentMetadata} {m : Move}
    (h : l.nextMove? known = some m) : l.ready m = true := by
  unfold nextMove? at h
  split at h
  · cases h
  · next hlive =>
    have hlive : l.host.live = true := by simpa using hlive
    split at h
    · next hasked =>
      obtain rfl := Option.some.inj h
      exact decide_eq_true hasked
    · split at h
      · next hwaiting =>
        obtain rfl := Option.some.inj h
        rw [ready, hlive]
        exact hwaiting
      · next hwaiting =>
        split at h
        · next hidle =>
          obtain rfl := Option.some.inj h
          exact hidle
        · next hidle =>
          split at h
          · next harmed =>
            obtain rfl := Option.some.inj h
            simp only [Bool.not_eq_true, Bool.not_eq_false'] at hwaiting hidle
            rw [ready, hlive, harmed, hwaiting, hidle]
            rfl
          · cases h

/-! ## Counting -/

/-- Moves before the worker, the mesh core and the inbox, and in the worker's hands. -/
def outstanding [Link σ] (l : ClosedLoop σ) : Nat :=
  l.adapter.labour + l.adapter.forecast.1.length + l.host.inbox.waiting.length + 2 * l.host.asked

/-- Moves that a loop can take at most, as long as nothing goes wrong. -/
def movesLeft [Link σ] (l : ClosedLoop σ) : Nat :=
  l.host.session.movesLeft + l.outstanding

theorem movesLeft_pos [Link σ] (l : ClosedLoop σ) : 0 < l.movesLeft :=
  Nat.lt_of_lt_of_le l.host.session.movesLeft_pos (Nat.le_add_right _ _)

/-- A turn leaves what was outstanding, and adds what it asks for. -/
theorem movesLeft_handle [Link σ] {l : ClosedLoop σ} (h : l.adapter.Direct) (e : Event) :
    (l.handle e).movesLeft = l.outstanding
      + ((l.host.session.handle e).session.movesLeft
        + 3 * (Trace.calls (l.host.session.handle e).effects).length
        + (Link.answeredAll l.adapter.forecast.2
            (Trace.calls (l.host.session.handle e).effects)).1.length
        + 2 * (Trace.meshRequests (l.host.session.handle e).effects).length) := by
  obtain ⟨hhost, hc⟩ := charged_handle l h e
  simp only [movesLeft, outstanding, Adapter.labour, hhost, Host.absorb, hc.jobs, hc.stage,
    hc.forecast, List.length_append]
  omega

/-- Whether the device is bound after effects is what their trace says. -/
theorem sink_exert (l : ClosedLoop σ) (es : List Effect) :
    (es.foldl exert l).adapter.sink.isSome = Trace.bound l.adapter.sink.isSome es := by
  induction es generalizing l with
  | nil => rfl
  | cons e es ih =>
    rw [List.foldl_cons, ih]
    cases e with
    | bind | release | report | askMesh | signal => rfl
    | call c =>
      have hsink : (l.exert (.call c)).adapter.sink = l.adapter.sink := by
        simp only [exert, Adapter.submit]
        split <;> rfl
      rw [hsink]
      rfl

/-- A session that does not break down leaves its device as its turn says. -/
theorem sink_handle [Link σ] {l : ClosedLoop σ} (h : l.adapter.Direct) {e : Event}
    (hc : (l.host.session.handle e).crash? = none) :
    (l.handle e).adapter.sink.isSome
      = Trace.bound l.adapter.sink.isSome (l.host.session.handle e).effects := by
  have hhost := (exertAll_of_alive { l with host := l.host.absorb (l.host.session.handle e) }
    h.alive (l.host.session.handle e).effects).1
  have hcrash : ((l.host.session.handle e).effects.foldl exert
      { l with host := l.host.absorb (l.host.session.handle e) }).host.crash.isSome = false := by
    rw [hhost]
    exact congrArg Option.isSome hc
  unfold handle
  dsimp only
  rw [hcrash, if_neg Bool.false_ne_true]
  exact sink_exert _ _

/-! ## Moves -/

/-- The loop with these events waiting instead. -/
def awaiting (l : ClosedLoop σ) (es : List Event) : ClosedLoop σ :=
  { l with host := { l.host with inbox := { l.host.inbox with waiting := es } } }

/-- The loop with events behind those that wait. -/
def behind (l : ClosedLoop σ) (es : List Event) : ClosedLoop σ :=
  l.awaiting (l.host.inbox.waiting ++ es)

theorem move_deliver [Link σ] {l : ClosedLoop σ} (hl : l.host.live = true) {e : Event}
    {rest : List Event} (hw : l.host.inbox.waiting = e :: rest) :
    l.move .deliver = (l.awaiting rest).handle e := by
  simp only [move, hl, Host.next?, hw]
  rfl

theorem receive_of_open {l : ClosedLoop σ} (ho : l.host.inbox.closed = false) (es : List Event) :
    l.receive es = l.behind es := by
  unfold receive Host.post behind awaiting
  rw [Inbox.postAll_of_open ho]

/-- A step of the worker posts at most what was the next to come. -/
theorem move_work [Link σ] {l : ClosedLoop σ} (ho : l.host.inbox.closed = false) :
    l.move .work = { l with adapter := l.adapter.step.1 }.behind l.adapter.step.2.events :=
  receive_of_open (l := { l with adapter := l.adapter.step.1 }) ho _

/-- The mesh core owes nothing afterwards, and told nothing but what it was asked for. -/
theorem move_answer [Link σ] {l : ClosedLoop σ} (ho : l.host.inbox.closed = false)
    (known : Option ComponentMetadata) :
    ∃ es, l.move (.answer known) = { l with host := { l.host with asked := 0 } }.behind es ∧
      es.length ≤ l.host.asked ∧ ∀ e ∈ es, ∃ known, e = .meshMetadata known := by
  cases known with
  | none =>
    refine ⟨[], ?_, Nat.zero_le _, nofun⟩
    simp [move, Host.answerMesh, behind, awaiting]
  | some m =>
    refine ⟨.replicate l.host.asked (.meshMetadata (some m)), ?_, ?_, ?_⟩
    · simp only [move, Host.answerMesh, Host.post, Inbox.postAll_of_open ho, behind, awaiting]
    · exact Nat.le_of_eq List.length_replicate
    · intro e he
      exact ⟨some m, List.eq_of_mem_replicate he⟩

theorem movesLeft_behind [Link σ] (l : ClosedLoop σ) (es : List Event) :
    (l.behind es).movesLeft = l.movesLeft + es.length := by
  simp only [movesLeft, outstanding, behind, awaiting, List.length_append]
  omega

theorem movesLeft_work [Link σ] [SteadyLink σ] {l : ClosedLoop σ} (h : l.adapter.Direct)
    (ho : l.host.inbox.closed = false) (hi : l.adapter.idle = false) :
    (l.move .work).movesLeft < l.movesLeft := by
  obtain ⟨-, -, -, es, hes, hposted⟩ := h.step
  have hlabour := Adapter.labour_step h hi
  have hle : l.adapter.step.2.events.length ≤ es.length := by
    rw [hposted]
    split
    · exact Nat.le_refl _
    · exact Nat.zero_le _
  have hlength := congrArg List.length hes
  rw [List.length_append] at hlength
  rw [move_work ho, movesLeft_behind]
  simp only [movesLeft, outstanding]
  omega

theorem movesLeft_answer [Link σ] {l : ClosedLoop σ} (ho : l.host.inbox.closed = false)
    (ha : 0 < l.host.asked) (known : Option ComponentMetadata) :
    (l.move (.answer known)).movesLeft < l.movesLeft := by
  obtain ⟨es, hmove, hle, -⟩ := move_answer ho known
  rw [hmove, movesLeft_behind]
  simp only [movesLeft, outstanding]
  omega

end ClosedLoop
end OtaUpgrade
