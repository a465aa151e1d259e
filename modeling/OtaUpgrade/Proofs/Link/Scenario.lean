import Mathlib
import OtaUpgrade.Proofs.Link.Delivery
import OtaUpgrade.Proofs.Link.MovesLeft
import OtaUpgrade.Proofs.Link.Replied

/-!
A way for an upgrade to go. A scenario says how a session, what it is still to be told and the
peripheral behind that stand to each other on the way, and what the session and the peripheral have
come to at the end. Once every turn of a session is known to keep to it (`Sustained`), a loop that
begins in it comes to its end: as long as it is on its way some move is ready, and every ready move
leaves fewer of them (`Runs.move`). So whatever the order of the moves, and be it through a tunnel
or not, the outcome is the one the scenario has (`Runs.comesTo`, `Mirrors.comesTo`).
-/
namespace OtaUpgrade

/-- What can wait for a session as long as nobody asks it to stop. -/
def Event.Ordinary (e : Event) : Prop :=
  e.fromDevice = true ∨ e = .start ∨ ∃ known, e = .meshMetadata known

/-- How an upgrade goes, and what comes of it. -/
structure Scenario where
  /-- How a session stands to what it is still to be told, and to the peripheral behind that. -/
  Way : Session → List Event → Peripheral → Prop
  /-- What the session and its peripheral have come to at the end. -/
  Outcome : Session → PeripheralLog → Prop

namespace Scenario

/-! ## Turns -/

/-- A turn that leaves the session on its way and waiting, with at most `n` moves left. -/
structure Continues (c : Scenario) (n : Nat) (bound : Bool) (queue : List Event) (q : Peripheral)
    (t : Turn) : Prop where
  whole : t.crash? = none
  begun : t.session.phase ≠ .idle
  way : c.Way t.session (queue ++ (Link.answeredAll q (Trace.calls t.effects)).1)
    (Link.answeredAll q (Trace.calls t.effects)).2
  spent : Undertaking.toDo q t ≤ n
  bound : Trace.bound bound t.effects = true

/-- A turn that ends the upgrade. Nothing more was to come, and all that the device is asked for is
to close the link. -/
structure Closes (c : Scenario) (n : Nat) (rest : List Event) (q : Peripheral) (t : Turn) :
    Prop where
  whole : t.crash? = none
  finished : t.session.finished = true
  empty : rest = []
  outcome : c.Outcome t.session q.log
  calls : ∀ call ∈ Trace.calls t.effects, call = .disconnect
  spent : Undertaking.toDo q t ≤ n

/-- A turn that keeps to the scenario, with at most `n` moves left. -/
inductive Proceeds (c : Scenario) (n : Nat) (bound : Bool) (rest : List Event) (q : Peripheral)
    (t : Turn) : Prop where
  | continues (h : c.Continues n bound rest q t)
  | closes (h : c.Closes n rest q t)

/-- Every turn keeps to the scenario: on what the device replies, on what comes from elsewhere, and
on a timeout when nothing else is to come. -/
structure Sustained (c : Scenario) : Prop where
  unfinished {s : Session} {queue : List Event} {q : Peripheral} (hw : c.Way s queue q) :
    s.finished = false
  fromDevice {s : Session} {queue : List Event} {q : Peripheral} (hw : c.Way s queue q) :
    ∀ e ∈ queue, e.fromDevice = true
  unbegun {s : Session} {queue : List Event} {q : Peripheral} (h : s.Sound)
    (hw : c.Way s queue q) (hp : s.phase = .idle) : queue = []
  replied {s : Session} {e : Event} {rest : List Event} {q : Peripheral} (h : s.Sound)
    (ht : s.Timed) (hw : c.Way s (e :: rest) q) :
    c.Proceeds s.movesLeft true rest q (s.handle e)
  told {s : Session} {e : Event} {queue : List Event} {q : Peripheral} {b : Bool} (h : s.Sound)
    (ht : s.Timed) (he : e = .start ∨ s.phase ≠ .idle ∧ ∃ known, e = .meshMetadata known)
    (hw : c.Way s queue q) (hb : s.phase ≠ .idle → b = true) :
    c.Continues s.movesLeft b queue q (s.handle e)
  expired {s : Session} {x : Timeout} {q : Peripheral} (h : s.Sound) (ht : s.Timed)
    (hx : s.timer.armed = some x) (hw : c.Way s [] q) :
    c.Continues (s.movesLeft - 1) true [] q (s.handle (.timeout x.id))
  /-- The state of the link does not matter to what has come of an upgrade. -/
  parted {s : Session} {log : PeripheralLog} (ho : c.Outcome s log) (connected : Bool)
    (disconnects : Nat) (notifying : Bool) :
    c.Outcome s { log with connected, disconnects, notifying }

theorem Continues.mono {c : Scenario} {n m : Nat} {b : Bool} {queue : List Event} {q : Peripheral}
    {t : Turn} (h : c.Continues n b queue q t) (hm : n ≤ m) : c.Continues m b queue q t :=
  ⟨h.whole, h.begun, h.way, Nat.le_trans h.spent hm, h.bound⟩

/-- Effects in front that ask nothing matter only if they bind the device. -/
theorem Continues.after {c : Scenario} {n : Nat} {b b' : Bool} {queue : List Event}
    {q : Peripheral} {t : Turn} {es : List Effect} (h : c.Continues n b' queue q t)
    (hcalls : Trace.calls es = []) (hasks : Trace.meshRequests es = [])
    (hb : Trace.bound b es = b') : c.Continues n b queue q (t.after es) := by
  obtain ⟨hcs, htoDo⟩ := Undertaking.toDo_after (t := t) (q := q) hcalls hasks
  refine ⟨h.whole, h.begun, ?_, ?_, ?_⟩
  · rw [hcs]
    exact h.way
  · rw [htoDo]
    exact h.spent
  · have hbound := h.bound
    rw [← hb] at hbound
    rw [Turn.effects_after, Trace.bound, List.foldl_append]
    exact hbound

/-- A session that only waits stays on its way. -/
theorem continues_stay {c : Scenario} {r : Session} {n : Nat} {queue : List Event} {q : Peripheral}
    (hi : r.phase ≠ .idle) (hw : c.Way r queue q) (hn : r.movesLeft ≤ n) :
    c.Continues n true queue q r.stay := by
  refine ⟨rfl, hi, ?_, hn, rfl⟩
  show c.Way r (queue ++ []) q
  rw [List.append_nil]
  exact hw

/-- So does one that asks its device for something, if it is on its way with the answer to come. -/
theorem continues_ask {c : Scenario} {r : Session} {n : Nat} {q q' : Peripheral} {d : Device}
    {call : DeviceCall} {es : List Event} (hb : d.breaksOn = []) (hi : r.phase ≠ .idle)
    (hx : Link.answered q call = (es, q')) (hes : es.length ≤ 2) (hw : c.Way r es q')
    (hn : r.movesLeft + 5 ≤ n) : c.Continues n true [] q (r.ask d call) := by
  have hcs : Trace.calls (r.ask d call).effects = [call] := rfl
  have hms : Trace.meshRequests (r.ask d call).effects = [] := rfl
  have hall : Link.answeredAll q [call] = (es, q') := by simp [Link.answeredAll, hx]
  refine ⟨?_, hi, ?_, ?_, rfl⟩
  · simp [Turn.crash?, Session.ask, hb]
  · rw [hcs, hall]
    exact hw
  · simp only [Undertaking.toDo, hcs, hms, hall, List.length_singleton, List.length_nil,
      Session.session_ask]
    omega

/-- On entering the end a session is over, and all that it still asks for is to close the link. -/
theorem closes_of_complete {c : Scenario} {r : Session} {n : Nat} {q : Peripheral} {d : Device}
    (hf : r.finished = false) (hd : r.device = some d) (hb : d.breaksOn = [])
    (hq : q.notices = []) (ho : c.Outcome r.closed q.log) (hn : r.movesFrom .complete ≤ n) :
    c.Closes n [] q (r.proceed .complete) := by
  rw [Session.proceed_complete_of_sturdy hf hd hb]
  refine ⟨rfl, rfl, rfl, ho, ?_, Nat.le_trans (Undertaking.toDo_farewell r hq) hn⟩
  intro call hc
  have hc : call ∈ Trace.calls (r.parting.map .call ++ r.farewell) := hc
  rw [r.asked_farewell.1] at hc
  exact r.calls_parting call hc

/-! ## Loops -/

/-- The upgrade is under way in the loop, or about to begin. -/
structure Goes (c : Scenario) (l : ClosedLoop Peripheral) : Prop where
  whole : l.host.crash = none
  sound : l.host.session.Sound
  timed : l.host.session.Timed
  way : c.Way l.host.session l.pending l.adapter.forecast.2
  bound : l.host.session.phase ≠ .idle → l.adapter.sink.isSome = true
  unbegun : l.host.session.phase = .idle →
    l.host.inbox.waiting = [.start] ∧ l.host.asked = 0
  heard : ∀ e ∈ l.host.inbox.waiting, e.Ordinary

end Scenario

/-- The session has ended without breaking down, and this holds of it and of what was seen of it. -/
structure ClosedLoop.Ended {σ : Type} (l : ClosedLoop σ) (log : σ → PeripheralLog)
    (outcome : Session → PeripheralLog → Prop) : Prop where
  whole : l.host.crash = none
  finished : l.host.session.finished = true
  outcome : outcome l.host.session (log l.adapter.link)

namespace Scenario

/-- The upgrade has come to its end in the loop. Nothing is left to do but to close the link. -/
structure Over (c : Scenario) (l : ClosedLoop Peripheral) : Prop where
  ended : l.Ended Peripheral.log c.Outcome
  jobs : ∀ call ∈ l.adapter.jobs, call = .disconnect

/-- The upgrade goes on in a loop whose worker runs and whose inbox is open, or has come to its end
there. -/
structure Runs (c : Scenario) (l : ClosedLoop Peripheral) : Prop where
  direct : l.adapter.Direct
  opened : l.host.inbox.closed = false
  stage : c.Goes l ∨ c.Over l

section

variable {c : Scenario} (hc : c.Sustained) {l : ClosedLoop Peripheral} {e : Event} {n : Nat}

include hc

theorem Goes.live (h : c.Goes l) : l.host.live = true := by
  rw [Host.live, hc.unfinished h.way, h.whole]
  rfl

/-- An upgrade of which something is to come was begun. -/
theorem Goes.begun_of_pending (h : c.Goes l) (hp : l.pending ≠ []) :
    l.host.session.phase ≠ .idle :=
  fun hi => hp (hc.unbegun h.sound h.way hi)

/-- There is always something to do until the end: should nothing else be pending, a timeout is. -/
theorem Goes.nextMove?_ne_none (h : c.Goes l) (known : Option ComponentMetadata) :
    l.nextMove? known ≠ none := by
  intro hn
  unfold ClosedLoop.nextMove? at hn
  simp only [h.live hc, Bool.not_true, Bool.false_eq_true, if_false] at hn
  split at hn
  · cases hn
  · split at hn
    · cases hn
    · next hwaiting =>
      split at hn
      · cases hn
      · next hidle =>
        simp only [Bool.not_eq_true, Bool.not_eq_false'] at hwaiting hidle
        have hwaiting := List.isEmpty_iff.mp hwaiting
        have hi : l.host.session.phase ≠ .idle := by
          intro hi
          rw [(h.unbegun hi).1] at hwaiting
          cases hwaiting
        have hu := Phase.underWay_of_ne hi (h.sound.not_complete (hc.unfinished h.way))
        obtain ⟨x, hx, -⟩ := h.timed.armed hu
        rw [hx] at hn
        cases hn

omit hc in
/-- A turn on the way leaves the loop on its way. -/
theorem Continues.goes (hd : l.adapter.Direct) (hs : l.host.session.Sound)
    (ht : l.host.session.Timed)
    (hr : c.Continues n l.adapter.sink.isSome l.pending l.adapter.forecast.2
      (l.host.session.handle e))
    (hheard : ∀ e ∈ l.host.inbox.waiting, e.Ordinary) :
    c.Goes (l.handle e) := by
  obtain ⟨hhost, hcharged⟩ := ClosedLoop.charged_handle l hd e
  have hpending : (l.handle e).pending = l.pending
      ++ (Link.answeredAll l.adapter.forecast.2
          (Trace.calls (l.host.session.handle e).effects)).1 := by
    unfold ClosedLoop.pending
    rw [hcharged.forecast, hhost, List.append_assoc]
    rfl
  constructor
  case whole =>
    rw [hhost]
    exact hr.whole
  case sound =>
    rw [hhost]
    exact hs.handle e hr.whole
  case timed =>
    rw [hhost]
    exact (ht.handle hs e hr.whole).1
  case way =>
    rw [hpending, hcharged.forecast, hhost]
    exact hr.way
  case bound =>
    rw [ClosedLoop.sink_handle hd hr.whole]
    exact fun _ => hr.bound
  case unbegun =>
    rw [hhost]
    exact fun hi => absurd hi hr.begun
  case heard =>
    rw [hhost]
    exact hheard

omit hc in
/-- A turn that ends the upgrade leaves the loop at its end. -/
theorem Closes.over (hd : l.adapter.Direct)
    (he : c.Closes n l.pending l.adapter.forecast.2 (l.host.session.handle e)) :
    c.Over (l.handle e) := by
  obtain ⟨hhost, hcharged⟩ := ClosedLoop.charged_handle l hd e
  -- nothing was to come, so the worker rests and its link is the one forecast
  obtain ⟨-, hjobs, hlink⟩ := Adapter.idle_of_forecast (List.append_eq_nil_iff.mp he.empty).2
  refine ⟨⟨?_, ?_, ?_⟩, ?_⟩
  · rw [hhost]
    exact he.whole
  · rw [hhost]
    exact he.finished
  · rw [hcharged.link, ← hlink, hhost]
    exact he.outcome
  · rw [hcharged.jobs, hjobs]
    exact he.calls

omit hc in
/-- A turn that keeps to the scenario keeps the loop in it. -/
theorem Proceeds.runs (hd : l.adapter.Direct) (ho : l.host.inbox.closed = false)
    (hs : l.host.session.Sound) (ht : l.host.session.Timed)
    (hheard : ∀ e ∈ l.host.inbox.waiting, e.Ordinary)
    (hp : c.Proceeds n l.adapter.sink.isSome l.pending l.adapter.forecast.2
      (l.host.session.handle e)) :
    c.Runs (l.handle e) ∧ (l.handle e).movesLeft ≤ l.outstanding + n := by
  obtain ⟨hhost, hcharged⟩ := ClosedLoop.charged_handle l hd e
  rw [ClosedLoop.movesLeft_handle hd]
  have hopened : (l.handle e).host.inbox.closed = false := by rw [hhost]; exact ho
  cases hp with
  | continues hr =>
    exact ⟨⟨hcharged.direct, hopened, .inl (hr.goes hd hs ht hheard)⟩,
      Nat.add_le_add_left hr.spent _⟩
  | closes he =>
    exact ⟨⟨hcharged.direct, hopened, .inr (he.over hd)⟩, Nat.add_le_add_left he.spent _⟩

/-- An event that waited is a reply of the device, or comes from elsewhere. -/
theorem Goes.told (h : c.Goes l) {rest : List Event} (ht : Takes l.pending e rest)
    (he : e ∈ l.host.inbox.waiting) :
    c.Proceeds l.host.session.movesLeft l.adapter.sink.isSome rest l.adapter.forecast.2
      (l.host.session.handle e) := by
  have hway := h.way
  generalize hqueue : l.pending = queue at ht hway
  cases ht with
  | front =>
    rw [h.bound (h.begun_of_pending hc (by rw [hqueue]; nofun))]
    exact hc.replied h.sound h.timed hway
  | elsewhere hno =>
    have htold : e = .start ∨ l.host.session.phase ≠ .idle ∧ ∃ known, e = .meshMetadata known := by
      by_cases hi : l.host.session.phase = .idle
      · rw [(h.unbegun hi).1] at he
        exact .inl (List.mem_singleton.mp he)
      · rcases h.heard e he with hyes | he
        · exact absurd (hno.symm.trans hyes) nofun
        · exact he.imp_right (⟨hi, ·⟩)
    exact .continues (hc.told h.sound h.timed htold hway h.bound)

/-! ## Moves -/

theorem Goes.deliver (h : c.Goes l) (hd : l.adapter.Direct) (ho : l.host.inbox.closed = false)
    (hm : l.ready .deliver = true) :
    c.Runs (l.move .deliver) ∧ (l.move .deliver).movesLeft < l.movesLeft := by
  cases hw : l.host.inbox.waiting with
  | nil => simp [ClosedLoop.ready, hw] at hm
  | cons e rest =>
    have hmem : e ∈ l.host.inbox.waiting := by rw [hw]; exact List.mem_cons_self
    have hheard : ∀ x ∈ rest, x.Ordinary :=
      fun x hx => h.heard x (by rw [hw]; exact List.mem_cons_of_mem _ hx)
    obtain ⟨hs, hle⟩ := Proceeds.runs (l := l.awaiting rest) hd ho h.sound h.timed hheard
      (h.told hc (ClosedLoop.takes_pending hw) hmem)
    rw [ClosedLoop.move_deliver (h.live hc) hw]
    refine ⟨hs, Nat.lt_of_le_of_lt hle ?_⟩
    simp only [ClosedLoop.movesLeft, ClosedLoop.outstanding, ClosedLoop.awaiting, hw,
      List.length_cons]
    omega

theorem Goes.expire (h : c.Goes l) (hd : l.adapter.Direct) (ho : l.host.inbox.closed = false)
    (hm : l.ready .expire = true) :
    c.Runs (l.move .expire) ∧ (l.move .expire).movesLeft < l.movesLeft := by
  simp only [ClosedLoop.ready, Bool.and_eq_true] at hm
  obtain ⟨⟨⟨-, harmed⟩, hwaiting⟩, hidle⟩ := hm
  obtain ⟨x, hx⟩ := Option.isSome_iff_exists.mp harmed
  have hpending : l.pending = [] := by
    rw [ClosedLoop.pending, List.isEmpty_iff.mp hwaiting, Adapter.forecast_of_idle hidle]
    rfl
  have hi : l.host.session.phase ≠ .idle := by
    intro hi
    rw [(h.sound.idle hi).2.2] at hx
    cases hx
  have hmove : l.move .expire = l.handle (.timeout x.id) := by
    simp only [ClosedLoop.move, h.live hc, Session.expiry?, hx, Option.map_some]
  have hr := hc.expired h.sound h.timed hx (hpending ▸ h.way)
  rw [← hpending, ← h.bound hi] at hr
  obtain ⟨hs, hle⟩ := Proceeds.runs hd ho h.sound h.timed h.heard (.continues hr)
  have hpos := l.host.session.movesLeft_pos
  rw [hmove]
  refine ⟨hs, Nat.lt_of_le_of_lt hle ?_⟩
  rw [ClosedLoop.movesLeft]
  omega

/-- A step of the worker brings the session nothing but replies. -/
theorem Goes.work (h : c.Goes l) (hd : l.adapter.Direct) (ho : l.host.inbox.closed = false)
    (hm : l.ready .work = true) : c.Goes (l.move .work) := by
  have hidle : l.adapter.idle = false := by simpa [ClosedLoop.ready] using hm
  obtain ⟨-, hsink, hlink, es, hes, hposted⟩ := hd.step
  have hforecast : l.adapter.forecast.1 ≠ [] := by
    intro hn
    rw [Adapter.idle_of_forecast_nil hn] at hidle
    cases hidle
  have hi : l.host.session.phase ≠ .idle :=
    h.begun_of_pending hc fun hn => hforecast (List.append_eq_nil_iff.mp hn).2
  rw [h.bound hi, if_pos rfl] at hposted
  have hfrom : ∀ e ∈ es, e.fromDevice = true := by
    intro e he
    refine hc.fromDevice h.way e ?_
    rw [ClosedLoop.pending, hes]
    exact List.mem_append_right _ (List.mem_append_left _ he)
  have hpending : (l.move .work).pending = l.pending := by
    rw [ClosedLoop.move_work ho, hposted]
    show (l.host.inbox.waiting ++ es).filter Event.fromDevice ++ l.adapter.step.1.forecast.1 = _
    rw [List.filter_append, List.filter_eq_self.mpr hfrom, List.append_assoc, ← hes]
    rfl
  refine ⟨h.whole, h.sound, h.timed, ?_, ?_, fun hn => absurd hn hi, ?_⟩
  · rw [hpending]
    show c.Way l.host.session l.pending l.adapter.step.1.forecast.2
    rw [hlink]
    exact h.way
  · intro _
    show l.adapter.step.1.sink.isSome = true
    rw [hsink]
    exact h.bound hi
  · intro e he
    rw [ClosedLoop.move_work ho, hposted] at he
    rcases List.mem_append.mp he with he | he
    · exact h.heard e he
    · exact .inl (hfrom e he)

omit hc in
/-- An answer of the mesh core waits with the rest. -/
theorem Goes.answer (h : c.Goes l) (ho : l.host.inbox.closed = false)
    (ha : 0 < l.host.asked) (known : Option ComponentMetadata) :
    c.Goes (l.move (.answer known)) := by
  obtain ⟨es, hmove, -, hes⟩ := ClosedLoop.move_answer ho known
  have hi : l.host.session.phase ≠ .idle := by
    intro hi
    rw [(h.unbegun hi).2] at ha
    cases ha
  have hnone : es.filter Event.fromDevice = [] := by
    refine List.filter_eq_nil_iff.mpr fun e he => ?_
    obtain ⟨known, rfl⟩ := hes e he
    exact Bool.false_ne_true
  have hpending : (l.move (.answer known)).pending = l.pending := by
    rw [hmove]
    show (l.host.inbox.waiting ++ es).filter Event.fromDevice ++ l.adapter.forecast.1 = _
    rw [List.filter_append, hnone, List.append_nil]
    rfl
  have hway := h.way
  rw [← hpending] at hway
  rw [hmove] at hway ⊢
  refine ⟨h.whole, h.sound, h.timed, hway, h.bound, fun hn => absurd hn hi, ?_⟩
  intro e he
  rcases List.mem_append.mp he with he | he
  · exact h.heard e he
  · exact .inr (.inr (hes e he))

/-- At the end the worker closes the link at most. -/
theorem Over.work (h : c.Over l) : c.Over (l.move .work) := by
  obtain ⟨⟨connected, disconnects, notifying, hlog⟩, hjobs⟩ := ClosedLoop.step_parting h.jobs
  obtain ⟨whole, finished, outcome⟩ := h.ended
  refine ⟨⟨whole, finished, ?_⟩, hjobs⟩
  show c.Outcome l.host.session l.adapter.step.1.link.log
  rw [hlog]
  exact hc.parted outcome connected disconnects notifying

/-- A ready move keeps to the scenario, and there are fewer moves left. -/
theorem Runs.move (h : c.Runs l) {m : Move} (hm : l.ready m = true) :
    c.Runs (l.move m) ∧ (l.move m).movesLeft < l.movesLeft := by
  cases m with
  | deliver =>
    rcases h.stage with hg | ho
    · exact hg.deliver hc h.direct h.opened hm
    · simp [ClosedLoop.ready, Host.live, ho.ended.finished] at hm
  | expire =>
    rcases h.stage with hg | ho
    · exact hg.expire hc h.direct h.opened hm
    · simp [ClosedLoop.ready, Host.live, ho.ended.finished] at hm
  | work =>
    have hidle : l.adapter.idle = false := by simpa [ClosedLoop.ready] using hm
    refine ⟨⟨h.direct.step.1, ?_, ?_⟩, ClosedLoop.movesLeft_work h.direct h.opened hidle⟩
    · rw [ClosedLoop.move_work h.opened]
      exact h.opened
    · exact h.stage.imp (·.work hc h.direct h.opened hm) (·.work hc)
  | answer known =>
    have ha : 0 < l.host.asked := of_decide_eq_true hm
    obtain ⟨es, hmove, -, -⟩ := ClosedLoop.move_answer h.opened known
    refine ⟨⟨?_, ?_, ?_⟩, ClosedLoop.movesLeft_answer h.opened ha known⟩
    · rw [hmove]
      exact h.direct
    · rw [hmove]
      exact h.opened
    · refine h.stage.imp (·.answer h.opened ha known) fun ho => ?_
      rw [hmove]
      exact ⟨⟨ho.ended.whole, ho.ended.finished, ho.ended.outcome⟩, ho.jobs⟩
  | abort dfu => cases hm

/-- So does an orderly play, which ends in time. -/
theorem Runs.play (h : c.Runs l) {ms : List Move} (hms : l.orderly ms = true) :
    c.Runs (l.play ms) ∧ (l.play ms).movesLeft + ms.length ≤ l.movesLeft := by
  induction ms generalizing l with
  | nil => exact ⟨h, Nat.le_refl _⟩
  | cons m ms ih =>
    obtain ⟨hm, hms⟩ := Bool.and_eq_true_iff.mp hms
    obtain ⟨hs, hlt⟩ := h.move hc hm
    obtain ⟨hs, hle⟩ := ih hs hms
    refine ⟨hs, ?_⟩
    show ((l.move m).play ms).movesLeft + (ms.length + 1) ≤ l.movesLeft
    omega

/-- Playing a loop out with enough moves brings it to its end. -/
theorem Runs.playOut (h : c.Runs l) (known : Option ComponentMetadata) {count : Nat}
    (hn : l.movesLeft ≤ count) : c.Over (l.playOut known count) := by
  induction count generalizing l with
  | zero => exact absurd (Nat.lt_of_lt_of_le l.movesLeft_pos hn) (Nat.lt_irrefl 0)
  | succ count ih =>
    unfold ClosedLoop.playOut
    split
    · next hnone => exact h.stage.resolve_left (·.nextMove?_ne_none hc known hnone)
    · next m hm =>
      obtain ⟨hs, hlt⟩ := h.move hc (ClosedLoop.ready_of_nextMove? hm)
      exact ih hs (Nat.le_of_lt_succ (Nat.lt_of_lt_of_le hlt hn))

end

/-- A loop in which a session is to begin the upgrade of a peripheral that is reached directly. -/
theorem Runs.fresh {c : Scenario} {p : Peripheral} (name : String) {host : Host}
    (hinbox : host.inbox = { waiting := [.start] }) (hasked : host.asked = 0)
    (hc : host.crash = none) {config : Config} {mode : Mode} {image : Option Image}
    {device : Option Device} {collaborators : Collaborators} {guard : Guard}
    (hs : host.session = .fresh config mode image device collaborators guard)
    (hw : c.Way host.session [] p) : c.Runs ⟨host, p.directly name⟩ := by
  refine ⟨⟨rfl, rfl⟩, by rw [hinbox], .inl ?_⟩
  constructor
  case whole => exact hc
  case sound => exact hs ▸ .fresh ..
  case timed => exact hs ▸ .fresh ..
  case way =>
    simp only [ClosedLoop.pending, hinbox]
    exact hw
  case bound =>
    rw [hs]
    exact fun hn => absurd rfl hn
  case unbegun =>
    rw [hinbox]
    exact fun _ => ⟨rfl, hasked⟩
  case heard =>
    rw [hinbox]
    exact fun e he => .inr (.inl (List.mem_singleton.mp he))

end Scenario

/-! ## Whatever the order of the moves -/

namespace ClosedLoop

/-- A loop comes to an outcome, whatever the order of its moves. -/
structure ComesTo {σ : Type} [Link σ] (l : ClosedLoop σ) (log : σ → PeripheralLog)
    (outcome : Session → PeripheralLog → Prop) : Prop where
  bounded : ∀ ms, l.orderly ms = true → ms.length ≤ l.moveLimit 0
  /-- Where no move is ready any more, the session is finished. -/
  ends : ∀ ms, l.orderly ms = true → (∀ m, (l.play ms).ready m = false) →
    (l.play ms).host.session.finished = true
  ended : ∀ ms, l.orderly ms = true → (l.play ms).host.session.finished = true →
    (l.play ms).Ended log outcome
  /-- Whatever the mesh core knows, and however many moves are allowed on top. -/
  playedOut : ∀ known extra, (l.playOut known (l.moveLimit extra)).Ended log outcome

end ClosedLoop

/-- A loop that keeps to a scenario comes to its outcome, if it has no more moves left than it
may. -/
theorem Scenario.Runs.comesTo {c : Scenario} (hc : c.Sustained) {l : ClosedLoop Peripheral}
    (h : c.Runs l) (hn : l.movesLeft ≤ l.moveLimit 0) : l.ComesTo Peripheral.log c.Outcome where
  bounded ms hms := by
    have hle := (h.play hc hms).2
    omega
  ends ms hms hnone := by
    rcases (h.play hc hms).1.stage with hg | ho
    · cases hnext : (l.play ms).nextMove? none with
      | none => exact absurd hnext (hg.nextMove?_ne_none hc none)
      | some m => exact absurd ((hnone m).symm.trans (ClosedLoop.ready_of_nextMove? hnext)) nofun
    · exact ho.ended.finished
  ended ms hms hf := by
    rcases (h.play hc hms).1.stage with hg | ho
    · exact absurd (hf.symm.trans (hc.unfinished hg.way)) nofun
    · exact ho.ended
  playedOut known extra := by
    refine (h.playOut hc known (Nat.le_trans hn ?_)).ended
    unfold ClosedLoop.moveLimit
    omega

namespace ClosedLoop

/-- A fresh loop has no more moves left than the limit. -/
theorem movesLeft_fresh (setup : PeripheralSetup) (name : String) {host : Host}
    (hinbox : host.inbox = { waiting := [.start] }) (hasked : host.asked = 0) {config : Config}
    {mode : Mode} {image : Option Image} {device : Option Device} {collaborators : Collaborators}
    {guard : Guard} (hs : host.session = .fresh config mode image device collaborators guard) :
    (ClosedLoop.mk host (Peripheral.directly { setup } name)).movesLeft
      ≤ (ClosedLoop.mk host (Peripheral.directly { setup } name)).moveLimit 0 := by
  show host.session.movesLeft + (0 + 0 + host.inbox.waiting.length + 2 * host.asked)
    ≤ 8 * (host.session.transfer.imageSize + 0 + 32)
  have hsession : host.session.movesLeft
      = 16 * Phase.idle.remaining + 8 + 8 * (host.session.transfer.imageSize - 0) := by
    rw [hs]
    rfl
  have hidle : Phase.idle.remaining = 11 := rfl
  rw [hinbox, hasked, hsession, hidle]
  show 16 * 11 + 8 + 8 * (host.session.transfer.imageSize - 0) + (0 + 0 + 1 + 2 * 0) ≤ _
  omega

/-! ## Through a tunnel -/

section tunnel

variable {σ : Type} [Link σ] {t : ClosedLoop (SealedLink σ)} {l : ClosedLoop σ}

omit [Link σ] in
theorem Mirrors.idle (h : t.Mirrors l) : t.adapter.idle = l.adapter.idle := by
  have hstage := h.adapter.stage
  unfold Adapter.idle
  rw [h.adapter.jobs]
  generalize t.adapter.stage = stage at hstage ⊢
  generalize l.adapter.stage = stage' at hstage ⊢
  cases hstage <;> rfl

omit [Link σ] in
theorem Mirrors.ready (h : t.Mirrors l) (m : Move) : t.ready m = l.ready m := by
  cases m <;> simp only [ClosedLoop.ready, h.host, h.idle]

theorem Mirrors.play (h : t.Mirrors l) (ms : List Move) : (t.play ms).Mirrors (l.play ms) := by
  induction ms generalizing t l with
  | nil => exact h
  | cons m ms ih => exact ih (h.move m)

theorem Mirrors.orderly (h : t.Mirrors l) (ms : List Move) : t.orderly ms = l.orderly ms := by
  induction ms generalizing t l with
  | nil => rfl
  | cons m ms ih => rw [ClosedLoop.orderly, ClosedLoop.orderly, h.ready m, ih (h.move m)]

theorem Mirrors.playOut (h : t.Mirrors l) (known : Option ComponentMetadata) (count : Nat) :
    (t.playOut known count).Mirrors (l.playOut known count) := by
  induction count generalizing t l with
  | zero => exact h
  | succ count ih =>
    have hnext : t.nextMove? known = l.nextMove? known := by
      simp only [nextMove?, h.host, h.idle]
    unfold ClosedLoop.playOut
    rw [hnext]
    split
    · exact h
    · exact ih (h.move _)

omit [Link σ] in
theorem Mirrors.ended {log : σ → PeripheralLog} {outcome : Session → PeripheralLog → Prop}
    (h : t.Mirrors l) (he : l.Ended log outcome) :
    t.Ended (fun link => log link.inner) outcome := by
  refine ⟨?_, ?_, ?_⟩
  · rw [h.host]
    exact he.whole
  · rw [h.host]
    exact he.finished
  · rw [h.host, h.adapter.inner]
    exact he.outcome

/-- What a loop comes to without a tunnel it comes to through one. -/
theorem Mirrors.comesTo {log : σ → PeripheralLog} {outcome : Session → PeripheralLog → Prop}
    (h : t.Mirrors l) (hc : l.ComesTo log outcome) :
    t.ComesTo (fun link => log link.inner) outcome := by
  have hlimit (extra : Nat) : t.moveLimit extra = l.moveLimit extra := by
    rw [moveLimit, moveLimit, h.host]
  constructor
  case bounded =>
    intro ms hms
    rw [hlimit]
    exact hc.bounded ms (h.orderly ms ▸ hms)
  case ends =>
    intro ms hms hnone
    rw [(h.play ms).host]
    exact hc.ends ms (h.orderly ms ▸ hms) fun m => (h.play ms).ready m ▸ hnone m
  case ended =>
    intro ms hms hf
    rw [(h.play ms).host] at hf
    exact (h.play ms).ended (hc.ended ms (h.orderly ms ▸ hms) hf)
  case playedOut =>
    intro known extra
    rw [hlimit]
    exact (h.playOut known _).ended (hc.playedOut known extra)

end tunnel

/-- If the upgrade of a device that does not break down goes by a scenario of this outcome, then a
loop that is about to begin it comes to the outcome, be the peripheral reached directly or through
a tunnel. -/
theorem starting_comesTo (outcome : Session → PeripheralLog → Prop) {config : Config} {mode : Mode}
    {image : Image} {collaborators : Collaborators} {guard : Guard} {setup : PeripheralSetup}
    {size : Nat}
    (h : ∀ device : Device, config.chunkSizeFor? device.mtu device.overhead = some size →
      device.breaksOn = [] → ∃ c : Scenario, c.Sustained ∧ c.Outcome = outcome ∧
        c.Way (.fresh config mode (some image) (some device) collaborators guard) [] { setup })
    (name : String) :
    (config.chunkSizeFor? setup.mtu 0 = some size →
      (starting config mode (some image) collaborators guard
        (Peripheral.directly { setup } name)).ComesTo Peripheral.log outcome) ∧
      ∀ address key, config.chunkSizeFor? setup.mtu TunnelEnd.overhead = some size →
        (starting config mode (some image) collaborators guard
          (Peripheral.tunnelled { setup } name address key)).ComesTo
            (fun link => link.inner.log) outcome := by
  have hdirect {device : Device}
      (hsized : config.chunkSizeFor? device.mtu device.overhead = some size)
      (hsturdy : device.breaksOn = []) {host : Host}
      (hinbox : host.inbox = { waiting := [.start] }) (hasked : host.asked = 0)
      (hc : host.crash = none)
      (hs : host.session = .fresh config mode (some image) (some device) collaborators guard) :
      (ClosedLoop.mk host (Peripheral.directly { setup } name)).ComesTo Peripheral.log
        outcome := by
    obtain ⟨c, hsustained, rfl, hway⟩ := h device hsized hsturdy
    exact (Scenario.Runs.fresh name hinbox hasked hc hs (hs ▸ hway)).comesTo hsustained
      (movesLeft_fresh setup name hinbox hasked hs)
  constructor
  · intro hsize
    exact hdirect hsize rfl rfl rfl rfl rfl
  · intro address key hsize
    exact (Mirrors.starting config mode (some image) collaborators guard { setup } name address
      key).comesTo (hdirect hsize rfl rfl rfl rfl rfl)

end ClosedLoop
end OtaUpgrade
