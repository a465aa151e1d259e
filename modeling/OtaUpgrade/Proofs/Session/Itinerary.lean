import Mathlib
import OtaUpgrade.Proofs.Session.Chronicle
import OtaUpgrade.Proofs.Session.Deadline
import OtaUpgrade.Proofs.Session.Entries

/-!
The itinerary of an upgrade. The phases that a session enters over its life, those slipped through
included, are a path of the graph `Phase.successors`; every edge of it leads to a later phase, so
none is entered twice. A toll on each phase turns the path into a bound on the timeouts that are
ever armed: a step may take the timer as far as the toll it pays and the chunks it writes.
-/
namespace OtaUpgrade

namespace Phase

/-- The phases that can be entered from a phase. -/
def successors : Phase → List Phase
  | idle => [connect, complete]
  | connect => [serviceDiscover, complete]
  | serviceDiscover => [readAppInfo, complete]
  | readAppInfo => [enableNotification, complete]
  | enableNotification => [prepareForDownload, complete]
  | prepareForDownload => [startDownload, abort, complete]
  | startDownload => [dataTransfer, abort]
  | dataTransfer => [verify, abort]
  | verify => [abort, complete]
  | abort => [complete]
  | complete => []

/-- A path of the graph: where it starts, the phases entered on it, and where it ends. -/
inductive Path : Phase → List Phase → Phase → Prop where
  | nil (p : Phase) : Path p [] p
  | cons {p q r : Phase} {ps : List Phase} (h : q ∈ p.successors) (rest : Path q ps r) :
      Path p (q :: ps) r

theorem lt_of_mem_successors {p q : Phase} (h : q ∈ p.successors) : p < q := by
  have later : ∀ q ∈ p.successors, p < q := by cases p <;> decide
  exact later q h

theorem Path.single {p q : Phase} (h : q ∈ p.successors) : Path p [q] q :=
  .cons h (.nil q)

theorem Path.append {p q r : Phase} {ps qs : List Phase} (h : Path p ps q) (h' : Path q qs r) :
    Path p (ps ++ qs) r := by
  induction h with
  | nil => exact h'
  | cons he _ ih => exact .cons he (ih h')

theorem Path.lt {p q : Phase} {ps : List Phase} (h : Path p ps q) : ∀ x ∈ ps, p < x := by
  induction h with
  | nil => exact fun _ hx => absurd hx List.not_mem_nil
  | cons he _ ih =>
    have hlt := lt_of_mem_successors he
    intro x hx
    rcases List.mem_cons.mp hx with rfl | hx
    · exact hlt
    · exact Nat.lt_trans hlt (ih x hx)

theorem Path.le {p q : Phase} {ps : List Phase} (h : Path p ps q) : p ≤ q := by
  induction h with
  | nil => exact Nat.le_refl _
  | cons he _ ih => exact Nat.le_trans (Nat.le_of_lt (lt_of_mem_successors he)) ih

/-- On a path no phase comes twice. -/
theorem Path.nodup {p q : Phase} {ps : List Phase} (h : Path p ps q) : (p :: ps).Nodup := by
  induction h with
  | nil => exact List.nodup_singleton _
  | @cons p q r ps he rest ih =>
    refine List.nodup_cons.mpr ⟨fun hp => ?_, ih⟩
    exact Nat.lt_irrefl p.rank ((Path.cons he rest).lt p hp)

/-- How many timeouts have been armed at most once a phase is entered, those of further chunks left
out. -/
def toll : Phase → Nat
  | idle => 0
  | connect => 1
  | serviceDiscover => 2
  | readAppInfo => 3
  | enableNotification => 5
  | prepareForDownload => 6
  | startDownload => 7
  | dataTransfer => 8
  | verify => 9
  | abort | complete => 10

theorem toll_le (p : Phase) : p.toll ≤ 10 := by
  cases p <;> decide

/-- Every edge pays for the timeout of the phase that it leads to, and for asking the mesh core in
the phase that it leads away from. -/
theorem toll_successor {p q : Phase} (h : q ∈ p.successors) :
    p.toll + (if p = readAppInfo then 1 else 0) + (if q = complete then 0 else 1) ≤ q.toll := by
  have pays : ∀ q ∈ p.successors,
      p.toll + (if p = readAppInfo then 1 else 0) + (if q = complete then 0 else 1) ≤ q.toll := by
    cases p <;> decide
  exact pays q h

end Phase

namespace Timer

theorem scheduled_arm_le (t : Timer) (timeouts : Timeouts) (p : Phase) :
    (t.arm timeouts p).scheduled ≤ t.scheduled + 1 := by
  cases hd : timeouts.duration? p with
  | none =>
    rw [arm_of_none hd, scheduled_cancel]
    exact Nat.le_succ _
  | some ms => rw [arm_eq hd]

end Timer

namespace Session

/-- The phases entered over a life, in order. -/
def path (s : Session) : List Happening → List Phase
  | [] => []
  | .guard guard :: rest => ({ s with guard } : Session).path rest
  | .event e :: rest =>
    (s.entries e).map Prod.fst ++
      match (s.handle e).reaction with
      | .crash _ => []
      | _ => (s.handle e).session.path rest

/-- The toll of the phase, and one timeout more once the mesh core was asked. -/
def toll (s : Session) : Nat :=
  s.phase.toll + if s.phase = .readAppInfo ∧ s.wait = .meshMetadata then 1 else 0

/-- The timer has not moved further than the toll paid and the chunks written. -/
def Paid (s : Session) (t : Turn) : Prop :=
  t.session.timer.scheduled + s.toll
    ≤ s.timer.scheduled + t.session.toll + (Trace.writes .data t.effects).length

theorem le_toll (s : Session) : s.phase.toll ≤ s.toll :=
  Nat.le_add_right _ _

theorem toll_le (s : Session) :
    s.toll ≤ s.phase.toll + if s.phase = .readAppInfo then 1 else 0 := by
  unfold toll
  split_ifs with h1 h2
  · exact Nat.le_refl _
  · exact absurd h1.1 h2
  · exact Nat.le_succ _
  · exact Nat.le_refl _

theorem toll_of_ne {s : Session} (h : s.phase ≠ .readAppInfo) : s.toll = s.phase.toll := by
  simp [toll, h]

theorem toll_congr {s s' : Session} (hp : s'.phase = s.phase) (hw : s'.wait = s.wait) :
    s'.toll = s.toll := by
  unfold toll
  rw [hp, hw]

theorem toll_le_ten (s : Session) : s.toll ≤ 10 := by
  have hp := s.toll_le
  have hq := s.phase.toll_le
  split_ifs at hp with hr
  · rw [hr] at hp
    exact Nat.le_trans hp (by decide)
  · omega

theorem scheduled_arrive_le (s : Session) (p : Phase) :
    (s.arrive p).timer.scheduled ≤ s.timer.scheduled + if p = .complete then 0 else 1 := by
  rw [timer_arrive]
  split_ifs with hp
  · rw [hp, Timer.arm_complete, Timer.scheduled_cancel]
    exact Nat.le_refl _
  · exact s.timer.scheduled_arm_le _ _

/-! ## Edges -/

section edges

variable {s r : Session} {p q : Phase} {e : Event} {t : Turn}

theorem Halt.phase_eq (h : Halt s p t) : t.session.phase = p := by
  cases h <;> rfl

theorem Halt.timer_eq (h : Halt s p t) : t.session.timer = (s.arrive p).timer := by
  cases h <;> rfl

theorem Slip.timer_eq (h : Slip s p q r t) : r.timer = (s.arrive p).timer := by
  cases h with
  | noImage | noDevice => rw [timer_recordError]
  | skip | unlinked => rfl

theorem Slip.edge (h : Slip s p q r t) : q ∈ p.successors ∧ p ≠ .complete := by
  cases h <;> decide

theorem Move.scheduled_eq (h : Move s e p r t) : r.timer.scheduled = s.timer.scheduled := by
  cases h with
  | advance ha => rcases ha.timer with ht | ht <;> simp [ht]
  | failure ha =>
    rw [timer_recordError]
    rcases ha.timer with ht | ht <;> simp [ht]

theorem Answer.phase_eq (h : Answer s e t) : t.session.phase = s.phase := by
  cases h with
  | rest => exact s.phase_noting e
  | closing => exact (phase_recordError _ _).trans (s.phase_noting _)
  | _ => rfl

variable (h : s.Sound)

include h

/-- Taking an upgrade on follows an edge. -/
theorem Advance.edge {es : List Effect} (ha : Advance s e r es p) : p ∈ s.phase.successors := by
  cases ha with
  | informed hw | uninformed hw =>
    rw [h.phase_of_appInfo hw]
    decide
  | identified hw =>
    rw [h.phase_of_meshMetadata hw]
    decide
  | start hp | connected hp | discovered hp | notifying hp | prepared hp | started hp
  | transferred hp | verified hp | rebooted hp | gaveUp hp =>
    rw [hp]
    decide

omit h in
/-- Failing follows an edge: before a download to the end, in one to giving up. -/
theorem Failure.edge {cause : Cause} (ha : Failure s e r cause p) : p ∈ s.phase.successors := by
  cases ha with
  | disconnected hu hc hb =>
    cases hp : s.phase <;> first | decide | exact absurd hp hb | (rw [hp] at hu; cases hu)
  | unwritten hc hb =>
    cases hp : s.phase <;> first | decide | exact absurd hp hb | (rw [hp] at hc; cases hc)
  | stoppedDownload hc =>
    cases hp : s.phase <;> first | decide | (rw [hp] at hc; cases hc)
  | mtu hp | unconnected hp | unsupported hp | silent hp | unprepared hp | unstarted hp
  | unverified hp | chunk hp | stopped hp =>
    rw [hp]
    decide

theorem Move.edge (hm : Move s e p r t) : p ∈ s.phase.successors := by
  cases hm with
  | advance ha => exact ha.edge h
  | failure ha => exact ha.edge

/-- The phases entered over an event are a path to where the session comes to rest. -/
theorem Passage.path {entries : List (Phase × Session)} (hp : Passage s e entries t) :
    Phase.Path s.phase (entries.map Prod.fst) t.session.phase := by
  induction hp with
  | ended | stale => exact .nil _
  | rests ha =>
    rw [ha.phase_eq]
    exact .nil _
  | enters hm _ hh =>
    rw [Turn.session_after, hh.phase_eq]
    exact .single (hm.edge h)
  | slips hm _ hs _ hh =>
    rw [Turn.session_after, Turn.session_after, hh.phase_eq]
    exact .cons (hm.edge h) (.single hs.edge.1)
  | @expired s _ _ _ _ _ hd _ _ ih => exact ih (h.withTimer (h.not_idle_of_due hd) s.timer.fire)

/-! ## Tolls -/

omit h in
/-- What the timer has moved is paid by the toll and the chunks. -/
theorem Paid.of_le {n : Nat} (ht : t.session.timer.scheduled ≤ s.timer.scheduled + n)
    (hl : s.toll + n ≤ t.session.toll + (Trace.writes .data t.effects).length) : s.Paid t := by
  unfold Paid
  omega

omit h in
theorem Paid.after {es : List Effect} (ht : s.Paid t) : s.Paid (t.after es) := by
  refine Nat.le_trans ht (Nat.add_le_add_left ?_ _)
  rw [Turn.effects_after, Trace.writes_append, List.length_append]
  exact Nat.le_add_left _ _

omit h in
/-- In the phases without a choice of waits the toll stands still. -/
theorem Paid.of_stay {n : Nat} (hp : t.session.phase = s.phase) (hr : s.phase ≠ .readAppInfo)
    (ht : t.session.timer.scheduled ≤ s.timer.scheduled + n)
    (hw : n ≤ (Trace.writes .data t.effects).length) : s.Paid t := by
  refine .of_le ht ?_
  rw [toll_of_ne hr, toll_of_ne (by rwa [hp]), hp]
  exact Nat.add_le_add_left hw _

omit h in
theorem Paid.of_same (hp : t.session.phase = s.phase) (hw : t.session.wait = s.wait)
    (ht : t.session.timer = s.timer) : s.Paid t := by
  refine .of_le (n := 0) (by rw [ht]; exact Nat.le_refl _) (Nat.le_add_right_of_le ?_)
  rw [toll_congr hp hw]
  exact Nat.le_refl _

/-- Only asking the mesh core and the next chunk arm a timeout within a phase. -/
theorem Answer.paid (ha : Answer s e t) : s.Paid t := by
  cases ha with
  | rest => exact .of_same (s.phase_noting e) (s.wait_noting e) (s.timer_noting e)
  | closing =>
    exact .of_same (phase_recordError _ _) (wait_recordError _ _) (timer_recordError _ _)
  | written hc =>
    have hr : s.phase ≠ .readAppInfo := by
      intro hr
      rw [hr] at hc
      cases hc
    exact .of_stay rfl hr (Nat.le_refl _) (Nat.zero_le _)
  | asks hw =>
    have hp := h.phase_of_appInfo hw
    have harm := s.timer.cancel.scheduled_arm_le s.config.timeouts s.phase
    rw [Timer.scheduled_cancel] at harm
    refine .of_le (n := 1) harm (Nat.le_add_right_of_le ?_)
    simp [toll, stay, cancelTimer, armTimer, hp, hw]
  | next hp =>
    have harm := s.timer.cancel.scheduled_arm_le s.config.timeouts s.phase
    rw [Timer.scheduled_cancel] at harm
    refine .of_stay (n := 1) rfl (by rw [hp]; decide) harm ?_
    rw [Turn.effects_after, Trace.writes_append, List.length_append]
    exact Nat.le_add_left _ _
  | overflow hp =>
    exact .of_stay (n := 0) rfl (by rw [hp]; decide) (Nat.le_of_eq (Timer.scheduled_cancel _))
      (Nat.le_refl _)

/-- An event never takes the timer further than the toll paid and the chunks written. -/
theorem Passage.paid {entries : List (Phase × Session)} (hp : Passage s e entries t) :
    s.Paid t := by
  induction hp with
  | ended | stale => exact .of_le (n := 0) (Nat.le_refl _) (Nat.le_add_right _ _)
  | rests ha => exact ha.paid h
  | @enters s r e p t t' hm _ hh =>
    have hedge := Phase.toll_successor (hm.edge h)
    have harm := r.scheduled_arrive_le p
    rw [hm.scheduled_eq, ← hh.timer_eq] at harm
    have hnew := t'.session.le_toll
    rw [hh.phase_eq] at hnew
    have hold := s.toll_le
    refine .after (.of_le harm (Nat.le_add_right_of_le ?_))
    omega
  | @slips s r r' e p q t t' t'' hm _ hs _ hh =>
    have hedge := Phase.toll_successor (hm.edge h)
    have hedge' := Phase.toll_successor hs.edge.1
    have harm := r.scheduled_arrive_le p
    have harm' := r'.scheduled_arrive_le q
    rw [hm.scheduled_eq, ← hs.timer_eq] at harm
    rw [← hh.timer_eq] at harm'
    have hnew := t''.session.le_toll
    rw [hh.phase_eq] at hnew
    have hold := s.toll_le
    -- whatever is slipped through is not the end
    rw [if_neg hs.edge.2] at harm hedge
    have hboth : t''.session.timer.scheduled
        ≤ s.timer.scheduled + (1 + if q = .complete then 0 else 1) := by
      omega
    refine .after (.after (.of_le hboth (Nat.le_add_right_of_le ?_)))
    omega
  | @expired s _ _ _ _ _ hd _ _ ih =>
    exact .after (ih (h.withTimer (h.not_idle_of_due hd) s.timer.fire))

/-! ## Giving up and ending -/

omit h in
/-- Letting the device go takes no other calls than the parting ones. -/
theorem Halt.calls_complete (hh : Halt s .complete t) : Trace.calls t.effects = s.parting := by
  cases hh with
  | broken => exact calls_map_call _
  | closed =>
    show Trace.calls (s.parting.map .call ++ s.farewell) = _
    rw [Trace.calls_append, calls_map_call, calls_farewell, List.append_nil]

/-- Giving up takes an error; a peripheral that is still there is told, and without one the upgrade
ends at once. -/
theorem Passage.givesUp {entries : List (Phase × Session)} (hp : Passage s e entries t)
    (hr : (.abort, r) ∈ entries) :
    r.error.isSome = true ∧
      (Trace.calls t.effects).count (.command .abort) = (if r.connected then 1 else 0) ∧
      (r.connected = false → entries.map Prod.fst = [.abort, .complete]) := by
  induction hp with
  | ended | stale | rests => cases hr
  | enters hm hpoised hh =>
    cases List.mem_singleton.mp hr
    refine ⟨hpoised.abort rfl, ?_, ?_⟩
    · rw [Turn.effects_after, Trace.calls_append, hm.remarks.calls]
      cases hh with
      | abort hd hc =>
        rw [if_pos hc]
        exact List.count_singleton_self
    · intro hc
      cases hh with
      | abort hd hc' => exact absurd (hc.symm.trans hc') nofun
  | slips hm hpoised hs hr' hh =>
    rcases List.mem_pair.mp hr with hx | hx
    · cases hx
      cases hs with
      | unlinked hc =>
        refine ⟨hpoised.abort rfl, ?_, fun _ => rfl⟩
        have hparting : (r.arrive .abort).parting = [] := by simp [parting, hc]
        rw [Turn.effects_after, Turn.effects_after, Trace.calls_append, Trace.calls_append,
          hm.remarks.calls, hh.calls_complete, hparting, if_neg (by simp [hc])]
        rfl
    · cases hx
      cases hs
  | @expired s id timeout e' entries' t' hd _ _ ih =>
    obtain ⟨he, hcalls, hend⟩ := ih (h.withTimer (h.not_idle_of_due hd) s.timer.fire) hr
    refine ⟨he, ?_, hend⟩
    rw [← hcalls]
    rfl

omit h in
/-- No expired timeout brings an answer. -/
theorem answer?_failureEvent? {error : LinkError} (he : s.failureEvent? error = some e) :
    e.answer? = none := by
  unfold failureEvent? at he
  cases hp : s.phase <;> simp only [hp] at he
  case idle | complete => cases he
  case readAppInfo => split at he <;> cases he <;> rfl
  all_goals
    cases he
    rfl

omit h in
/-- A download that is being prepared ends only where the peripheral turns it down. -/
theorem Failure.rejected {cause : Cause} (ha : Failure s e r cause .complete)
    (hp : s.phase = .prepareForDownload) :
    ∃ answer, e.answer? = some answer ∧ Status.decode answer ≠ .success := by
  have elsewhere {q : Phase} (hq : s.phase = q) (hne : q ≠ .prepareForDownload) : False :=
    hne (hq.symm.trans hp)
  generalize hc : Phase.complete = q at ha
  cases ha with
  | unprepared _ he hn =>
    exact ⟨_, he, fun hs => Bool.false_ne_true (hn.symm.trans ((Event.grants_iff he).mpr hs))⟩
  | disconnected =>
    rw [hp] at hc
    cases hc
  | mtu hq | unconnected hq | unsupported hq | silent hq | stopped hq =>
    exact (elsewhere hq (by decide)).elim
  | unstarted | unverified | unwritten | chunk | stoppedDownload => cases hc

omit h in
theorem Move.rejected (hm : Move s e .complete r t) (hp : s.phase = .prepareForDownload) :
    ∃ answer, e.answer? = some answer ∧ Status.decode answer ≠ .success := by
  cases hm with
  | failure ha => exact ha.rejected hp
  | advance ha =>
    cases ha with
    | verified hq | rebooted hq | gaveUp hq => cases hq.symm.trans hp

theorem Passage.rejected {entries : List (Phase × Session)} (hp : Passage s e entries t)
    (hr : [.prepareForDownload, .complete] <:+: s.phase :: entries.map Prod.fst) :
    ∃ answer, e.answer? = some answer ∧ Status.decode answer ≠ .success := by
  induction hp with
  | ended | stale | rests => simp [List.infix_cons_iff] at hr
  | @enters s r e p t t' hm =>
    obtain ⟨hs, rfl⟩ : .prepareForDownload = s.phase ∧ .complete = p := by
      simpa [List.infix_cons_iff] using hr
    exact hm.rejected hs.symm
  | @slips s r r' e p q t t' t'' hm _ hslip =>
    obtain ⟨hs, rfl⟩ | ⟨rfl, rfl⟩ : (.prepareForDownload = s.phase ∧ .complete = p) ∨
        (.prepareForDownload = p ∧ .complete = q) := by
      simpa [List.infix_cons_iff] using hr
    · exact hm.rejected hs.symm
    · cases hslip
  | @expired s _ _ _ _ _ hd he _ ih =>
    obtain ⟨answer, ha, -⟩ := ih (h.withTimer (h.not_idle_of_due hd) s.timer.fire) hr
    rw [answer?_failureEvent? he] at ha
    cases ha

end edges

/-! ## Lives -/

/-- Which way a session goes over an event. -/
structure KeepsCourse (s : Session) (e : Event) : Prop where
  /-- A download that is being prepared ends only on a status other than success. -/
  rejected : [.prepareForDownload, .complete] <:+: s.phase :: (s.entries e).map Prod.fst →
    ∃ answer, e.answer? = some answer ∧ Status.decode answer ≠ .success
  /-- Giving up takes an error; the peripheral is told if the link is up, and otherwise the upgrade
  ends within the same event. -/
  givesUp : ∀ r, (.abort, r) ∈ s.entries e →
    r.error.isSome = true ∧
      (Trace.calls (s.handle e).effects).count (.command .abort) = (if r.connected then 1 else 0) ∧
      (r.connected = false → (s.entries e).map Prod.fst = [.abort, .complete])

/-- The way of a session over a life. -/
structure Itinerary (s : Session) (hs : List Happening) : Prop where
  path : Phase.Path s.phase (s.path hs) (s.live hs).session.phase
  once : (s.phase :: s.path hs).Nodup
  keepsCourse : ∀ before e after, hs = before ++ .event e :: after →
    (s.live before).crash? = none → (s.live before).session.KeepsCourse e
  scheduled_le : (s.live hs).session.timer.scheduled
    ≤ 10 + (Trace.writes .data (s.live hs).effects).length

section lives

variable {s : Session} (h : s.Sound)

include h

theorem Sound.path_live (hs : List Happening) :
    Phase.Path s.phase (s.path hs) (s.live hs).session.phase := by
  induction hs generalizing s with
  | nil => exact .nil _
  | cons x hs ih =>
    cases x with
    | guard guard => exact ih (h.withGuard guard)
    | event e =>
      have hp := (passage_complete h e).path h
      cases hx : (s.handle e).crash? with
      | some c =>
        rw [live_crash hx, path, Turn.reaction_of_crash? hx, List.append_nil]
        exact hp
      | none =>
        rw [live_event hx, path]
        split
        · next c hr => exact absurd hr (Turn.reaction_ne_crash hx c)
        · exact hp.append (ih (h.handle e hx))

theorem Sound.paid_live (hs : List Happening) : s.Paid (s.live hs) := by
  induction hs generalizing s with
  | nil => exact Nat.le_add_right _ _
  | cons x hs ih =>
    cases x with
    | guard guard => exact ih (h.withGuard guard)
    | event e =>
      have hp := (passage_complete h e).paid h
      cases hx : (s.handle e).crash? with
      | some c =>
        rw [live_crash hx]
        exact hp
      | none =>
        rw [live_event hx]
        have hi := ih (h.handle e hx)
        unfold Paid at hp hi ⊢
        rw [Turn.session_after, Turn.effects_after, Trace.writes_append, List.length_append]
        omega

theorem Sound.keepsCourse (e : Event) : s.KeepsCourse e where
  rejected hr := (passage_complete h e).rejected h hr
  givesUp _ hr := (passage_complete h e).givesUp h hr

end lives

/-- Whatever an upgrade is told, and whoever shares its guard, it goes along the graph of phases. -/
theorem itinerary_live (config : Config) (mode : Mode) (image : Option Image)
    (device : Option Device) (collaborators : Collaborators) (guard : Guard)
    (hs : List Happening) :
    Itinerary (fresh config mode image device collaborators guard) hs := by
  have h := Sound.fresh config mode image device collaborators guard
  have hpath := h.path_live hs
  constructor
  case path => exact hpath
  case once => exact hpath.nodup
  case keepsCourse =>
    intro before e after _ hc
    exact (h.live before hc).keepsCourse e
  case scheduled_le =>
    have hpaid := h.paid_live hs
    have hten := ((fresh config mode image device collaborators guard).live hs).session.toll_le_ten
    have hstart : (fresh config mode image device collaborators guard).timer.scheduled = 0 := rfl
    unfold Paid at hpaid
    omega

-- without an image connecting is entered and given up again within one event
example : (fresh {} .direct none (some { name := "node" }) {} {}).path [.event .start]
    = [.connect, .complete] := by decide

end Session
end OtaUpgrade
