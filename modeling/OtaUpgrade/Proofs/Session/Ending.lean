import Mathlib
import OtaUpgrade.Proofs.Session.Entries
import OtaUpgrade.Proofs.Session.Hosted

/-!
The end of an upgrade. An event either leaves an upgrade going, with its device and nothing done
that belongs to the end, or it ends it by the one turn that lets the device go and reports the end
(`Passage.outcome`). So the end comes at most once, it clears the session, and nothing that a
session is told afterwards leaves a mark.
-/
namespace OtaUpgrade

/-- The effect belongs to the end of an upgrade. -/
def Effect.isClosing : Effect → Bool
  | .release | .report (.complete _) | .signal _ => true
  | _ => false

theorem Effect.not_isClosing_of_isRemark {x : Effect} (h : x.isRemark = true) :
    x.isClosing = false := by
  cases x with
  | report r => cases r <;> first | rfl | cases h
  | _ => cases h

namespace Trace

/-- What belongs to the end of an upgrade. -/
def closings (es : List Effect) : List Effect := es.filter Effect.isClosing

@[simp] theorem closings_append (as bs : List Effect) :
    closings (as ++ bs) = closings as ++ closings bs :=
  List.filter_append ..

theorem completions_closings (es : List Effect) : completions (closings es) = completions es := by
  induction es with
  | nil => rfl
  | cons e es ih =>
    cases e with
    | bind | release | call | askMesh | signal => exact ih
    | report r =>
      cases r with
      | progress | log => exact ih
      | complete p => exact congrArg (p :: ·) ih

theorem releases_closings (es : List Effect) : releases (closings es) = releases es :=
  List.count_filter rfl

theorem signals_closings (es : List Effect) : signals (closings es) = signals es := by
  induction es with
  | nil => rfl
  | cons e es ih =>
    cases e with
    | bind | release | call | askMesh => exact ih
    | signal s => exact congrArg (s :: ·) ih
    | report r =>
      cases r with
      | progress | log | complete => exact ih

theorem Remarks.closings {es : List Effect} (h : Remarks es) : Trace.closings es = [] :=
  List.filter_eq_nil_iff.mpr fun x hx => by simp [Effect.not_isClosing_of_isRemark (h x hx)]

end Trace

namespace Session

/-- What a session keeps from phase to phase until it ends. -/
structure Carries (s r : Session) : Prop where
  mode : r.mode = s.mode
  collaborators : r.collaborators = s.collaborators
  device : r.device = s.device
  finished : r.finished = s.finished

theorem Carries.refl (s : Session) : Carries s s := ⟨rfl, rfl, rfl, rfl⟩

theorem Carries.trans {a b c : Session} (h : Carries a b) (h' : Carries b c) : Carries a c :=
  ⟨h'.mode.trans h.mode, h'.collaborators.trans h.collaborators, h'.device.trans h.device,
    h'.finished.trans h.finished⟩

theorem carries_noting (s : Session) (e : Event) : Carries s (s.noting e) := by
  obtain ⟨guard, connected, stopRequested, h⟩ := s.noting_eq e
  rw [h]
  exact ⟨rfl, rfl, rfl, rfl⟩

theorem carries_recordError (s : Session) (cause : Cause) : Carries s (s.recordError cause) := by
  rw [recordError_eq]
  exact ⟨rfl, rfl, rfl, rfl⟩

theorem carries_cancelTimer (s : Session) : Carries s s.cancelTimer := ⟨rfl, rfl, rfl, rfl⟩

/-- The last turn of an upgrade, by the session that is about to end. -/
def ending (q : Session) : Turn :=
  q.closed.stay (q.parting.map .call ++ q.farewell)

/-- What an event makes of an upgrade that has not ended. -/
inductive Outcome (s : Session) (entries : List (Phase × Session)) (t : Turn) : Prop where
  | goesOn (hk : Carries s t.session) (hc : Trace.closings t.effects = [])
  | ends {q : Session} {front : List Effect} (hq : (.complete, q) ∈ entries) (hk : Carries s q)
      (hr : Trace.Remarks front) (ht : t = q.ending.after front)

/-! ## One event -/

section outcome

variable {s r : Session} {e : Event} {p q : Phase} {t : Turn}

theorem Outcome.lift {as bs : List (Phase × Session)} {es : List Effect} (h : Outcome r as t)
    (hk : Carries s r) (hes : Trace.Remarks es) (hsub : as ⊆ bs) : Outcome s bs (t.after es) := by
  cases h with
  | goesOn hk' hc =>
    refine .goesOn (hk.trans hk') ?_
    rw [Turn.effects_after, Trace.closings_append, hes.closings, hc]
    rfl
  | ends hq hk' hr ht =>
    refine .ends (hsub hq) (hk.trans hk') (hes.append hr) ?_
    rw [ht, Turn.after_after]

theorem Answer.carries (h : Answer s e t) : Carries s t.session := by
  cases h with
  | rest => exact s.carries_noting e
  | closing => exact (s.carries_noting _).trans (carries_recordError _ _)
  | _ => exact ⟨rfl, rfl, rfl, rfl⟩

theorem Answer.closings (h : Answer s e t) : Trace.closings t.effects = [] := by
  cases h with
  | next =>
    rw [Turn.effects_after, Trace.closings_append, s.remarks_chunkReport.closings]
    rfl
  | _ => rfl

theorem Move.carries (h : Move s e p r t) : Carries s r := by
  cases h with
  | advance ha =>
    cases ha with
    | gaveUp => exact (s.carries_noting e).trans (carries_cancelTimer _)
    | _ => exact ⟨rfl, rfl, rfl, rfl⟩
  | failure ha =>
    refine Carries.trans ?_ (carries_recordError _ _)
    cases ha <;> exact ⟨rfl, rfl, rfl, rfl⟩

theorem Slip.carries (h : Slip s p q r t) : Carries s r := by
  cases h with
  | noImage | noDevice =>
    refine Carries.trans ?_ (carries_recordError _ _)
    exact ⟨rfl, rfl, rfl, rfl⟩
  | skip | unlinked => exact ⟨rfl, rfl, rfl, rfl⟩

/-- A phase that is entered is the end, or leaves the upgrade going. -/
theorem Halt.outcome (h : Halt s p t) : Outcome s [(p, s)] t := by
  cases h with
  | closed => exact .ends (List.mem_singleton_self _) (.refl s) .nil (Turn.after_nil _).symm
  | broken =>
    refine .goesOn ⟨rfl, rfl, rfl, rfl⟩ ?_
    unfold parting
    dsimp only
    split <;> rfl
  | _ => exact .goesOn ⟨rfl, rfl, rfl, rfl⟩ rfl

/-- An event leaves an upgrade going or ends it. -/
theorem Passage.outcome {entries : List (Phase × Session)} (hp : Passage s e entries t)
    (hf : s.finished = false) : Outcome s entries t := by
  induction hp with
  | ended hf' => exact absurd (hf.symm.trans hf') nofun
  | stale => exact .goesOn (.refl _) rfl
  | rests ha => exact .goesOn ha.carries ha.closings
  | enters hm _ hh => exact hh.outcome.lift hm.carries hm.remarks (List.Subset.refl _)
  | slips hm _ hs _ hh =>
    exact (hh.outcome.lift hs.carries hs.remarks (List.subset_cons_self _ _)).lift hm.carries
      hm.remarks (List.Subset.refl _)
  | @expired s _ _ _ _ _ _ _ _ ih =>
    have hfired : Carries s { s with timer := s.timer.fire } := ⟨rfl, rfl, rfl, rfl⟩
    exact (ih hf).lift hfired (.singleton rfl) (List.Subset.refl _)

end outcome

/-! ## The last turn -/

section ending

variable (q : Session)

theorem closingSignals_eq : ∃ signals : List DfuSignal, q.closingSignals = signals.map .signal := by
  unfold closingSignals
  split
  · exact ⟨[], rfl⟩
  · split
    · split
      · exact ⟨[_, .stopDistribution], rfl⟩
      · exact ⟨[_], rfl⟩
    · exact ⟨[], rfl⟩

theorem closings_farewell : Trace.closings q.farewell = q.farewell := by
  refine List.filter_eq_self.mpr fun x hx => ?_
  rcases List.mem_append.mp hx with hx | hx
  · split at hx
    · rw [List.mem_singleton.mp hx]
      rfl
    · cases hx
  · rcases List.mem_cons.mp hx with rfl | hx
    · rfl
    · obtain ⟨signals, hs⟩ := q.closed.closingSignals_eq
      rw [hs] at hx
      obtain ⟨signal, -, rfl⟩ := List.mem_map.mp hx
      rfl

theorem closings_parting : Trace.closings (q.parting.map .call) = [] := by
  unfold parting
  split <;> rfl

/-- The device is let go: first the link is closed if it is still up, then the device is released,
and then the end is reported. -/
theorem effects_ending :
    q.ending.effects
      = (if q.device.isSome then (if q.connected then [.call .disconnect] else []) ++ [.release]
          else []) ++ .report (.complete q.closed.progress) :: q.closed.closingSignals := by
  show q.parting.map .call ++ q.farewell = _
  unfold parting farewell
  cases q.device <;> cases q.connected <;> rfl

theorem closings_ending : Trace.closings q.ending.effects = q.farewell := by
  show Trace.closings (q.parting.map .call ++ q.farewell) = _
  rw [Trace.closings_append, closings_parting, closings_farewell, List.nil_append]

theorem reports_farewell : Trace.reports q.farewell = [.complete q.closed.progress] := by
  have hsignals : Trace.reports q.closed.closingSignals = [] := by
    obtain ⟨signals, hs⟩ := q.closed.closingSignals_eq
    rw [hs]
    refine List.filterMap_eq_nil_iff.mpr fun x hx => ?_
    obtain ⟨signal, -, rfl⟩ := List.mem_map.mp hx
    rfl
  unfold farewell
  rw [Trace.reports_append]
  show _ ++ .complete q.closed.progress :: Trace.reports q.closed.closingSignals = _
  rw [hsignals]
  cases q.device <;> rfl

theorem releases_farewell : Trace.releases q.farewell = if q.device.isSome then 1 else 0 := by
  have hsignals : Trace.releases q.closed.closingSignals = 0 := by
    obtain ⟨signals, hs⟩ := q.closed.closingSignals_eq
    rw [hs]
    exact List.count_eq_zero.mpr fun hx => by simp at hx
  unfold farewell
  rw [Trace.releases_append]
  show _ + Trace.releases ([.report (.complete q.closed.progress)] ++ q.closed.closingSignals) = _
  rw [Trace.releases_append, hsignals]
  cases q.device <;> rfl

theorem reports_parting : Trace.reports (q.parting.map .call) = [] := by
  unfold parting
  split <;> rfl

/-- The end is reported last. -/
theorem reports_ending : Trace.reports q.ending.effects = [.complete q.closed.progress] := by
  show Trace.reports (q.parting.map .call ++ q.farewell) = _
  rw [Trace.reports_append, reports_parting, reports_farewell, List.nil_append]

theorem meshRequests_parting : Trace.meshRequests (q.parting.map .call) = [] := by
  unfold parting
  split <;> rfl

/-- The mesh core is asked nothing any more. -/
theorem meshRequests_ending : Trace.meshRequests q.ending.effects = [] := by
  have hfarewell : Trace.meshRequests q.farewell = [] := by
    refine List.filterMap_eq_nil_iff.mpr fun x hx => ?_
    have hclosing := List.filter_eq_self.mp q.closings_farewell x hx
    cases x with
    | askMesh => cases hclosing
    | _ => rfl
  show Trace.meshRequests (q.parting.map .call ++ q.farewell) = _
  rw [Trace.meshRequests_append, meshRequests_parting, hfarewell, List.nil_append]

variable {front : List Effect} (h : Trace.closings front = [])

include h

theorem completions_ending :
    Trace.completions (front ++ q.ending.effects) = [q.closed.progress] := by
  rw [← Trace.completions_closings, Trace.closings_append, h, closings_ending, List.nil_append,
    Trace.completions, reports_farewell]
  rfl

theorem releases_ending :
    Trace.releases (front ++ q.ending.effects) = if q.device.isSome then 1 else 0 := by
  rw [← Trace.releases_closings, Trace.closings_append, h, closings_ending, List.nil_append,
    releases_farewell]

end ending

/-! ## Lives -/

/-- Nothing more happens to a session that has ended, but to the guard that it shared. -/
theorem live_of_finished {s : Session} (hf : s.finished = true) (hs : List Happening) :
    ∃ guard, s.live hs = ({ s with guard } : Session).stay := by
  induction hs generalizing s with
  | nil => exact ⟨s.guard, rfl⟩
  | cons x hs ih =>
    cases x with
    | guard guard => exact ih (s := { s with guard }) hf
    | event e =>
      have hsame := handle_of_finished hf e
      rw [live_event (by rw [hsame]; rfl), hsame]
      exact ih hf

/-- What has become of an upgrade. -/
inductive Fate (s : Session) (t : Turn) : Prop where
  | goesOn (hk : Carries s t.session) (hf : t.session.finished = false)
      (hc : Trace.closings t.effects = [])
  | ended {q : Session} {guard : Guard} {front : List Effect} (hk : Carries s q)
      (hfront : Trace.closings front = []) (hs : t.session = { q.closed with guard })
      (he : t.effects = front ++ q.ending.effects)

theorem Fate.lift {s r : Session} {t : Turn} {es : List Effect} (h : Fate r t) (hk : Carries s r)
    (hes : Trace.closings es = []) : Fate s (t.after es) := by
  cases h with
  | goesOn hk' hf hc =>
    refine .goesOn (hk.trans hk') hf ?_
    rw [Turn.effects_after, Trace.closings_append, hes, hc]
    rfl
  | @ended q guard front hk' hfront hs he =>
    have hfront' : Trace.closings (es ++ front) = [] := by
      rw [Trace.closings_append, hes, hfront]
      rfl
    refine .ended (hk.trans hk') hfront' hs ?_
    rw [Turn.effects_after, he, List.append_assoc]

theorem Sound.fate {s : Session} (h : s.Sound) (hf : s.finished = false) (hs : List Happening) :
    Fate s (s.live hs) := by
  induction hs generalizing s with
  | nil => exact .goesOn (.refl s) hf rfl
  | cons x hs ih =>
    cases x with
    | guard guard =>
      have hk : Carries s { s with guard } := ⟨rfl, rfl, rfl, rfl⟩
      have hnone : Trace.closings [] = [] := rfl
      exact (ih (h.withGuard guard) hf).lift hk hnone
    | event e =>
      cases (passage_complete h e).outcome hf with
      | goesOn hk hc =>
        cases hx : (s.handle e).crash? with
        | some c =>
          rw [live_crash hx]
          exact .goesOn hk (hk.finished.trans hf) hc
        | none =>
          rw [live_event hx]
          exact (ih (h.handle e hx) (hk.finished.trans hf)).lift hk hc
      | @ends q front _ hk hr ht =>
        obtain ⟨guard, hlive⟩ := live_of_finished (s := q.closed) rfl hs
        rw [live_event (by rw [ht]; rfl), ht]
        refine .ended hk hr.closings (congrArg Turn.session hlive) ?_
        exact (congrArg (front ++ q.ending.effects ++ ·) (congrArg Turn.effects hlive)).trans
          (List.append_nil _)

/-! ## The end -/

/-- Nothing is left of an upgrade under way. -/
structure Cleared (s : Session) : Prop where
  device : s.device = none
  running : s.running = false
  connected : s.connected = false
  unarmed : s.timer.armed = none

/-- What is due when an event ends an upgrade, and only then. -/
structure EndsDuly (s : Session) (e : Event) : Prop where
  reported_iff : Trace.completions (s.handle e).effects ≠ []
    ↔ s.finished = false ∧ (s.handle e).session.finished = true
  /-- The session `q` that enters the last phase lets the device go, over a link that is still up by
  closing it just before, and then reports the end. -/
  teardown : s.finished = false → (s.handle e).session.finished = true →
    (s.handle e).session.Cleared ∧ (s.handle e).session.guard = {} ∧
      ∃ (q : Session) (front : List Effect) (p : Progress) (signals : List DfuSignal),
        (.complete, q) ∈ s.entries e ∧ q.device = s.device ∧ Trace.Remarks front ∧
        (s.handle e).effects = front ++
          (if q.device.isSome then (if q.connected then [.call .disconnect] else []) ++ [.release]
            else []) ++
          .report (.complete p) :: signals.map .signal

/-- The end of an upgrade comes once and for all. -/
structure Concludes (s : Session) (hs : List Happening) : Prop where
  completions : (Trace.completions (s.hosted hs).trace.toList).length
    = if (s.hosted hs).session.finished then 1 else 0
  last : (s.hosted hs).session.finished = true →
    ∃ p, (Trace.reports (s.hosted hs).trace.toList).getLast? = some (.complete p)
  releases : Trace.releases (s.hosted hs).trace.toList
    = if (s.hosted hs).session.finished && s.device.isSome then 1 else 0
  kept : (s.hosted hs).session.finished = false → (s.hosted hs).session.device = s.device
  cleared : (s.hosted hs).session.finished = true → (s.hosted hs).session.Cleared
  endsDuly : ∀ before e after, hs = before ++ .event e :: after →
    (s.hosted before).crash = none → (s.hosted before).session.EndsDuly e
  /-- Whatever events follow, session and host stay as they are. -/
  final : (s.hosted hs).session.finished = true →
    ∀ es : List Event, s.hosted (hs ++ es.map .event) = s.hosted hs

section concludes

variable {s : Session} (h : s.Sound)

theorem cleared_closed (q : Session) (guard : Guard) :
    ({ q.closed with guard } : Session).Cleared where
  device := rfl
  running := rfl
  connected := rfl
  unarmed := by
    show (q.arrive .complete).timer.armed = none
    rw [timer_arrive, Timer.arm_complete, Timer.armed_cancel]

include h

theorem Sound.endsDuly (e : Event) : s.EndsDuly e := by
  cases hf : s.finished with
  | true =>
    have hsame := handle_of_finished hf e
    refine ⟨⟨fun hc => ?_, fun hc => absurd (hf.symm.trans hc.1) nofun⟩, fun hc => ?_⟩
    · rw [hsame] at hc
      exact absurd rfl hc
    · cases hf.symm.trans hc
  | false =>
    cases (passage_complete h e).outcome hf with
    | goesOn hk hc =>
      have hcompletions := Trace.completions_closings (s.handle e).effects
      rw [hc] at hcompletions
      have hopen : (s.handle e).session.finished ≠ true := by
        rw [hk.finished, hf]
        exact Bool.false_ne_true
      exact ⟨⟨fun hne => absurd hcompletions.symm hne, fun hend => absurd hend.2 hopen⟩,
        fun _ hend => absurd hend hopen⟩
    | @ends q front hq hk hr ht =>
      obtain ⟨signals, hsignals⟩ := q.closed.closingSignals_eq
      refine ⟨⟨fun _ => ⟨hf, by rw [ht]; rfl⟩, fun _ hne => ?_⟩, fun _ _ => ⟨?_, ?_, ?_⟩⟩
      · rw [ht, Turn.effects_after, q.completions_ending hr.closings] at hne
        exact List.cons_ne_nil _ _ hne
      · rw [ht]
        exact cleared_closed q {}
      · rw [ht]
        rfl
      · refine ⟨q, front, q.closed.progress, signals, hq, hk.device, hr, ?_⟩
        rw [ht, Turn.effects_after, effects_ending, hsignals, List.append_assoc]

end concludes

/-- Whatever an upgrade is told, and whoever shares its guard, it comes to its end at most once, and
then it is over. -/
theorem concludes_live (config : Config) (mode : Mode) (image : Option Image)
    (device : Option Device) (collaborators : Collaborators) (guard : Guard)
    (hs : List Happening) :
    Concludes (fresh config mode image device collaborators guard) hs := by
  have h := Sound.fresh config mode image device collaborators guard
  have hf : (fresh config mode image device collaborators guard).finished = false := rfl
  generalize fresh config mode image device collaborators guard = s at h hf
  have hfate := h.fate hf hs
  have hends : ∀ before e after, hs = before ++ .event e :: after →
      (s.hosted before).crash = none → (s.hosted before).session.EndsDuly e := by
    intro before e after _ hc
    rw [crash_hosted] at hc
    rw [session_hosted]
    exact (h.live before hc).endsDuly e
  have hfinal : (s.hosted hs).session.finished = true →
      ∀ es : List Event, s.hosted (hs ++ es.map .event) = s.hosted hs := by
    intro hend es
    rw [session_hosted] at hend
    exact hosted_of_finished (h.crash?_live hs hend) hend es
  cases hfate with
  | goesOn hk hopen hc =>
    rw [← session_hosted] at hk hopen
    rw [← trace_hosted] at hc
    have hnot : (s.hosted hs).session.finished ≠ true := by
      rw [hopen]
      exact Bool.false_ne_true
    refine ⟨?_, fun hend => absurd hend hnot, ?_, fun _ => hk.device,
      fun hend => absurd hend hnot, hends, hfinal⟩
    · rw [← Trace.completions_closings, hc, hopen]
      rfl
    · rw [← Trace.releases_closings, hc, hopen]
      rfl
  | @ended q guard front hk hfront hq he =>
    rw [← session_hosted] at hq
    rw [← trace_hosted] at he
    have hend : (s.hosted hs).session.finished = true := by
      rw [hq]
      rfl
    refine ⟨?_, fun _ => ⟨q.closed.progress, ?_⟩, ?_, fun hopen => ?_, fun _ => ?_, hends, hfinal⟩
    · rw [he, q.completions_ending hfront, hend]
      rfl
    · rw [he, Trace.reports_append, reports_ending, List.getLast?_concat]
    · rw [he, q.releases_ending hfront, hend, hk.device]
      rfl
    · exact absurd (hopen.symm.trans hend) nofun
    · rw [hq]
      exact cleared_closed q guard

end Session
end OtaUpgrade
