import Mathlib
import OtaUpgrade.Proofs.Session.Hosted
import OtaUpgrade.Proofs.Session.Indifferent
import OtaUpgrade.Proofs.Session.Timely

/-!
A timeout is the failure of the step that it was armed for. Its expiry and the report of that
failure leave the same session and do the same to the outside; only the books of the timer tell
whether it fired or was given up, and an expiry is logged first (`Lapses`).
-/
namespace OtaUpgrade

namespace Timer

/-- The timer with one more timeout counted as fired. -/
def countFired (t : Timer) : Timer := { t with fired := t.fired + 1 }

/-- The timer with one more timeout counted as given up. -/
def countCancelled (t : Timer) : Timer := { t with cancelled := t.cancelled + 1 }

theorem cancel_countFired (t : Timer) : t.countFired.cancel = t.cancel.countFired := by
  unfold cancel
  rw [show t.countFired.armed = t.armed from rfl]
  cases t.armed <;> rfl

theorem cancel_countCancelled (t : Timer) : t.countCancelled.cancel = t.cancel.countCancelled := by
  unfold cancel
  rw [show t.countCancelled.armed = t.armed from rfl]
  cases t.armed <;> rfl

theorem arm_countFired (t : Timer) (timeouts : Timeouts) (p : Phase) :
    t.countFired.arm timeouts p = (t.arm timeouts p).countFired := by
  unfold arm
  rw [cancel_countFired]
  cases timeouts.duration? p <;> rfl

theorem arm_countCancelled (t : Timer) (timeouts : Timeouts) (p : Phase) :
    t.countCancelled.arm timeouts p = (t.arm timeouts p).countCancelled := by
  unfold arm
  rw [cancel_countCancelled]
  cases timeouts.duration? p <;> rfl

end Timer

/-- Timers that count one and the same timeout, the first as fired and the second as given up. -/
def Indifference.lapsing : Indifference where
  timers t t' := ∃ u : Timer, t = u.countFired ∧ t' = u.countCancelled
  identities i i' := i' = i
  armed := by
    rintro _ _ ⟨u, rfl, rfl⟩
    rfl
  arm := by
    rintro _ _ ⟨u, rfl, rfl⟩ timeouts p
    exact ⟨u.arm timeouts p, u.arm_countFired timeouts p, u.arm_countCancelled timeouts p⟩
  same _ := rfl

theorem Indifference.Sessions.lapsed {s s' : Session} (h : Indifference.lapsing.Sessions s s') :
    ∃ r : Session, s = { r with timer := r.timer.countFired } ∧
      s' = { r with timer := r.timer.countCancelled } := by
  obtain @⟨t, i, ⟨u, hu, rfl⟩, rfl⟩ := h
  refine ⟨{ s with timer := u }, ?_, rfl⟩
  rw [← hu]

/-- The events by which the step that a session waits for would report that it failed. -/
inductive Session.FailsBy (s : Session) (error : LinkError) : Event → Prop where
  | connecting (hp : s.phase = .connect) : FailsBy s error (.connection false (some error))
  | discovering (hp : s.phase = .serviceDiscover) : FailsBy s error (.service none (some error))
  | reading (hw : s.wait = .appInfo) : FailsBy s error (.value .appInfo none (some error))
  /-- The mesh core has no word for an error. -/
  | asking (hw : s.wait = .meshMetadata) : FailsBy s error (.meshMetadata none)
  | notifying (hp : s.phase = .enableNotification) :
    FailsBy s error (.notifications false (some error))
  | commanding (hc : (Session.commandOf? s.phase).isSome = true) :
    FailsBy s error (.written .controlPoint (.failed error))
  | sending (hp : s.phase = .dataTransfer) : FailsBy s error (.written .data (.failed error))

/-- The warning that a timeout is over. -/
def Timeout.warning (x : Timeout) : Effect :=
  .report (.log .warn s!"{x.phase.name} timed out after {x.ms}ms")

/-- A host takes the expiry of a timeout for an event: either leaves it the same, but for a warning
and the books of the timer. -/
structure Lapses (h : Host) (x : Timeout) (e : Event) : Prop where
  session : ∃ r : Session,
    (h.handle (.timeout x.id)).session = { r with timer := r.timer.countFired } ∧
      (h.handle e).session = { r with timer := r.timer.countCancelled }
  /-- Calls, requests, signals and reports are the same, in the same order. -/
  trace : ∃ done : List Effect,
    (h.handle (.timeout x.id)).trace = h.trace ++ (x.warning :: done) ∧
      (h.handle e).trace = h.trace ++ done
  status : (h.handle (.timeout x.id)).status = (h.handle e).status
  asked : (h.handle (.timeout x.id)).asked = (h.handle e).asked
  inbox : (h.handle (.timeout x.id)).inbox = (h.handle e).inbox
  crash : (h.handle (.timeout x.id)).crash = (h.handle e).crash

namespace Session

variable {s : Session} {error : LinkError} {e : Event} {x : Timeout}

theorem FailsBy.failureEvent? (hf : s.FailsBy error e) (h : s.Sound) :
    s.failureEvent? error = some e := by
  unfold Session.failureEvent?
  cases hf with
  | reading hw => simp [h.phase_of_appInfo hw, hw]
  | asking hw => simp [h.phase_of_meshMetadata hw, hw]
  | commanding hc => cases hp : s.phase <;> rw [hp] at hc <;> first | rfl | cases hc
  | connecting hp | discovering hp | notifying hp | sending hp => rw [hp]

theorem FailsBy.ne_timeout (hf : s.FailsBy error e) (id : Nat) : e ≠ .timeout id := by
  cases hf <;> nofun

/-- A timeout that is over is handled as the failure of its step, once it is logged. -/
theorem FailsBy.handle_timeout (hf : s.FailsBy (.timeout x.ms) e) (h : s.Sound)
    (hopen : s.finished = false) {id : Nat} (hd : s.timer.due? id = some x) :
    s.handle (.timeout id)
      = (({ s with timer := s.timer.fire } : Session).handle e).after [x.warning] :=
  Session.handle_timeout hopen hd (hf.failureEvent? h) hf.ne_timeout

/-- Whoever is under way waits for a step that can fail. -/
theorem Sound.exists_failsBy (h : s.Sound) (hu : s.phase.underWay = true) (error : LinkError) :
    ∃ e, s.FailsBy error e := by
  cases hp : s.phase with
  | idle | complete =>
    rw [hp] at hu
    cases hu
  | connect => exact ⟨_, .connecting hp⟩
  | serviceDiscover => exact ⟨_, .discovering hp⟩
  | enableNotification => exact ⟨_, .notifying hp⟩
  | dataTransfer => exact ⟨_, .sending hp⟩
  | prepareForDownload | startDownload | verify | abort =>
    exact ⟨_, .commanding (by rw [hp]; rfl)⟩
  | readAppInfo =>
    have hw := h.awaits
    rw [hp] at hw
    cases hwait : s.wait <;> rw [hwait] at hw <;> try cases hw
    · exact ⟨_, .reading hwait⟩
    · exact ⟨_, .asking hwait⟩

/-- Whoever learns that its step failed gives the timeout up first. -/
theorem FailsBy.respond_cancelTimer (hf : s.FailsBy error e) (h : s.Sound) (ht : s.Timed) :
    s.cancelTimer.respond e = s.respond e := by
  cases hf with
  | connecting hp =>
    simp [respond, onConnection, onDisconnected, verifyAccepted, cancelTimer, hp]
  | discovering hp => simp [respond, onService, cancelTimer, hp]
  | reading hw => simp [respond, onAppInfo, cancelTimer, h.phase_of_appInfo hw, hw]
  | asking hw =>
    simp [respond, onMeshMetadata, cancelTimer, h.phase_of_meshMetadata hw, hw, ht.asking hw]
  | notifying hp => simp [respond, onNotifications, cancelTimer, hp]
  | commanding hc =>
    obtain ⟨command, hc⟩ := Option.isSome_iff_exists.mp hc
    have hin : s.commandInHand? = some command := h.commandInHand?_eq.trans hc
    have hin' : s.cancelTimer.commandInHand? = some command := hin
    simp only [respond, onCommandWritten, hin, hin']
    simp [cancelTimer]
  | sending hp =>
    simp [respond, onChunkWritten, cancelTimer, hp, h.chunkAck_iff.mpr hp]

/-- Only an upgrade under way has a timeout armed. -/
theorem Timed.underWay_of_armed (ht : s.Timed) (hx : s.timer.armed = some x) :
    s.phase.underWay = true := by
  cases hu : s.phase.underWay with
  | true => rfl
  | false =>
    have hnone := ht.unarmed hu
    rw [hx] at hnone
    cases hnone

theorem Timed.unfinished (ht : s.Timed) (h : s.Sound) (hx : s.timer.armed = some x) :
    s.finished = false := by
  refine h.unfinished fun hp => ?_
  have hu := ht.underWay_of_armed hx
  rw [hp] at hu
  cases hu

/-- With its timeout fired or given up a session takes the failure of its step alike. -/
theorem FailsBy.turns (hf : s.FailsBy error e) (h : s.Sound) (ht : s.Timed)
    (hx : s.timer.armed = some x) :
    Indifference.lapsing.Turns (({ s with timer := s.timer.fire } : Session).handle e)
      (s.handle e) := by
  have hopen := ht.unfinished h hx
  have hgaveUp : s.timer.cancel = Timer.countCancelled { s.timer with armed := none } := by
    rw [Timer.cancel, hx]
    rfl
  -- a step that failed gives its timeout up first, and one that fired is no longer there to give up
  have hsessions : Indifference.lapsing.Sessions ({ s with timer := s.timer.fire } : Session)
      s.cancelTimer :=
    .recast ⟨{ s.timer with armed := none }, rfl, hgaveUp⟩ rfl
  rw [handle_of_unfinished (s := { s with timer := s.timer.fire }) hopen hf.ne_timeout,
    handle_of_unfinished hopen hf.ne_timeout, ← hf.respond_cancelTimer h ht]
  exact (hsessions.respond e).settle

end Session

/-- Nor does its host tell more than that. -/
theorem Host.lapses {h : Host} {x : Timeout} {e : Event} (hs : h.session.Sound)
    (ht : h.session.Timed) (hx : h.session.timer.armed = some x)
    (hf : h.session.FailsBy (.timeout x.ms) e) : Lapses h x e := by
  have hopen := ht.unfinished hs hx
  have hdue : h.session.timer.due? x.id = some x := by
    simp [Timer.due?, hx]
  have hexpiry : h.handle (.timeout x.id)
      = h.absorb ((({ h.session with timer := h.session.timer.fire } : Session).handle e).after
          [x.warning]) :=
    congrArg h.absorb (hf.handle_timeout hs hopen hdue)
  have hturns := hf.turns hs ht hx
  have hcrash := hturns.crash?
  constructor
  case session =>
    rw [hexpiry]
    exact hturns.session.lapsed
  case trace =>
    refine ⟨(h.session.handle e).effects, ?_, rfl⟩
    rw [hexpiry, hturns.effects]
    rfl
  case status =>
    rw [hexpiry]
    show _ = if (h.session.handle e).crash?.isSome then h.status else _
    rw [hcrash, hturns.session.status]
    rfl
  case asked =>
    rw [hexpiry]
    show _ = h.asked + (Trace.meshRequests (h.session.handle e).effects).length
    rw [hturns.effects]
    rfl
  case inbox => rfl
  case crash =>
    rw [hexpiry]
    exact hcrash.symm

namespace Session

/-- Whatever has happened to an upgrade with its guard to itself, there is an event by which the
step that its timeout is armed for would report to have failed in time, and the expiry is taken for
every such event. -/
theorem timeout_is_failure (config : Config) (mode : Mode) (image : Option Image)
    (device : Option Device) (collaborators : Collaborators) (guard : Guard) (es : List Event)
    (x : Timeout) (hc : ((fresh config mode image device collaborators guard).run es).crash? = none)
    (hx : ((fresh config mode image device collaborators guard).run es).session.timer.armed
      = some x) :
    (∃ e, ((fresh config mode image device collaborators guard).run es).session.FailsBy
        (.timeout x.ms) e) ∧
      ∀ e, ((fresh config mode image device collaborators guard).run es).session.FailsBy
          (.timeout x.ms) e →
        Lapses ((fresh config mode image device collaborators guard).hosted (es.map .event))
          x e := by
  obtain ⟨h, ht, -⟩ :=
    (Timed.fresh config mode image device collaborators guard).run (.fresh ..) es hc
  refine ⟨h.exists_failsBy (ht.underWay_of_armed hx) _, fun e hf => ?_⟩
  have hsession := (fresh config mode image device collaborators guard).session_hosted
    (es.map .event)
  rw [live_map_event] at hsession
  exact Host.lapses (hsession ▸ h) (hsession ▸ ht) (hsession ▸ hx) (hsession ▸ hf)

/-- A peripheral behind the mesh that tells nothing of itself, while the mesh core is asked: silence
is taken for an answer without metadata. -/
theorem timeout_is_failure_asking :
    let s := fresh {} .direct (some ⟨#[1, 2, 3], by decide, by decide⟩)
      (some { name := "node", route := .meshTunnel, meshAddress := some 5 })
      { meshCore := true } {}
    let x : Timeout := { id := 4, phase := .readAppInfo, ms := 5000 }
    (s.run askingRun).crash? = none ∧ (s.run askingRun).session.timer.armed = some x ∧
      (s.run askingRun).session.FailsBy (.timeout x.ms) (.meshMetadata none) ∧
      Lapses (s.hosted (askingRun.map .event)) x (.meshMetadata none) := by
  intro s x
  have hf : (s.run askingRun).session.FailsBy (.timeout x.ms) (.meshMetadata none) :=
    .asking (by decide)
  exact ⟨by decide, by decide, hf,
    (timeout_is_failure _ _ _ _ _ _ _ _ (by decide) (by decide)).2 _ hf⟩

end Session
end OtaUpgrade
