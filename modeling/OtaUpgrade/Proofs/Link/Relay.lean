import Mathlib
import OtaUpgrade.Proofs.Link.Nonces
import OtaUpgrade.Proofs.Session.Chronicle
import OtaUpgrade.Session.ClosedLoop

/-!
What reaches a link. An adapter hands its link the calls that it is given, each payload as it is
carried, and makes none of its own (`Adapter.Relays`). In a loop the calls are those of the session,
whatever happens to it (`ClosedLoop.Follows`): events may come from its adapter or from anyone else,
and others may change the guard that it shares.
-/
namespace OtaUpgrade

/-! ## Carrying -/

namespace Carriage

/-- The carriage once it has carried so many payloads to the device. -/
def advanced (c : Carriage) (count : Nat) : Carriage :=
  match c with
  | plain => plain
  | tunnel near address => tunnel (near.advanced count) address

/-- A payload as it is carried to the device after so many others. -/
def carried (c : Carriage) (count : Nat) (payload : Bytes) : Bytes :=
  ((c.advanced count).outgoing payload).1

theorem outgoing_advanced (c : Carriage) (count : Nat) (payload : Bytes) :
    ((c.advanced count).outgoing payload).2 = c.advanced (count + 1) := by
  cases c with
  | plain => rfl
  | tunnel near address =>
    show tunnel (near.advanced count).advance address = tunnel (near.advanced (count + 1)) address
    rw [TunnelEnd.advanced_add]
    rfl

theorem length_outgoing (c : Carriage) (payload : Bytes) :
    (c.outgoing payload).1.length = payload.length + c.overhead := by
  cases c with
  | plain => rfl
  | tunnel near address => exact near.length_wrap payload

@[simp] theorem overhead_advanced (c : Carriage) (count : Nat) :
    (c.advanced count).overhead = c.overhead := by
  cases c <;> rfl

theorem length_carried (c : Carriage) (count : Nat) (payload : Bytes) :
    (c.carried count payload).length = payload.length + c.overhead := by
  rw [carried, length_outgoing, overhead_advanced]

/-- The call as the link receives it. -/
def linkCall (c : Carriage) : DeviceCall → LinkCall
  | .connect => .connect
  | .disconnect => .disconnect
  | .discover => .discover
  | .enableNotifications enabled => .setNotify .controlPoint enabled
  | .write channel data => .write channel (c.outgoing data).1
  | .read channel => .read channel

/-- The link receives the call and nothing else. -/
theorem received_perform {σ : Type} [Link σ] (c : Carriage) (t : Tapped σ) (call : DeviceCall) :
    (c.perform t call).2.2.received = t.received ++ [c.linkCall call] := by
  cases call <;> rfl

/-- Only a payload on its way to the device changes the carriage. -/
theorem carriage_perform {σ : Type} [Link σ] (c : Carriage) (link : σ) (call : DeviceCall) :
    (c.perform link call).2.1 = match call with
      | .write _ data => (c.outgoing data).2
      | _ => c := by
  cases call <;> rfl

theorem linkCall_eq_write {c : Carriage} {call : DeviceCall} {channel : Characteristic}
    {payload : Bytes} (h : c.linkCall call = .write channel payload) :
    ∃ data, call = .write channel data ∧ payload = (c.outgoing data).1 := by
  cases call with
  | write channel' data =>
    cases h
    exact ⟨data, rfl, rfl⟩
  | connect | disconnect | discover | enableNotifications | read => cases h

end Carriage

/-! ## Adapters -/

namespace Adapter

variable {σ : Type}

/-- An adapter that was given no other calls than these. What it has to do is among them, and so is
all that its link was told to write, carried after so many other payloads. -/
structure Relays (carriage : Carriage) (asked : List DeviceCall) (a : Adapter (Tapped σ)) :
    Prop where
  carries : ∃ count, a.carriage = carriage.advanced count
  jobs : ∀ call ∈ a.jobs, call ∈ asked
  received : ∀ channel payload, LinkCall.write channel payload ∈ a.link.received →
    ∃ data, .write channel data ∈ asked ∧ ∃ count, payload = carriage.carried count data

variable {carriage : Carriage} {asked : List DeviceCall} {a : Adapter (Tapped σ)}

theorem Relays.mono (h : a.Relays carriage asked) {more : List DeviceCall} (hsub : asked ⊆ more) :
    a.Relays carriage more where
  carries := h.carries
  jobs call hc := hsub (h.jobs call hc)
  received channel payload hp := by
    obtain ⟨data, hd, hcount⟩ := h.received channel payload hp
    exact ⟨data, hsub hd, hcount⟩

theorem Relays.submit (h : a.Relays carriage asked) {call : DeviceCall} (hc : call ∈ asked) :
    (a.submit call).1.Relays carriage asked := by
  unfold Adapter.submit
  split
  · refine ⟨h.carries, ?_, h.received⟩
    intro job hj
    rcases List.mem_append.mp hj with hj | hj
    · exact h.jobs job hj
    · rw [List.mem_singleton.mp hj]
      exact hc
  · exact h

/-- What the link is told next is the oldest job. -/
theorem Relays.perform [Link σ] (h : a.Relays carriage asked) {call : DeviceCall}
    {jobs : List DeviceCall} (hj : a.jobs = call :: jobs) (stage : WorkerStage) :
    ({ a with
        jobs
        carriage := (a.carriage.perform a.link call).2.1
        link := (a.carriage.perform a.link call).2.2
        stage } : Adapter (Tapped σ)).Relays carriage asked := by
  obtain ⟨count, hcarriage⟩ := h.carries
  have hcall : call ∈ asked := h.jobs call (hj ▸ List.mem_cons_self)
  constructor
  case carries =>
    show ∃ count, (a.carriage.perform a.link call).2.1 = _
    rw [Carriage.carriage_perform, hcarriage]
    cases call with
    | write channel data => exact ⟨count + 1, carriage.outgoing_advanced count data⟩
    | connect | disconnect | discover | enableNotifications | read => exact ⟨count, rfl⟩
  case jobs =>
    intro job hjob
    exact h.jobs job (hj ▸ List.mem_cons_of_mem _ hjob)
  case received =>
    intro channel payload hp
    rw [Carriage.received_perform] at hp
    rcases List.mem_append.mp hp with hp | hp
    · exact h.received channel payload hp
    · obtain ⟨data, rfl, hpayload⟩ := Carriage.linkCall_eq_write (List.mem_singleton.mp hp).symm
      exact ⟨data, hcall, count, by rw [hpayload, hcarriage]; rfl⟩

theorem Relays.step [Link σ] (h : a.Relays carriage asked) : a.step.1.Relays carriage asked := by
  unfold Adapter.step
  cases a.stage with
  | resting =>
    dsimp only
    cases hj : a.jobs with
    | nil => exact h
    | cons call jobs =>
      have hp := h.perform hj
      dsimp only
      split
      · exact hp _
      · -- a driver that breaks down takes what is left to do with it
        exact ⟨(hp a.stage).carries, List.forall_mem_nil _,
          (hp a.stage).received⟩
  | executed e =>
    refine ⟨h.carries, h.jobs, fun channel payload hp => h.received channel payload ?_⟩
    have hp : LinkCall.write channel payload ∈ a.link.received ++ [.takeNotices] := hp
    rcases List.mem_append.mp hp with hp | hp
    · exact hp
    · cases List.mem_singleton.mp hp
  | collected e notices => exact ⟨h.carries, h.jobs, h.received⟩

end Adapter

/-! ## Loops -/

/-- Anything that can happen to a loop: a move, or someone tells the session something past its
inbox, or changes the guard that it shares. -/
inductive Stir where
  | move (m : Move)
  | told (e : Event)
  | guard (g : Guard)
  deriving DecidableEq, Repr

namespace Session

/-- One more event in a life. -/
theorem live_told {s : Session} {hs : List Happening} (hc : (s.live hs).crash? = none) (e : Event) :
    (s.live (hs ++ [.event e])).session = ((s.live hs).session.handle e).session ∧
      (s.live (hs ++ [.event e])).effects
        = (s.live hs).effects ++ ((s.live hs).session.handle e).effects ∧
      (s.live (hs ++ [.event e])).crash? = ((s.live hs).session.handle e).crash? := by
  rw [live_append s hs [.event e] hc]
  cases hx : ((s.live hs).session.handle e).crash? with
  | some c =>
    rw [live_crash hx]
    exact ⟨rfl, rfl, hx⟩
  | none =>
    rw [live_event hx]
    refine ⟨rfl, ?_, rfl⟩
    show _ ++ (_ ++ []) = _
    rw [List.append_nil]

/-- Another change of the guard in a life. -/
theorem live_guarded {s : Session} {hs : List Happening} (hc : (s.live hs).crash? = none)
    (guard : Guard) :
    (s.live (hs ++ [.guard guard])).session = { (s.live hs).session with guard } ∧
      (s.live (hs ++ [.guard guard])).effects = (s.live hs).effects := by
  rw [live_append s hs [.guard guard] hc]
  exact ⟨rfl, List.append_nil _⟩

end Session

namespace ClosedLoop

section stir

variable {σ : Type} [Link σ]

/-- The loop once something has happened to it. A session that is over takes no more events. -/
def stir (l : ClosedLoop σ) : Stir → ClosedLoop σ
  | .move m => l.move m
  | .told e => if l.host.live then l.handle e else l
  | .guard guard => { l with host := { l.host with session := { l.host.session with guard } } }

/-- The loop after all that happens to it. -/
def stirAll (l : ClosedLoop σ) (stirs : List Stir) : ClosedLoop σ :=
  stirs.foldl stir l

end stir

variable {σ : Type} {s : Session} {carriage : Carriage} {asked : List DeviceCall}
  {l : ClosedLoop (Tapped σ)}

/-- The effects of a turn change nothing of the session, and the adapter is given their calls. -/
theorem exertAll_relays (h : l.adapter.Relays carriage asked) {es : List Effect}
    (hsub : Trace.calls es ⊆ asked) :
    (es.foldl exert l).host.session = l.host.session ∧
      (es.foldl exert l).host.crash = l.host.crash ∧
      (es.foldl exert l).adapter.Relays carriage asked := by
  induction es generalizing l with
  | nil => exact ⟨rfl, rfl, h⟩
  | cons e es ih =>
    cases e with
    | report | askMesh | signal => exact ih h hsub
    | bind =>
      have hbound : (l.adapter.bind 0).Relays carriage asked := ⟨h.carries, h.jobs, h.received⟩
      exact ih (l := { l with adapter := l.adapter.bind 0 }) hbound hsub
    | release =>
      have hfree : l.adapter.release.Relays carriage asked := ⟨h.carries, h.jobs, h.received⟩
      exact ih (l := { l with adapter := l.adapter.release }) hfree hsub
    | call c =>
      have hc : c ∈ asked := hsub (List.mem_cons_self (a := c))
      exact ih (l := l.exert (.call c)) (h.submit hc) fun x hx => hsub (List.mem_cons_of_mem c hx)

/-- A loop whose session has lived so, and whose adapter was given the calls that it made. -/
structure Follows (s : Session) (carriage : Carriage) (l : ClosedLoop (Tapped σ))
    (hs : List Happening) : Prop where
  session : l.host.session = (s.live hs).session
  whole : l.host.crash = none
  relays : l.adapter.Relays carriage (Trace.calls (s.live hs).effects)

section follows

variable (hwhole : ∀ hs, (s.live hs).crash? = none) {hs : List Happening}

include hwhole

/-- Another event is one more in the session's life. -/
theorem Follows.handle (h : Follows s carriage l hs) (e : Event) :
    Follows s carriage (l.handle e) (hs ++ [.event e]) := by
  obtain ⟨hsession, heffects, hcrash⟩ := Session.live_told (hwhole hs) e
  rw [← h.session] at hsession heffects hcrash
  rw [hwhole] at hcrash
  have hrelays := h.relays.mono (List.subset_append_left _
    (Trace.calls (l.host.session.handle e).effects))
  rw [← Trace.calls_append, ← heffects] at hrelays
  have hsub : Trace.calls (l.host.session.handle e).effects ⊆
      Trace.calls (s.live (hs ++ [.event e])).effects := by
    rw [heffects, Trace.calls_append]
    exact List.subset_append_right _ _
  obtain ⟨hkept, hnone, hrelays⟩ := exertAll_relays
    (l := { l with host := l.host.absorb (l.host.session.handle e) }) hrelays hsub
  have hnone : ((l.host.session.handle e).effects.foldl exert
      { l with host := l.host.absorb (l.host.session.handle e) }).host.crash = none :=
    hnone.trans hcrash.symm
  unfold ClosedLoop.handle
  dsimp only
  rw [hnone]
  exact ⟨hkept.trans hsession.symm, hnone, hrelays⟩

variable [Link σ]

theorem Follows.move (h : Follows s carriage l hs) (m : Move) :
    ∃ more, Follows s carriage (l.move m) (hs ++ more) := by
  -- what waits in the inbox, and how many answers are outstanding, is not the session's
  have same {l' : ClosedLoop (Tapped σ)} (hsession : l'.host.session = l.host.session)
      (hcrash : l'.host.crash = l.host.crash)
      (hrelays : l'.adapter.Relays carriage (Trace.calls (s.live hs).effects)) :
      ∃ more, Follows s carriage l' (hs ++ more) := by
    refine ⟨[], ?_⟩
    rw [List.append_nil]
    exact ⟨hsession.trans h.session, hcrash.trans h.whole, hrelays⟩
  cases m with
  | deliver =>
    simp only [ClosedLoop.move]
    split
    · next e host _ hn =>
      unfold Host.next? at hn
      cases hw : l.host.inbox.waiting with
      | nil => simp [hw] at hn
      | cons e' rest =>
        rw [hw] at hn
        obtain ⟨rfl, rfl⟩ := Prod.mk.inj (Option.some.inj hn)
        have htaken : Follows s carriage { l with host := { l.host with
            inbox := { l.host.inbox with waiting := rest } } } hs :=
          ⟨h.session, h.whole, h.relays⟩
        exact ⟨_, htaken.handle hwhole e'⟩
    · exact same rfl rfl h.relays
  | work => exact same rfl rfl h.relays.step
  | expire =>
    simp only [ClosedLoop.move]
    split
    · next e _ _ => exact ⟨_, h.handle hwhole e⟩
    · exact same rfl rfl h.relays
  | answer known =>
    cases known with
    | none | some => exact same rfl rfl h.relays
  | abort dfu => exact same rfl rfl h.relays

theorem Follows.stir (h : Follows s carriage l hs) (x : Stir) :
    ∃ more, Follows s carriage (l.stir x) (hs ++ more) := by
  cases x with
  | move m => exact h.move hwhole m
  | told e =>
    unfold ClosedLoop.stir
    dsimp only
    split
    · exact ⟨_, h.handle hwhole e⟩
    · exact ⟨[], by rwa [List.append_nil]⟩
  | guard guard =>
    obtain ⟨hsession, heffects⟩ := Session.live_guarded (hwhole hs) guard
    refine ⟨[.guard guard], ?_, h.whole, ?_⟩
    · rw [hsession, ← h.session]
      rfl
    · rw [heffects]
      exact h.relays

theorem Follows.stirAll (h : Follows s carriage l hs) (stirs : List Stir) :
    ∃ more, Follows s carriage (l.stirAll stirs) (hs ++ more) := by
  induction stirs generalizing l hs with
  | nil => exact ⟨[], by rwa [List.append_nil]⟩
  | cons x stirs ih =>
    obtain ⟨more, hx⟩ := h.stir hwhole x
    obtain ⟨further, hrest⟩ := ih hx
    refine ⟨more ++ further, ?_⟩
    rw [← List.append_assoc]
    exact hrest

end follows

end ClosedLoop
end OtaUpgrade
