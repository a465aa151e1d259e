import Mathlib
import OtaUpgrade.Link.Sealed
import OtaUpgrade.Proofs.Link.Forecast
import OtaUpgrade.Session.ClosedLoop

/-!
A tunnel changes nothing but the payloads on the way. What one end wraps the other end unwraps, so a
call through the tunnel does to the link inside what the plain call does, and is told by the same
events. The relation `Mirrors` carries this over to adapters and to closed loops: every move keeps
it.
-/
namespace OtaUpgrade

/-- The two ends of one tunnel. -/
structure TunnelEnd.Paired (near far : TunnelEnd) : Prop where
  key : far.key = near.key
  direction : far.direction ≠ near.direction

namespace TunnelEnd

variable {near far : TunnelEnd}

theorem Paired.symm (h : Paired near far) : Paired far near := ⟨h.key.symm, h.direction.symm⟩

/-- What one end wraps the other end unwraps. -/
theorem Paired.unwrap_wrap (h : Paired near far) (payload : Bytes) :
    far.unwrap (near.wrap payload) = .ok payload := by
  have hlong : ¬ payload.length + overhead < overhead := by omega
  -- a packet is refused if it bears the direction of the end that reads it
  have hbyte : (near.wrap payload).head? ≠ some far.direction.byte := by
    intro hb
    have hd := h.direction
    cases hn : near.direction <;> cases hf : far.direction <;>
      simp_all [wrap, nonce, Direction.byte]
  unfold unwrap
  rw [length_wrap, if_neg hlong, if_neg hbyte]
  simp only [wrap, List.take_left' (length_nonce _ _), List.drop_left' (length_nonce _ _), h.key,
    Aead.decrypt?_encrypt]

end TunnelEnd

/-- The carriage is the near end of the tunnel behind which the link lies. -/
def Carriage.Reaches {σ : Type} (c : Carriage) (l : SealedLink σ) : Prop :=
  ∃ near address, c = .tunnel near address ∧ near.Paired l.far

section call

variable {σ : Type} {c : Carriage} {l : SealedLink σ}

theorem Carriage.Reaches.incoming (h : c.Reaches l) (value : Bytes) :
    c.incoming (l.far.wrap value) = .ok value := by
  obtain ⟨near, address, rfl, hp⟩ := h
  exact hp.symm.unwrap_wrap value

theorem Carriage.Reaches.seals (h : c.Reaches l) (value : Bytes) : c.Reaches (l.seals value).2 := by
  obtain ⟨near, address, rfl, hp⟩ := h
  exact ⟨near, address, rfl, hp.key, hp.direction⟩

theorem Carriage.Reaches.withInner (h : c.Reaches l) (inner : σ) :
    c.Reaches ({ l with inner } : SealedLink σ) := h

/-- Notices come through the tunnel as they were raised. -/
theorem Carriage.Reaches.sealNotices (h : c.Reaches l) (notices : List Notice) :
    (l.sealNotices notices).1.map c.noticed = notices.map Carriage.plain.noticed ∧
      c.Reaches (l.sealNotices notices).2 ∧ (l.sealNotices notices).2.inner = l.inner := by
  induction notices generalizing l with
  | nil => exact ⟨rfl, h, rfl⟩
  | cons notice notices ih =>
    cases notice with
    | disconnected =>
      obtain ⟨hn, hr, hi⟩ := ih h
      exact ⟨congrArg (_ :: ·) hn, hr, hi⟩
    | indication channel value =>
      obtain ⟨hn, hr, hi⟩ := ih (h.seals value)
      refine ⟨?_, hr, hi⟩
      have hv : c.noticed (.indication channel (l.seals value).1)
          = Carriage.plain.noticed (.indication channel value) := by
        simp only [noticed, SealedLink.seals, h.incoming]
        rfl
      exact congrArg₂ List.cons hv hn

variable [Link σ]

/-- A call through the tunnel is told like the plain one and does the same to the link inside. -/
theorem Carriage.Reaches.perform (h : c.Reaches l) (call : DeviceCall) :
    (c.perform l call).1 = (Carriage.plain.perform l.inner call).1 ∧
      (c.perform l call).2.1.Reaches (c.perform l call).2.2 ∧
      (c.perform l call).2.2.inner = (Carriage.plain.perform l.inner call).2.2 := by
  cases call with
  | connect | disconnect | discover | enableNotifications => exact ⟨rfl, h, rfl⟩
  | write channel data =>
    obtain ⟨near, address, rfl, hp⟩ := h
    -- the counters run on; what the ends share is the key
    have hnear : (near.advance).Paired l.far := ⟨hp.key, hp.direction⟩
    simp only [Carriage.perform, outgoing, Link.write, SealedLink.writeThrough, hp.unwrap_wrap,
      SealedLink.inside]
    obtain ⟨answer, inner⟩ := Link.write l.inner channel data
    cases answer with
    | ok response =>
      cases response with
      | none => exact ⟨rfl, ⟨_, _, rfl, hnear⟩, rfl⟩
      | some response =>
        refine ⟨?_, ⟨_, _, rfl, hnear.key, hnear.direction⟩, rfl⟩
        simp [Answer.bind, incomingResponse, Carriage.incoming, SealedLink.seals,
          hnear.symm.unwrap_wrap]
    | failed error => exact ⟨rfl, ⟨_, _, rfl, hnear⟩, rfl⟩
    | crash => exact ⟨rfl, ⟨_, _, rfl, hnear⟩, rfl⟩
  | read channel =>
    simp only [Carriage.perform, Link.read, SealedLink.readThrough, SealedLink.inside]
    obtain ⟨answer, inner⟩ := Link.read l.inner channel
    cases answer with
    | ok value =>
      refine ⟨?_, h.seals value, rfl⟩
      simp [Answer.bind, SealedLink.seals, h.incoming]
      rfl
    | failed error => exact ⟨rfl, h, rfl⟩
    | crash => exact ⟨rfl, h, rfl⟩

end call

/-! ## Adapters -/

section adapter

variable {σ : Type}

/-- The worker behind the tunnel has in hand what the other one has. -/
inductive WorkerStage.Mirrors (c : Carriage) : WorkerStage → WorkerStage → Prop where
  | resting : Mirrors c .resting .resting
  | executed (completion : Event) : Mirrors c (.executed completion) (.executed completion)
  | collected (completion : Event) {wrapped notices : List Notice}
      (h : wrapped.map c.noticed = notices.map Carriage.plain.noticed) :
      Mirrors c (.collected completion wrapped) (.collected completion notices)

/-- The adapter reaches through a tunnel what the other one reaches directly, and both are as
far. -/
structure Adapter.Mirrors (t : Adapter (SealedLink σ)) (a : Adapter σ) : Prop where
  reaches : t.carriage.Reaches t.link
  plain : a.carriage = .plain
  inner : t.link.inner = a.link
  jobs : t.jobs = a.jobs
  stage : t.stage.Mirrors t.carriage a.stage
  alive : t.alive = a.alive
  sink : t.sink = a.sink

namespace Adapter

variable {t : Adapter (SealedLink σ)} {a : Adapter σ}

theorem Mirrors.bind (h : t.Mirrors a) (sink : Nat) : (t.bind sink).Mirrors (a.bind sink) :=
  ⟨h.reaches, h.plain, h.inner, h.jobs, h.stage, h.alive, rfl⟩

theorem Mirrors.release (h : t.Mirrors a) : t.release.Mirrors a.release :=
  ⟨h.reaches, h.plain, h.inner, h.jobs, h.stage, h.alive, rfl⟩

theorem Mirrors.posting (h : t.Mirrors a) (es : List Event) : t.posting es = a.posting es := by
  unfold Adapter.posting
  rw [h.sink]

theorem Mirrors.submit (h : t.Mirrors a) (call : DeviceCall) :
    (t.submit call).1.Mirrors (a.submit call).1 ∧ (t.submit call).2 = (a.submit call).2 := by
  unfold Adapter.submit
  rw [h.alive]
  split
  · exact ⟨⟨h.reaches, h.plain, h.inner, congrArg (· ++ [call]) h.jobs, h.stage, rfl, h.sink⟩, rfl⟩
  · exact ⟨h, h.posting _⟩

/-- Both workers take the same step. -/
theorem Mirrors.step [Link σ] (h : t.Mirrors a) :
    t.step.1.Mirrors a.step.1 ∧ t.step.2 = a.step.2 := by
  obtain ⟨name, carriage, link, jobs, stage, alive, sink⟩ := t
  obtain ⟨name', carriage', link', jobs', stage', alive', sink'⟩ := a
  obtain ⟨hr, rfl, rfl, rfl, hs, rfl, rfl⟩ := h
  simp only at hr hs
  -- both workers are at the same stage, and performing a call keeps the ends paired
  cases hs with
  | resting =>
    cases jobs with
    | nil => exact ⟨⟨hr, rfl, rfl, rfl, .resting, rfl, rfl⟩, rfl⟩
    | cons call jobs =>
      obtain ⟨he, hr', hi⟩ := hr.perform call
      have hp := Carriage.perform_plain link.inner call
      simp only [Adapter.step]
      generalize carriage.perform link call = x at he hr' hi
      generalize Carriage.plain.perform link.inner call = y at he hi hp
      obtain ⟨e, c, l⟩ := x
      obtain ⟨e', c', i⟩ := y
      obtain rfl : e = e' := he
      obtain rfl : c' = .plain := hp
      cases e with
      | none => exact ⟨⟨hr', rfl, hi, rfl, .resting, rfl, rfl⟩, rfl⟩
      | some e => exact ⟨⟨hr', rfl, hi, rfl, .executed e, rfl, rfl⟩, rfl⟩
  | executed e =>
    obtain ⟨hn, hr', hi⟩ :=
      (hr.withInner (Link.takeNotices link.inner).2).sealNotices (Link.takeNotices link.inner).1
    exact ⟨⟨hr', rfl, hi, rfl, .collected e hn, rfl, rfl⟩, rfl⟩
  | collected e hn =>
    refine ⟨⟨hr, rfl, rfl, rfl, .resting, rfl, rfl⟩, ?_⟩
    simp only [Adapter.step, Adapter.posting, hn]

end Adapter

end adapter

/-! ## Closed loops -/

/-- The same session, once with a tunnel between it and its device. -/
structure ClosedLoop.Mirrors {σ : Type} (t : ClosedLoop (SealedLink σ)) (l : ClosedLoop σ) :
    Prop where
  host : t.host = l.host
  adapter : t.adapter.Mirrors l.adapter

namespace ClosedLoop

variable {σ : Type} {t : ClosedLoop (SealedLink σ)} {l : ClosedLoop σ}

theorem Mirrors.receive (h : t.Mirrors l) (es : List Event) :
    (t.receive es).Mirrors (l.receive es) :=
  ⟨congrArg (Host.post · es) h.host, h.adapter⟩

theorem Mirrors.exert (h : t.Mirrors l) (e : Effect) : (t.exert e).Mirrors (l.exert e) := by
  cases e with
  | bind => exact ⟨h.host, h.adapter.bind 0⟩
  | release => exact ⟨h.host, h.adapter.release⟩
  | call c =>
    obtain ⟨ha, hp⟩ := h.adapter.submit c
    have hx : ({ t with adapter := (t.adapter.submit c).1 } : ClosedLoop _).Mirrors
        { l with adapter := (l.adapter.submit c).1 } := ⟨h.host, ha⟩
    simp only [ClosedLoop.exert]
    rw [hp]
    exact hx.receive _
  | report | askMesh | signal => exact h

theorem Mirrors.exertAll (h : t.Mirrors l) (es : List Effect) :
    (es.foldl ClosedLoop.exert t).Mirrors (es.foldl ClosedLoop.exert l) := by
  induction es generalizing t l with
  | nil => exact h
  | cons e es ih => exact ih (h.exert e)

theorem Mirrors.handle (h : t.Mirrors l) (e : Event) : (t.handle e).Mirrors (l.handle e) := by
  obtain ⟨host, adapter⟩ := t
  obtain ⟨host', adapter'⟩ := l
  obtain ⟨rfl, ha⟩ := h
  have hx := Mirrors.exertAll (t := ⟨host.absorb (host.session.handle e), adapter⟩)
    (l := ⟨host.absorb (host.session.handle e), adapter'⟩) ⟨rfl, ha⟩
    (host.session.handle e).effects
  simp only [ClosedLoop.handle]
  rw [hx.host]
  split
  · exact ⟨rfl, hx.adapter.release⟩
  · exact hx

/-- Every move goes the same way with the tunnel and without it. -/
theorem Mirrors.move [Link σ] (h : t.Mirrors l) (m : Move) : (t.move m).Mirrors (l.move m) := by
  cases m with
  | deliver =>
    simp only [ClosedLoop.move]
    rw [h.host]
    split
    · next e host _ _ =>
      have hx : ({ t with host } : ClosedLoop _).Mirrors { l with host } := ⟨rfl, h.adapter⟩
      exact hx.handle e
    · exact h
  | work =>
    obtain ⟨ha, hp⟩ := h.adapter.step
    have hx : ({ t with adapter := t.adapter.step.1 } : ClosedLoop _).Mirrors
        { l with adapter := l.adapter.step.1 } := ⟨h.host, ha⟩
    simp only [ClosedLoop.move]
    rw [hp]
    exact hx.receive _
  | expire =>
    simp only [ClosedLoop.move]
    rw [h.host]
    split
    · exact h.handle _
    · exact h
  | answer known => exact ⟨congrArg (Host.answerMesh · known) h.host, h.adapter⟩
  | abort dfu => exact h.receive _

end ClosedLoop
end OtaUpgrade
