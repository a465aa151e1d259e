import Mathlib
import OtaUpgrade.Proofs.Link.Transparent

/-!
Adapters run side by side. Whatever is asked of an adapter that goes through a tunnel, it posts what
the plain adapter of the same link posts, and the link receives the same calls in the same order. To
tell the calls, a link is tapped: the tap records what the link receives and passes it on, and an
adapter cannot notice it.
-/
namespace OtaUpgrade

/-! ## Tapped links -/

/-- A call as a link receives it. -/
inductive LinkCall where
  | connect
  | disconnect
  | discover
  | setNotify (channel : Characteristic) (enabled : Bool)
  | write (channel : Characteristic) (value : Bytes)
  | read (channel : Characteristic)
  | takeNotices
  deriving DecidableEq, Repr

/-- A link with a record of the calls that it received, oldest first. -/
structure Tapped (σ : Type) where
  inner : σ
  received : List LinkCall := []
  deriving DecidableEq, Repr

namespace Tapped

variable {σ : Type}

/-- Records a call that the link has answered. -/
def note {α : Type} (t : Tapped σ) (call : LinkCall) (answered : α × σ) : α × Tapped σ :=
  (answered.1, { inner := answered.2, received := t.received ++ [call] })

instance [Link σ] : Link (Tapped σ) where
  connect t := t.note .connect (Link.connect t.inner)
  disconnect t := t.note .disconnect (Link.disconnect t.inner)
  discover t := t.note .discover (Link.discover t.inner)
  setNotify t channel enabled :=
    t.note (.setNotify channel enabled) (Link.setNotify t.inner channel enabled)
  write t channel value := t.note (.write channel value) (Link.write t.inner channel value)
  read t channel := t.note (.read channel) (Link.read t.inner channel)
  mtu t := Link.mtu t.inner
  takeNotices t := t.note .takeNotices (Link.takeNotices t.inner)

end Tapped

/-! ## Links inside links -/

/-- A link answers every call as the link does that is found inside it, and passes the call on. -/
structure Unveils {τ σ : Type} [Link τ] [Link σ] (inside : τ → σ) : Prop where
  connect : ∀ t, Link.connect (inside t) = (Link.connect t).map id inside
  disconnect : ∀ t, Link.disconnect (inside t) = (Link.disconnect t).map id inside
  discover : ∀ t, Link.discover (inside t) = (Link.discover t).map id inside
  setNotify : ∀ t channel enabled,
    Link.setNotify (inside t) channel enabled = (Link.setNotify t channel enabled).map id inside
  write : ∀ t channel value,
    Link.write (inside t) channel value = (Link.write t channel value).map id inside
  read : ∀ t channel, Link.read (inside t) channel = (Link.read t channel).map id inside
  takeNotices : ∀ t, Link.takeNotices (inside t) = (Link.takeNotices t).map id inside

theorem Tapped.unveils {σ : Type} [Link σ] : Unveils (Tapped.inner : Tapped σ → σ) where
  connect _ := rfl
  disconnect _ := rfl
  discover _ := rfl
  setNotify _ _ _ := rfl
  write _ _ _ := rfl
  read _ _ := rfl
  takeNotices _ := rfl

section unveils

variable {τ σ : Type} [Link τ] [Link σ] {inside : τ → σ}

theorem Unveils.perform (h : Unveils inside) (c : Carriage) (t : τ) (call : DeviceCall) :
    c.perform (inside t) call
      = ((c.perform t call).1, (c.perform t call).2.1, inside (c.perform t call).2.2) := by
  cases call with
  | connect => simp [Carriage.perform, h.connect]
  | disconnect => simp [Carriage.perform, h.disconnect]
  | discover => simp [Carriage.perform, h.discover]
  | enableNotifications enabled => simp [Carriage.perform, h.setNotify]
  | write channel data => simp [Carriage.perform, h.write]
  | read channel => simp [Carriage.perform, h.read]

/-- The adapter of the link itself. -/
def Adapter.untapped {σ : Type} (a : Adapter (Tapped σ)) : Adapter σ :=
  { a with link := a.link.inner }

/-- The adapter of the link inside. -/
def Adapter.unveiled (inside : τ → σ) (a : Adapter τ) : Adapter σ :=
  { a with link := inside a.link }

namespace Adapter

omit [Link τ] [Link σ] in
theorem submit_unveiled (inside : τ → σ) (a : Adapter τ) (call : DeviceCall) :
    (a.unveiled inside).submit call = ((a.submit call).1.unveiled inside, (a.submit call).2) := by
  obtain ⟨name, carriage, link, jobs, stage, alive, sink⟩ := a
  cases alive <;> rfl

theorem step_unveiled (h : Unveils inside) (a : Adapter τ) :
    (a.unveiled inside).step = (a.step.1.unveiled inside, a.step.2) := by
  obtain ⟨name, carriage, link, jobs, stage, alive, sink⟩ := a
  cases stage with
  | resting =>
    cases jobs with
    | nil => rfl
    | cons call jobs =>
      simp only [unveiled, step, h.perform carriage link call]
      generalize carriage.perform link call = made
      obtain ⟨completion, carriage, link⟩ := made
      cases completion <;> rfl
  | executed e => simp [unveiled, step, h.takeNotices]
  | collected => rfl

end Adapter

end unveils

/-! ## Operations -/

/-- Something done with an adapter: by its session, or by its worker. -/
inductive Operation where
  | bind (inbox : Nat)
  | release
  | submit (call : DeviceCall)
  /-- The worker takes a step. -/
  | work
  deriving DecidableEq, Repr

namespace Adapter

variable {σ : Type} [Link σ]

/-- The adapter after an operation, and what was posted. -/
def operate (a : Adapter σ) : Operation → Adapter σ × Posting
  | .bind inbox => (a.bind inbox, none)
  | .release => (a.release, none)
  | .submit call => a.submit call
  | .work => a.step

/-- The adapter after operations, and what each of them posted. -/
def operateAll (a : Adapter σ) : List Operation → Adapter σ × List Posting
  | [] => (a, [])
  | op :: ops =>
    let first := a.operate op
    let rest := first.1.operateAll ops
    (rest.1, first.2 :: rest.2)

/-- An adapter that reaches a link directly. -/
def directly (name : String) (link : σ) : Adapter σ :=
  { name, carriage := .plain, link }

/-- An adapter that reaches a link through a tunnel. -/
def tunnelled (name : String) (address : UInt16) (key : SecretKey) (link : σ) :
    Adapter (SealedLink σ) :=
  { name, carriage := .tunnelTo address key, link := .ofKey key link }

section unveils

variable {τ : Type} [Link τ] {inside : τ → σ}

theorem operate_unveiled (h : Unveils inside) (a : Adapter τ) (op : Operation) :
    (a.unveiled inside).operate op
      = ((a.operate op).1.unveiled inside, (a.operate op).2) := by
  cases op with
  | bind | release => rfl
  | submit call => exact a.submit_unveiled inside call
  | work => exact a.step_unveiled h

/-- An adapter does not notice what lies between it and its link. -/
theorem operateAll_unveiled (h : Unveils inside) (a : Adapter τ) (ops : List Operation) :
    (a.unveiled inside).operateAll ops
      = ((a.operateAll ops).1.unveiled inside, (a.operateAll ops).2) := by
  induction ops generalizing a with
  | nil => rfl
  | cons op ops ih => simp only [operateAll, operate_unveiled h, ih]

end unveils

/-- A tap changes nothing for the adapter. -/
theorem operateAll_untapped (a : Adapter (Tapped σ)) (ops : List Operation) :
    a.untapped.operateAll ops = ((a.operateAll ops).1.untapped, (a.operateAll ops).2) :=
  operateAll_unveiled Tapped.unveils a ops

theorem Mirrors.operate {t : Adapter (SealedLink σ)} {a : Adapter σ} (h : t.Mirrors a)
    (op : Operation) :
    (t.operate op).1.Mirrors (a.operate op).1 ∧ (t.operate op).2 = (a.operate op).2 := by
  cases op with
  | bind inbox => exact ⟨h.bind inbox, rfl⟩
  | release => exact ⟨h.release, rfl⟩
  | submit call => exact h.submit call
  | work => exact h.step

theorem Mirrors.operateAll {t : Adapter (SealedLink σ)} {a : Adapter σ} (h : t.Mirrors a)
    (ops : List Operation) :
    (t.operateAll ops).1.Mirrors (a.operateAll ops).1 ∧
      (t.operateAll ops).2 = (a.operateAll ops).2 := by
  induction ops generalizing t a with
  | nil => exact ⟨h, rfl⟩
  | cons op ops ih =>
    obtain ⟨ha, hp⟩ := h.operate op
    obtain ⟨hrest, hposts⟩ := ih ha
    exact ⟨hrest, congrArg₂ List.cons hp hposts⟩

omit [Link σ] in
theorem mirrors_tunnelled (name farName : String) (address : UInt16) (key : SecretKey) (link : σ) :
    (tunnelled farName address key link).Mirrors (directly name link) :=
  ⟨⟨_, _, rfl, rfl, nofun⟩, rfl, rfl, rfl, .resting, rfl, rfl⟩

/-- The tunnel is transparent. Every operation on an adapter that goes through it posts what the same
operation posts on the plain adapter; the link ends in the same state; and it has received the same
calls with the same values, as a tap on it tells, which itself changes nothing. -/
theorem tunnel_transparent (name farName : String) (address : UInt16) (key : SecretKey) (link : σ)
    (ops : List Operation) :
    let plain := (directly name link).operateAll ops
    let through := (tunnelled farName address key link).operateAll ops
    let plainTapped := (directly name ({ inner := link } : Tapped σ)).operateAll ops
    let throughTapped := (tunnelled farName address key ({ inner := link } : Tapped σ)).operateAll ops
    through.2 = plain.2 ∧ through.1.link.inner = plain.1.link ∧
      throughTapped.1.link.inner.received = plainTapped.1.link.received ∧
      (plainTapped.2 = plain.2 ∧ plainTapped.1.link.inner = plain.1.link) ∧
      throughTapped.2 = through.2 ∧ throughTapped.1.link.inner.inner = through.1.link.inner := by
  intro plain through plainTapped throughTapped
  obtain ⟨hm, hp⟩ := (mirrors_tunnelled name farName address key link).operateAll ops
  obtain ⟨hmt, hpt⟩ := (mirrors_tunnelled name farName address key
    ({ inner := link } : Tapped σ)).operateAll ops
  have htap : plain = (plainTapped.1.untapped, plainTapped.2) :=
    operateAll_untapped (directly name ({ inner := link } : Tapped σ)) ops
  have hposts : plainTapped.2 = plain.2 := (congrArg Prod.snd htap).symm
  have hinner : plainTapped.1.link.inner = plain.1.link :=
    (congrArg (fun run => run.1.link) htap).symm
  refine ⟨hp, hm.inner, congrArg Tapped.received hmt.inner, ⟨hposts, hinner⟩, ?_, ?_⟩
  · exact (hpt.trans hposts).trans hp.symm
  · exact (congrArg Tapped.inner hmt.inner).trans (hinner.trans hm.inner.symm)

end Adapter
end OtaUpgrade
