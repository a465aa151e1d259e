import Mathlib
import OtaUpgrade.Link.Peripheral
import OtaUpgrade.Link.Sealed
import OtaUpgrade.Link.Carriage

/-!
Links at whose end there is a simulated peripheral, whatever is done to the payloads on the way: the
two ends of a tunnel need not even have the same key. What such a link does to the connection is
known all the same (`Performed`), since only connecting brings it up, and when the peripheral drops
it there is a notice of that.
-/
namespace OtaUpgrade

/-- What a call in between makes of a peripheral. The connection stays as it is or, with a notice,
goes down. -/
structure Peripheral.Serves (p p' : Peripheral) : Prop where
  setup : p'.setup = p.setup
  up : p'.log.connected = true → p.log.connected = true
  lost : .disconnected ∈ p'.notices → .disconnected ∈ p.notices ∨ p'.log.connected = false

namespace Peripheral

section serves

variable (p : Peripheral)

theorem Serves.refl : p.Serves p :=
  ⟨rfl, id, .inl⟩

variable {p}

theorem Serves.withLog {log : PeripheralLog} (h : log.connected = p.log.connected) :
    p.Serves (p.withLog log) where
  setup := rfl
  up hup := h.symm.trans hup
  lost := .inl

theorem Serves.down {p' : Peripheral} (h : p.Serves p') (hdown : p.log.connected = false) :
    p'.log.connected = false := by
  by_contra hup
  rw [h.up (Bool.not_eq_false _ ▸ hup)] at hdown
  cases hdown

theorem Serves.trans {p' p'' : Peripheral} (h : p.Serves p') (h' : p'.Serves p'') :
    p.Serves p'' where
  setup := h'.setup.trans h.setup
  up hup := h.up (h'.up hup)
  lost hn := by
    rcases h'.lost hn with hn | hdown
    · rcases h.lost hn with hn | hdown
      · exact .inl hn
      · exact .inr (h'.down hdown)
    · exact .inr hdown

variable (p)

/-- A peripheral that reboots drops the link, and its notice of that comes after. -/
theorem serves_verify (crc : UInt32) : p.Serves (p.verify crc).2 := by
  unfold verify
  split
  · dsimp only
    split
    · exact ⟨rfl, nofun, fun _ => .inr rfl⟩
    · exact .withLog rfl
  · exact .refl p

theorem serves_obey (c : Command) : p.Serves (p.obey c).2 := by
  unfold obey
  split
  case h_3 => exact p.serves_verify _
  all_goals first | exact .refl p | exact .withLog rfl

theorem serves_execute (payload : Bytes) : p.Serves (p.execute payload).2 := by
  unfold execute
  split
  · exact .refl p
  · next c _ =>
    have hlog : p.Serves (p.withLog { p.log with commands := p.log.commands.push c }) :=
      .withLog rfl
    dsimp only
    split
    · split
      · exact hlog
      · exact hlog.trans (serves_obey _ c)
    · exact hlog.trans (serves_obey _ c)

theorem serves_writeCommand (payload : Bytes) :
    (p.writeCommand payload).1 ≠ .crash ∧ p.Serves (p.writeCommand payload).2 := by
  have hs := p.serves_execute payload
  unfold writeCommand
  generalize p.execute payload = x at hs
  obtain ⟨status, p'⟩ := x
  cases status with
  | none => exact ⟨nofun, hs⟩
  | some status =>
    dsimp only
    split
    · exact ⟨nofun, hs⟩
    · split
      · refine ⟨nofun, hs.setup, hs.up, fun hn => hs.lost ?_⟩
        simpa using hn
      · exact ⟨nofun, hs⟩

theorem serves_writeData (chunk : Bytes) :
    (p.writeData chunk).1 ≠ .crash ∧ p.Serves (p.writeData chunk).2 := by
  unfold writeData
  dsimp only
  split
  · exact ⟨nofun, .refl p⟩
  · split
    · exact ⟨nofun, .refl p⟩
    · exact ⟨nofun, .withLog rfl⟩

end serves

end Peripheral

/-- A link at whose end there is a simulated peripheral. Whatever lies in between passes on
connecting, disconnecting and the notices; it may spoil what is written and read. -/
class Terminal (σ : Type) [Link σ] where
  peripheral : σ → Peripheral
  connect : ∀ l, (Link.connect l).1 = (Link.connect (peripheral l)).1 ∧
    peripheral (Link.connect l).2 = (Link.connect (peripheral l)).2
  disconnect : ∀ l, (Link.disconnect l).1 = (Link.disconnect (peripheral l)).1 ∧
    peripheral (Link.disconnect l).2 = (Link.disconnect (peripheral l)).2
  discover : ∀ l, (Link.discover l).1 ≠ .crash ∧
    (peripheral l).Serves (peripheral (Link.discover l).2)
  setNotify : ∀ l channel enabled, (Link.setNotify l channel enabled).1 ≠ .crash ∧
    (peripheral l).Serves (peripheral (Link.setNotify l channel enabled).2)
  write : ∀ l channel value, (Link.write l channel value).1 ≠ .crash ∧
    (peripheral l).Serves (peripheral (Link.write l channel value).2)
  read : ∀ l channel, (Link.read l channel).1 ≠ .crash ∧
    (peripheral l).Serves (peripheral (Link.read l channel).2)
  takeNotices : ∀ l, peripheral (Link.takeNotices l).2 = { peripheral l with notices := [] } ∧
    (.disconnected ∈ (Link.takeNotices l).1 → .disconnected ∈ (peripheral l).notices)

instance : Terminal Peripheral where
  peripheral p := p
  connect _ := ⟨rfl, rfl⟩
  disconnect _ := ⟨rfl, rfl⟩
  discover p := by
    simp only [Link.discover]
    split <;> exact ⟨nofun, .refl p⟩
  setNotify p channel enabled := by
    simp only [Link.setNotify]
    split
    · exact ⟨nofun, .refl p⟩
    · exact ⟨nofun, .withLog rfl⟩
  write p channel value := by
    simp only [Link.write]
    split
    · exact ⟨nofun, .refl p⟩
    · cases channel with
      | controlPoint => exact p.serves_writeCommand value
      | data => exact p.serves_writeData value
      | appInfo => exact ⟨nofun, .refl p⟩
  read p channel := by
    simp only [Link.read]
    split
    · exact ⟨nofun, .refl p⟩
    · split <;> exact ⟨nofun, .refl p⟩
  takeNotices _ := ⟨rfl, id⟩

/-! ## Behind a tunnel -/

namespace SealedLink

variable {σ : Type}

theorem sealNotices_inner (l : SealedLink σ) (notices : List Notice) :
    (l.sealNotices notices).2.inner = l.inner ∧
      (.disconnected ∈ (l.sealNotices notices).1 → .disconnected ∈ notices) := by
  induction notices generalizing l with
  | nil => exact ⟨rfl, id⟩
  | cons notice notices ih =>
    cases notice with
    | disconnected => exact ⟨(ih l).1, fun _ => List.mem_cons_self⟩
    | indication channel value =>
      obtain ⟨hi, hn⟩ := ih (l.seals value).2
      refine ⟨hi, fun hm => List.mem_cons_of_mem _ (hn ?_)⟩
      rcases List.mem_cons.mp hm with hm | hm
      · cases hm
      · exact hm

variable [Link σ]

instance [Terminal σ] : Terminal (SealedLink σ) where
  peripheral l := Terminal.peripheral l.inner
  connect l := Terminal.connect l.inner
  disconnect l := Terminal.disconnect l.inner
  discover l := Terminal.discover l.inner
  setNotify l := Terminal.setNotify l.inner
  write l channel value := by
    simp only [Link.write, writeThrough]
    cases l.far.unwrap value with
    | error e => exact ⟨nofun, .refl _⟩
    | ok payload =>
      obtain ⟨hc, hs⟩ := Terminal.write l.inner channel payload
      simp only [inside]
      generalize Link.write l.inner channel payload = x at hc hs
      obtain ⟨answer, inner⟩ := x
      cases answer with
      | ok response => cases response <;> exact ⟨nofun, hs⟩
      | failed e => exact ⟨nofun, hs⟩
      | crash => exact absurd rfl hc
  read l channel := by
    obtain ⟨hc, hs⟩ := Terminal.read l.inner channel
    simp only [Link.read, readThrough, inside]
    generalize Link.read l.inner channel = x at hc hs
    obtain ⟨answer, inner⟩ := x
    cases answer with
    | ok value => exact ⟨nofun, hs⟩
    | failed e => exact ⟨nofun, hs⟩
    | crash => exact absurd rfl hc
  takeNotices l := by
    obtain ⟨hp, hn⟩ := Terminal.takeNotices l.inner
    obtain ⟨hi, hs⟩ := sealNotices_inner { l with inner := (Link.takeNotices l.inner).2 }
      (Link.takeNotices l.inner).1
    refine ⟨?_, fun hm => hn (hs hm)⟩
    show Terminal.peripheral _ = _
    rw [← hp]
    exact congrArg Terminal.peripheral hi

end SealedLink

/-! ## Calls -/

/-- The event tells of the connection. -/
def Event.ofConnection : Event → Bool
  | .connection _ _ => true
  | _ => false

/-- All that can come of a call for the connection: the peripheral before, the call, the event that
completes it, and the peripheral after. -/
inductive Performed (p : Peripheral) : DeviceCall → Event → Peripheral → Prop where
  | refused {error : LinkError} (hr : p.setup.refusesConnection = true) :
      Performed p .connect (.connection false (some error)) p
  | connected {p' : Peripheral} (hr : p.setup.refusesConnection = false)
      (hs : p'.setup = p.setup) (hup : p'.log.connected = true) (hn : p'.notices = p.notices) :
      Performed p .connect (.connection true none) p'
  | disconnected {p' : Peripheral} (hs : p'.setup = p.setup) (hdown : p'.log.connected = false)
      (hn : p'.notices = p.notices) : Performed p .disconnect (.connection false none) p'
  | served {call : DeviceCall} {e : Event} {p' : Peripheral} (hc : call ≠ .connect)
      (hd : call ≠ .disconnect) (he : e.ofConnection = false) (hs : p.Serves p') :
      Performed p call e p'

/-- A link that is down stays down until it is connected. -/
theorem Performed.down {p p' : Peripheral} {call : DeviceCall} {e : Event}
    (h : Performed p call e p') (hc : call ≠ .connect) (hdown : p.log.connected = false) :
    p'.log.connected = false := by
  cases h with
  | refused | connected => exact absurd rfl hc
  | disconnected _ hdown => exact hdown
  | served _ _ _ hs => exact hs.down hdown

theorem Performed.setup_eq {p p' : Peripheral} {call : DeviceCall} {e : Event}
    (h : Performed p call e p') : p'.setup = p.setup := by
  cases h with
  | refused => rfl
  | connected _ hs | disconnected hs => exact hs
  | served _ _ _ hs => exact hs.setup

/-- A notice that the link is down came before, or it has just gone down. -/
theorem Performed.noticed {p p' : Peripheral} {call : DeviceCall} {e : Event}
    (h : Performed p call e p') (hn : .disconnected ∈ p'.notices) :
    .disconnected ∈ p.notices ∨ p'.log.connected = false := by
  cases h with
  | refused => exact .inl hn
  | connected _ _ _ hsame | disconnected _ _ hsame => exact .inl (hsame ▸ hn)
  | served _ _ _ hs => exact hs.lost hn

/-- A call that is completed by the report that the link is down leaves it so. -/
theorem Performed.of_loss {p p' : Peripheral} {call : DeviceCall} {error : Option LinkError}
    (h : Performed p call (.connection false error) p') :
    call = .connect ∧ p' = p ∨ p'.log.connected = false := by
  cases h with
  | refused => exact .inl ⟨rfl, rfl⟩
  | disconnected _ hdown => exact .inr hdown
  | served _ _ he => cases he

theorem Answer.bind_ne_crash {α β : Type} {a : Answer α} (ha : a ≠ .crash) {next : α → Answer β}
    (hn : ∀ value, next value ≠ .crash) : a.bind next ≠ .crash := by
  cases a with
  | ok value => exact hn value
  | failed error => exact nofun
  | crash => exact absurd rfl ha

theorem Answer.ofExcept_ne_crash {α : Type} (r : Except LinkError α) :
    Answer.ofExcept r ≠ .crash := by
  cases r <;> nofun

theorem Carriage.incomingResponse_ne_crash (c : Carriage) (response : Option Bytes) :
    c.incomingResponse response ≠ .crash := by
  cases response with
  | none => nofun
  | some payload => exact Answer.bind_ne_crash (Answer.ofExcept_ne_crash _) fun _ => nofun

section performed

variable {σ : Type} [Link σ] [Terminal σ]

open Terminal

/-- A call in between is completed by an event of its own. -/
theorem DeviceCall.completion?_of_not_crash {α : Type} {call : DeviceCall} (hc : call ≠ .connect)
    (hd : call ≠ .disconnect) {answer : Answer α} (ha : answer ≠ .crash) {success : α → Event}
    (hs : ∀ a, (success a).ofConnection = false) :
    ∃ e, call.completion? answer success = some e ∧ e.ofConnection = false := by
  cases answer with
  | ok value => exact ⟨_, rfl, hs value⟩
  | failed error =>
    refine ⟨_, rfl, ?_⟩
    cases call with
    | connect => exact absurd rfl hc
    | disconnect => exact absurd rfl hd
    | discover | enableNotifications | write | read => rfl
  | crash => exact absurd rfl ha

/-- Whatever carries the payloads, a call does to the connection what it says. -/
theorem Carriage.performed (c : Carriage) (l : σ) (call : DeviceCall) :
    ∃ e, (c.perform l call).1 = some e ∧
      Performed (peripheral l) call e (peripheral (c.perform l call).2.2) := by
  -- a call in between is completed by its own event, and all it does is to be served
  have serves {α : Type} {call : DeviceCall} (hc : call ≠ .connect) (hd : call ≠ .disconnect)
      {answer : Answer α} {l' : σ} (ha : answer ≠ .crash)
      (hs : (peripheral l).Serves (peripheral l')) {success : α → Event}
      (he : ∀ a, (success a).ofConnection = false) :
      ∃ e, call.completion? answer success = some e ∧
        Performed (peripheral l) call e (peripheral l') := by
    obtain ⟨e, hsome, he⟩ := DeviceCall.completion?_of_not_crash hc hd ha he
    exact ⟨e, hsome, .served hc hd he hs⟩
  cases call with
  | connect =>
    obtain ⟨ha, hp⟩ := Terminal.connect l
    simp only [perform]
    rw [ha, hp]
    cases hr : (peripheral l).setup.refusesConnection with
    | true =>
      simp only [Link.connect, hr, if_true]
      exact ⟨_, rfl, .refused hr⟩
    | false =>
      simp only [Link.connect, hr, Bool.false_eq_true, if_false]
      exact ⟨_, rfl, .connected hr rfl rfl rfl⟩
  | disconnect =>
    obtain ⟨ha, hp⟩ := Terminal.disconnect l
    simp only [perform]
    rw [ha, hp]
    refine ⟨_, rfl, .disconnected rfl ?_ rfl⟩
    show (if (peripheral l).log.connected = true then (peripheral l).log.dropped
      else (peripheral l).log).connected = false
    split
    · rfl
    · next hdown => exact Bool.eq_false_iff.mpr hdown
  | discover =>
    obtain ⟨ha, hs⟩ := Terminal.discover l
    refine serves ?_ ?_ ha hs ?_
    · simp
    · simp
    · exact fun _ => rfl
  | enableNotifications enabled =>
    obtain ⟨ha, hs⟩ := Terminal.setNotify l .controlPoint enabled
    refine serves ?_ ?_ ha hs ?_
    · simp
    · simp
    · exact fun _ => rfl
  | write channel data =>
    obtain ⟨ha, hs⟩ := Terminal.write l channel (c.outgoing data).1
    refine serves ?_ ?_ (Answer.bind_ne_crash ha (incomingResponse_ne_crash _)) hs ?_
    · simp
    · simp
    · exact fun _ => rfl
  | read channel =>
    obtain ⟨ha, hs⟩ := Terminal.read l channel
    refine serves ?_ ?_ (Answer.bind_ne_crash ha fun _ => Answer.ofExcept_ne_crash _) hs ?_
    · simp
    · simp
    · exact fun _ => rfl

end performed

end OtaUpgrade
