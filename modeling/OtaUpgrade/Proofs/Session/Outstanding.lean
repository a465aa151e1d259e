import Mathlib
import OtaUpgrade.Proofs.Session.UnexpectedEvents
import OtaUpgrade.Proofs.Session.Timely
import OtaUpgrade.Proofs.Session.Unbroken

/-!
What a session has outstanding, and how often it requests anything. With its guard to itself the
guard says just what the session waits for (`OwnGuard`), so nothing is left on it at the end. Each
request is made once at most: `connectsLeft` and `asksLeft` say how often a session may still make
it, and every event that makes the request uses that up, whoever shares the guard
(`Sound.spent_live`).
-/
namespace OtaUpgrade

/-- What is left once under a condition is left under a weaker one. -/
theorem oneIf_le {p q : Prop} [Decidable p] [Decidable q] (h : p → q) :
    (if p then 1 else 0) ≤ (if q then 1 else 0) := by
  by_cases hp : p
  · rw [if_pos hp, if_pos (h hp)]
  · rw [if_neg hp]
    exact Nat.zero_le _

namespace Trace

theorem Remarks.meshRequests {es : List Effect} (h : Remarks es) : Trace.meshRequests es = [] := by
  refine List.filterMap_eq_nil_iff.mpr fun x hx => ?_
  have hx := h x hx
  cases x with
  | askMesh => cases hx
  | _ => rfl

end Trace

namespace Phase

/-- What a phase leaves of the requests to the mesh core to whoever enters it. -/
def asksLeft (p : Phase) : Nat :=
  if p ≤ .readAppInfo then 1 else 0

theorem asksLeft_anti {p q : Phase} (h : p ≤ q) : q.asksLeft ≤ p.asksLeft :=
  oneIf_le fun hq => Nat.le_trans h hq

end Phase

namespace Session

/-- How often a session may still ask its device to connect. -/
def connectsLeft (s : Session) : Nat :=
  if s.phase = .idle then 1 else 0

/-- How often a session may still ask the mesh core. -/
def asksLeft (s : Session) : Nat :=
  if s.phase < .readAppInfo ∨ s.wait = .appInfo then 1 else 0

/-- What a session with its guard to itself has outstanding after a run, and all that it requested
in it. -/
structure Outstanding (s : Session) (es : List Event) : Prop where
  connection : (s.run es).crash? = none →
    ((s.run es).session.guard.has .connection = true ↔ (s.run es).session.phase = .connect)
  metadata : (s.run es).crash? = none →
    ((s.run es).session.guard.has .componentMetadata = true ↔
      (s.run es).session.wait = .meshMetadata)
  asking : (s.run es).crash? = none →
    (s.run es).session.wait = .meshMetadata → (s.run es).session.phase = .readAppInfo
  connects : (Trace.calls (s.run es).effects).count .connect ≤ 1
  asks : (Trace.meshRequests (s.run es).effects).length ≤ 1
  /-- Only the node behind the mesh is asked about. -/
  addressed : ∀ address ∈ Trace.meshRequests (s.run es).effects,
    ∃ d, s.device = some d ∧ d.route = .meshTunnel ∧ d.meshAddress = some address
  cleared : (s.run es).session.finished = true → (s.run es).session.guard = {}

variable {s r : Session} {e : Event} {p q : Phase} {t : Turn}

/-! ## How often -/

/-- Only the start of an upgrade asks the device to connect. -/
theorem Deed.connects_le {s' : Session} {ds : List Effect} (h : Deed s e s' ds) :
    (Trace.calls ds).count .connect + s'.connectsLeft ≤ s.connectsLeft := by
  have silent (hc : DeviceCall.connect ∉ Trace.calls ds) (hp : s'.phase = .idle → s.phase = .idle) :
      (Trace.calls ds).count .connect + s'.connectsLeft ≤ s.connectsLeft := by
    rw [List.count_eq_zero.mpr hc, Nat.zero_add]
    exact oneIf_le hp
  cases h with
  | connects hs hp _ _ hd =>
    rw [connectsLeft, connectsLeft, hs, hp]
    rcases hd with rfl | rfl <;> decide
  | stays hp _ _ hd =>
    subst hd
    exact silent List.not_mem_nil (hp ▸ id)
  | discovers _ _ hp _ _ hd | notifies _ hp _ _ hd | prepares _ _ hp _ _ hd
  | starts _ _ _ hp _ _ hd | transfers _ _ _ _ _ hp _ _ hd | next _ _ _ _ _ _ hp _ _ hd
  | verifies _ _ _ _ _ _ _ hp _ _ _ hd =>
    subst hd
    refine silent (by simp [Trace.calls, Effect.call?, DeviceCall.command]) ?_
    rw [hp]
    rintro ⟨⟩
  | reads _ _ hp _ _ hd =>
    refine silent ?_ (by rw [hp]; rintro ⟨⟩)
    rcases hd with rfl | rfl <;> simp [Trace.calls, Effect.call?]
  | finishes _ _ hp _ _ hc =>
    refine silent (fun hm => ?_) (by rw [hp]; rintro ⟨⟩)
    cases hc _ hm
  | fails hp _ _ _ hc =>
    refine silent (fun hm => ?_) ?_
    · rcases hc _ hm with hm | hm <;> cases hm
    · rcases hp with hp | hp | ⟨-, hp⟩ <;> rw [hp]
      · rintro ⟨⟩
      · rintro ⟨⟩
      · exact id

theorem asksLeft_of_successor (h : p ∈ s.phase.successors) : p.asksLeft ≤ s.asksLeft := by
  have hlt := Phase.lt_of_mem_successors h
  exact oneIf_le fun hp => .inl (Nat.lt_of_lt_of_le hlt hp)

theorem Halt.asks_le (hh : Halt s p t) :
    (Trace.meshRequests t.effects).length + t.session.asksLeft ≤ p.asksLeft := by
  cases hh with
  | broken =>
    rw [meshRequests_parting]
    exact Nat.le_refl _
  | closed =>
    show (Trace.meshRequests s.ending.effects).length + _ ≤ _
    rw [meshRequests_ending]
    exact Nat.le_refl _
  | _ => exact Nat.le_refl _

/-- Within a phase the right to ask is only ever lost. -/
theorem asksLeft_le (hp : r.phase = s.phase) (hw : r.wait = s.wait ∨ r.wait ≠ .appInfo) :
    r.asksLeft ≤ s.asksLeft := by
  unfold asksLeft
  rw [hp]
  refine oneIf_le fun hr => ?_
  rcases hw with hw | hw
  · exact hw ▸ hr
  · exact hr.imp_right fun h => absurd h hw

theorem Answer.asks_le (ha : Answer s e t) (h : s.Sound) :
    (Trace.meshRequests t.effects).length + t.session.asksLeft ≤ s.asksLeft := by
  have silent (hm : Trace.meshRequests t.effects = []) (hw : t.session.wait = s.wait ∨
      t.session.wait ≠ .appInfo) :
      (Trace.meshRequests t.effects).length + t.session.asksLeft ≤ s.asksLeft := by
    rw [hm, List.length_nil, Nat.zero_add]
    exact asksLeft_le ha.phase_eq hw
  cases ha with
  | rest => exact silent rfl (.inl (s.wait_noting e))
  | closing => exact silent rfl (.inl (wait_recordError _ _))
  | written => exact silent rfl (.inr (by rintro ⟨⟩))
  | overflow => exact silent rfl (.inl rfl)
  | next =>
    refine silent ?_ (.inr (by rintro ⟨⟩))
    rw [Turn.effects_after, Trace.meshRequests_append, s.remarks_chunkReport.meshRequests]
    rfl
  | asks hw =>
    have hp := h.phase_of_appInfo hw
    simp only [asksLeft, stay, cancelTimer, armTimer, hp, hw]
    exact Nat.le_refl 1

theorem Passage.asks_le {entries : List (Phase × Session)} (hp : Passage s e entries t)
    (h : s.Sound) :
    (Trace.meshRequests t.effects).length + t.session.asksLeft ≤ s.asksLeft := by
  induction hp with
  | ended | stale => exact Nat.le_of_eq (Nat.zero_add _)
  | rests ha => exact ha.asks_le h
  | enters hm _ hh =>
    rw [Turn.effects_after, Trace.meshRequests_append, hm.remarks.meshRequests]
    exact Nat.le_trans hh.asks_le (asksLeft_of_successor (hm.edge h))
  | slips hm _ hs _ hh =>
    have hlater := Phase.lt_of_mem_successors hs.edge.1
    rw [Turn.effects_after, Turn.effects_after, Trace.meshRequests_append,
      Trace.meshRequests_append, hm.remarks.meshRequests, hs.remarks.meshRequests]
    calc _ ≤ _ := hh.asks_le
      _ ≤ _ := Phase.asksLeft_anti (Nat.le_of_lt hlater)
      _ ≤ _ := asksLeft_of_successor (hm.edge h)
  | expired hd _ _ ih => exact ih (h.withTimer (h.not_idle_of_due hd) _)

/-- What an event uses up of something that is used up is never had back. -/
theorem Sound.spent_live (left : Session → Nat) (spent : List Effect → Nat)
    (append : ∀ as bs, spent (as ++ bs) = spent as + spent bs)
    (shared : ∀ (s : Session) (guard : Guard), left { s with guard } = left s)
    (told : ∀ {s : Session}, s.Sound → ∀ e : Event,
      spent (s.handle e).effects + left (s.handle e).session ≤ left s)
    (h : s.Sound) (hs : List Happening) :
    spent (s.live hs).effects + left (s.live hs).session ≤ left s := by
  refine Sound.live_between (R := fun s es r => spent es + left r ≤ left s) ?_ ?_ ?_ told h hs
  · intro s
    have hnil := append [] []
    rw [List.append_nil] at hnil
    omega
  · intro s es r guard hle
    rwa [shared s guard] at hle
  · intro s as r bs t hfirst hlater
    rw [append]
    omega

theorem Sound.connects_live (h : s.Sound) (hs : List Happening) :
    (Trace.calls (s.live hs).effects).count .connect + (s.live hs).session.connectsLeft
      ≤ s.connectsLeft := by
  refine Sound.spent_live connectsLeft (fun es => (Trace.calls es).count .connect) ?_
    (fun _ _ => rfl) ?_ h hs
  · intro as bs
    rw [Trace.calls_append, List.count_append]
  · intro s h e
    have hle := (h.deed e).connects_le
    rwa [Trace.calls_dealings] at hle

theorem Sound.asks_live (h : s.Sound) (hs : List Happening) :
    (Trace.meshRequests (s.live hs).effects).length + (s.live hs).session.asksLeft
      ≤ s.asksLeft := by
  refine Sound.spent_live asksLeft (fun es => (Trace.meshRequests es).length) ?_
    (fun _ _ => rfl) (fun h e => (passage_complete h e).asks_le h) h hs
  intro as bs
  rw [Trace.meshRequests_append, List.length_append]

/-! ## Who is asked about -/

theorem nodeAddress?_of_askable? {address : UInt16} (h : s.askable? = some address) :
    s.device.bind Device.nodeAddress? = some address := by
  unfold askable? at h
  split_ifs at h
  exact h

theorem Halt.addressed (hh : Halt s p t) {address : UInt16}
    (hm : address ∈ Trace.meshRequests t.effects) :
    s.device.bind Device.nodeAddress? = some address := by
  cases hh with
  | askMesh _ _ ha =>
    rw [List.mem_singleton.mp hm]
    exact nodeAddress?_of_askable? ha
  | broken =>
    rw [meshRequests_parting] at hm
    cases hm
  | closed =>
    have hm : address ∈ Trace.meshRequests s.ending.effects := hm
    rw [meshRequests_ending] at hm
    cases hm
  | _ => exact absurd hm List.not_mem_nil

theorem Answer.addressed (ha : Answer s e t) {address : UInt16}
    (hm : address ∈ Trace.meshRequests t.effects) :
    s.device.bind Device.nodeAddress? = some address := by
  cases ha with
  | asks _ _ ha =>
    rw [List.mem_singleton.mp hm]
    exact nodeAddress?_of_askable? ha
  | next =>
    rw [Turn.effects_after, Trace.meshRequests_append, s.remarks_chunkReport.meshRequests] at hm
    cases hm
  | _ => exact absurd hm List.not_mem_nil

/-- The mesh core is asked about the node that the device is. -/
theorem Passage.addressed {entries : List (Phase × Session)} (hp : Passage s e entries t)
    {address : UInt16} (hm : address ∈ Trace.meshRequests t.effects) :
    s.device.bind Device.nodeAddress? = some address := by
  induction hp with
  | ended | stale => exact absurd hm List.not_mem_nil
  | rests ha => exact ha.addressed hm
  | enters hmove _ hh =>
    rw [Turn.effects_after, Trace.meshRequests_append, hmove.remarks.meshRequests] at hm
    rw [← hmove.carries.device]
    exact hh.addressed hm
  | slips hmove _ hs _ hh =>
    rw [Turn.effects_after, Turn.effects_after, Trace.meshRequests_append,
      Trace.meshRequests_append, hmove.remarks.meshRequests, hs.remarks.meshRequests] at hm
    rw [← hmove.carries.device, ← hs.carries.device]
    exact hh.addressed hm
  | expired _ _ _ ih => exact ih hm

theorem Sound.addressed_live (h : s.Sound) (hs : List Happening) {address : UInt16}
    (hm : address ∈ Trace.meshRequests (s.live hs).effects) :
    s.device.bind Device.nodeAddress? = some address := by
  -- whoever has a device has had it all along, so the address is that of the first
  have haddressed := Sound.live_between
    (R := fun s es r => (∀ d, r.device = some d → s.device = some d) ∧
      ∀ address ∈ Trace.meshRequests es, s.device.bind Device.nodeAddress? = some address)
    (fun _ => ⟨fun _ hd => hd, List.forall_mem_nil _⟩) (fun _ h => h) ?_
    (fun h e => ⟨fun _ hd => h.device_handle e hd,
      fun _ hm => (passage_complete h e).addressed hm⟩) h hs
  · exact haddressed.2 address hm
  · intro s as r bs t hfirst hlater
    refine ⟨fun d hd => hfirst.1 d (hlater.1 d hd), ?_⟩
    rw [Trace.meshRequests_append, List.forall_mem_append]
    refine ⟨hfirst.2, fun address hm => ?_⟩
    obtain ⟨d, hd, haddress⟩ := Option.bind_eq_some_iff.mp (hlater.2 address hm)
    rw [hfirst.1 d hd]
    exact haddress

/-! ## Runs -/

theorem OwnGuard.run (ho : s.OwnGuard) (h : s.Sound) (es : List Event)
    (hc : (s.run es).crash? = none) : (s.run es).session.Sound ∧ (s.run es).session.OwnGuard :=
  run_invariant (P := fun r => r.Sound ∧ r.OwnGuard)
    (fun e hr hx => ⟨hr.1.handle e hx, hr.2.handle hr.1 e hx⟩) ⟨h, ho⟩ es hc

/-- Whatever a session with its guard to itself is told, the guard says just what the session waits
for, and it never makes a request twice. -/
theorem outstanding_run (config : Config) (mode : Mode) (image : Option Image)
    (device : Option Device) (collaborators : Collaborators) (es : List Event) :
    Outstanding (fresh config mode image device collaborators {}) es := by
  have h := Sound.fresh config mode image device collaborators {}
  have ho : (fresh config mode image device collaborators {}).OwnGuard := rfl
  have hconnects : (fresh config mode image device collaborators {}).connectsLeft = 1 := rfl
  have hasks : (fresh config mode image device collaborators {}).asksLeft = 1 := rfl
  generalize fresh config mode image device collaborators {} = s at *
  constructor
  case connection => exact fun hc => (ho.run h es hc).2.connection_iff
  case metadata => exact fun hc => (ho.run h es hc).2.metadata_iff
  case asking => exact fun hc hw => (ho.run h es hc).1.phase_of_meshMetadata hw
  case connects =>
    have hle := h.connects_live (es.map .event)
    rw [live_map_event] at hle
    omega
  case asks =>
    have hle := h.asks_live (es.map .event)
    rw [live_map_event] at hle
    omega
  case addressed =>
    intro address hm
    rw [← live_map_event] at hm
    obtain ⟨d, hd, haddress⟩ := Option.bind_eq_some_iff.mp (h.addressed_live _ hm)
    refine ⟨d, hd, ?_⟩
    unfold Device.nodeAddress? at haddress
    split at haddress
    · cases haddress
    · next hroute => exact ⟨hroute, haddress⟩
  case cleared =>
    intro hend
    have hc : (s.run es).crash? = none := by
      rw [← live_map_event] at hend ⊢
      exact h.crash?_live _ hend
    obtain ⟨hsound, hown⟩ := ho.run h es hc
    have hp := hsound.finished_iff.mp hend
    exact hown.clear (by rw [hp]; decide) (hsound.wait_ne (by rw [hp]; decide))

end Session
end OtaUpgrade
