import Mathlib
import OtaUpgrade.Manager
import OtaUpgrade.Proofs.Session.Breakdown
import OtaUpgrade.Proofs.Session.Ending

/-!
One upgrade at a time. A manager is asked for upgrades while the sessions that it started are told
things and take them up, in any order. What others see of a session tells truly whether it is
finished, a session that finishes leaves the guard clear, and so a request finds either the one
session that is unfinished or a guard without marks (`Orderly`).
-/
namespace OtaUpgrade

namespace Host

/-- The host, with its session under this guard. -/
def under (h : Host) (guard : Guard) : Host :=
  { h with session := { h.session with guard } }

/-- What the session comes upon next: the oldest event that waits or, with `clock`, the expiry of
its timeout. -/
def facing? (h : Host) (clock : Bool) : Option (Event × Host) :=
  if clock then h.session.expiry?.map (·, h) else h.next?

/-- Lets the session take up one event, if it still can. -/
def takeTurn (h : Host) (clock : Bool) : Host :=
  if h.live then
    match h.facing? clock with
    | some (e, h) => h.handle e
    | none => h
  else h

end Host

namespace Manager

variable {σ : Type} [DeviceSelector σ]

/-- Something that happens to a manager and its sessions, which are numbered from the oldest on. -/
inductive Act (σ : Type) where
  /-- An upgrade is asked for. -/
  | request (selector : σ) (image : Option Image) (mode : Mode)
  /-- A session is told something, which goes to its inbox. -/
  | post (index : Nat) (e : Event)
  /-- A session takes up what it comes upon. -/
  | turn (index : Nat) (clock : Bool)

/-- What becomes of a request: the error by which it is rejected, the manager, and what is left of
the selector. -/
def request (m : Manager) (selector : σ) (image : Option Image) (mode : Mode) :
    Option UpgradeError × Manager × σ :=
  match m.start selector image mode with
  | .error e => (some e, m, selector)
  | .ok (m, selector) => (none, m, selector)

/-- Lets a host do something, under the shared guard. -/
def touch (m : Manager) (index : Nat) (move : Host → Host) : Manager :=
  (m.withSession index fun h => (move h, ())).1

/-- The manager after something happened. -/
def act (m : Manager) : Act σ → Manager
  | .request selector image mode => (m.request selector image mode).2.1
  | .post index e => m.touch index (·.post [e])
  | .turn index clock => m.touch index (·.takeTurn clock)

/-- The manager after all that happened, in order. -/
def actAll (m : Manager) (acts : List (Act σ)) : Manager :=
  acts.foldl act m

/-- An event that a session takes up, and the guard as the session finds it then. -/
structure Encounter where
  index : Nat
  event : Event
  guard : Guard

/-- The encounter that something leads to. -/
def encounter? (m : Manager) : Act σ → Option Encounter
  | .turn index clock => do
    let h ← m.sessions[index]?
    if h.live then (h.facing? clock).map fun x => ⟨index, x.1, m.guard⟩ else none
  | _ => none

/-- The encounters that all this leads to, in order. -/
def encounters (m : Manager) : List (Act σ) → List Encounter
  | [] => []
  | a :: rest => (m.encounter? a).toList ++ encounters (m.act a) rest

end Manager

/-! ## What others see -/

namespace Host

theorem takeTurn_of_not_live {h : Host} (hl : h.live = false) (clock : Bool) :
    h.takeTurn clock = h := by
  rw [takeTurn, hl]
  rfl

theorem takeTurn_of_facing?_none {h : Host} {clock : Bool} (hx : h.facing? clock = none) :
    h.takeTurn clock = h := by
  rw [takeTurn, hx]
  exact ite_self h

/-- What others see of the session is what it is, or what it was before it broke down unfinished. -/
structure Candid (h : Host) : Prop where
  sound : h.crash = none → h.session.Sound
  shown : h.crash = none → h.status = h.session.status
  broken : ∀ c, h.crash = some c →
    h.session.finished = false ∧ h.status.finished = false ∧ h.session.Broke c

/-- A move of a host keeps it candid, does nothing to a session that is finished, and leaves the
guard clear when the session finishes. -/
structure Follows (h h' : Host) : Prop where
  candid : h'.Candid
  final : h.session.finished = true → h'.session = h.session
  clears : h.session.finished = false → h'.session.finished = true → h'.session.guard = {}

variable {h : Host}

theorem status_handle (h : Host) (e : Event) :
    (h.handle e).status
      = if (h.handle e).crash.isSome then h.status else (h.session.handle e).session.status :=
  rfl

theorem live_iff : h.live = true ↔ h.session.finished = false ∧ h.crash = none := by
  simp [live]

section

variable (hc : h.Candid)

include hc

theorem Candid.finished_eq : h.status.finished = h.session.finished := by
  cases hw : h.crash with
  | none =>
    rw [hc.shown hw]
    rfl
  | some c =>
    obtain ⟨hf, hst, -⟩ := hc.broken c hw
    rw [hf, hst]

theorem Candid.under (guard : Guard) : (h.under guard).Candid :=
  ⟨fun hw => (hc.sound hw).withGuard guard, hc.shown, fun c hw => by
    obtain ⟨hf, hst, hb⟩ := hc.broken c hw
    exact ⟨hf, hst, hb.withGuard guard⟩⟩

theorem Candid.handle (hl : h.live = true) (e : Event) : h.Follows (h.handle e) := by
  obtain ⟨hf, hw⟩ := live_iff.mp hl
  have hs := hc.sound hw
  constructor
  case candid =>
    refine ⟨fun hc' => hs.handle e hc', fun hc' => ?_, fun c hc' => ⟨?_, ?_, hs.broke hc'⟩⟩
    · rw [status_handle, hc']
      rfl
    · -- a session that breaks down does not finish
      by_contra hend
      have hnone := hs.crash?_of_finished e (Bool.not_eq_false _ ▸ hend)
      exact absurd (hnone.symm.trans hc') nofun
    · rw [status_handle, hc', Option.isSome_some, if_pos rfl, hc.finished_eq, hf]
  case final =>
    intro hend
    rw [hf] at hend
    cases hend
  case clears => exact fun _ hend => ((hs.endsDuly e).teardown hf hend).2.1

theorem Candid.post (es : List Event) : h.Follows (h.post es) where
  candid := ⟨hc.sound, hc.shown, hc.broken⟩
  final _ := rfl
  clears hf hend := absurd (hf.symm.trans hend) nofun

omit hc in
/-- Whatever a session comes upon, taking it out of the inbox changes nothing else. -/
theorem facing?_eq {clock : Bool} {e : Event} {h' : Host} (hx : h.facing? clock = some (e, h')) :
    ∃ inbox, h' = { h with inbox } := by
  unfold facing? next? at hx
  split at hx
  · obtain ⟨_, -, hx⟩ := Option.map_eq_some_iff.mp hx
    exact ⟨h.inbox, (congrArg Prod.snd hx).symm⟩
  · split at hx
    · cases hx
    · exact ⟨_, (congrArg Prod.snd (Option.some.inj hx)).symm⟩

theorem Candid.takeTurn (clock : Bool) : h.Follows (h.takeTurn clock) := by
  have stays : h.Follows h := ⟨hc, fun _ => rfl, fun hf hend => absurd (hf.symm.trans hend) nofun⟩
  unfold Host.takeTurn
  split
  case isFalse => exact stays
  case isTrue hl =>
    cases hx : h.facing? clock with
    | none => exact stays
    | some x =>
      obtain ⟨e, h'⟩ := x
      obtain ⟨inbox, rfl⟩ := facing?_eq hx
      have hc' : Candid { h with inbox } := ⟨hc.sound, hc.shown, hc.broken⟩
      obtain ⟨hcandid, hfinal, hclears⟩ := hc'.handle hl e
      exact ⟨hcandid, hfinal, hclears⟩

end

end Host

namespace Manager

/-! ## Moves of one host -/

section touch

variable (m : Manager) (index : Nat) (move : Host → Host)

theorem getElem?_touch (i : Nat) :
    (m.touch index move).sessions[i]?
      = if index = i then m.sessions[i]?.map fun h => move (h.under m.guard)
        else m.sessions[i]? := by
  unfold touch withSession
  split
  case isTrue hi =>
    rw [Array.getElem?_set]
    split
    · subst_vars
      rw [Array.getElem?_eq_getElem hi]
      rfl
    · rfl
  case isFalse hi =>
    split
    · subst_vars
      rw [Array.getElem?_eq_none (Nat.le_of_not_lt hi)]
      rfl
    · rfl

@[simp] theorem size_touch : (m.touch index move).sessions.size = m.sessions.size := by
  unfold touch withSession
  split
  · simp
  · rfl

variable {m index}

theorem guard_touch {h : Host} (hi : m.sessions[index]? = some h) :
    (m.touch index move).guard = (move (h.under m.guard)).session.guard := by
  obtain ⟨hlt, rfl⟩ := Array.getElem?_eq_some_iff.mp hi
  unfold touch withSession
  rw [dif_pos hlt]
  rfl

theorem touch_of_none (hi : m.sessions[index]? = none) : m.touch index move = m := by
  unfold touch withSession
  rw [dif_neg (Nat.not_lt.mpr (Array.getElem?_eq_none_iff.mp hi))]

end touch

/-! ## Requests -/

section request

variable {σ : Type} [DeviceSelector σ] {m : Manager} (selector : σ) (image : Option Image)
  (mode : Mode)

theorem request_of_unfinished {h : Host} (hb : m.sessions.back? = some h)
    (hf : h.status.finished = false) :
    m.request selector image mode = (some ⟨h.status.phase, .busy⟩, m, selector) := by
  unfold request start activeStatus?
  simp [hb, hf, Option.filter]

theorem request_of_finished (hb : ∀ h, m.sessions.back? = some h → h.status.finished = true) :
    m.request selector image mode
      = (none,
          { m with
            sessions :=
              m.sessions.push (m.opening (DeviceSelector.select selector).1 image mode) },
          (DeviceSelector.select selector).2) := by
  unfold request start activeStatus?
  cases hx : m.sessions.back? with
  | none => rfl
  | some h => simp [hb h hx, Option.filter]

end request

/-! ## What holds at any time -/

/-- Every session is finished. -/
def AllOver (m : Manager) : Prop :=
  ∀ h ∈ m.sessions, h.session.finished = true

/-- All sessions but the newest are finished, others see truly whether a session is, and the guard
is clear once all are. -/
structure Orderly (m : Manager) : Prop where
  elders : ∀ (i : Nat) (h : Host), m.sessions[i]? = some h → i + 1 < m.sessions.size →
    h.session.finished = true
  candid : ∀ h ∈ m.sessions, h.Candid
  clear : m.AllOver → m.guard = {}

theorem Orderly.new (config : Config) (collaborators : Collaborators) :
    ({ config, collaborators } : Manager).Orderly where
  elders _ _ hi _ := by simp at hi
  candid _ hh := by simp at hh
  clear _ := rfl

theorem unfinished_or_allOver (m : Manager) :
    (∃ (i : Nat) (h : Host), m.sessions[i]? = some h ∧ h.session.finished = false) ∨
      m.AllOver := by
  by_cases hall : m.AllOver
  · exact .inr hall
  · unfold AllOver at hall
    push Not at hall
    obtain ⟨h, hh, hf⟩ := hall
    obtain ⟨i, hi⟩ := Array.mem_iff_getElem?.mp hh
    exact .inl ⟨i, h, hi, Bool.eq_false_iff.mpr hf⟩

section orderly

variable {m : Manager} (hm : m.Orderly)

include hm

/-- An unfinished session is the newest one. -/
theorem Orderly.newest {i : Nat} {h : Host} (hi : m.sessions[i]? = some h)
    (hf : h.session.finished = false) : i + 1 = m.sessions.size := by
  obtain ⟨hlt, -⟩ := Array.getElem?_eq_some_iff.mp hi
  by_contra hne
  rw [hm.elders i h hi (by omega)] at hf
  cases hf

theorem Orderly.back? {i : Nat} {h : Host} (hi : m.sessions[i]? = some h)
    (hf : h.session.finished = false) : m.sessions.back? = some h := by
  rw [Array.back?_eq_getElem?, ← hm.newest hi hf]
  exact hi

/-- No two sessions are unfinished. -/
theorem Orderly.single {i j : Nat} {h k : Host} (hi : m.sessions[i]? = some h)
    (hj : m.sessions[j]? = some k) (hf : h.session.finished = false)
    (hf' : k.session.finished = false) : i = j := by
  have h₁ := hm.newest hi hf
  have h₂ := hm.newest hj hf'
  omega

theorem Orderly.touch (index : Nat) {move : Host → Host}
    (hmove : ∀ h : Host, h.Candid → h.Follows (move h)) : (m.touch index move).Orderly := by
  cases hi : m.sessions[index]? with
  | none =>
    rw [touch_of_none _ hi]
    exact hm
  | some h =>
    have hfollows := hmove _ ((hm.candid h (Array.mem_of_getElem? hi)).under m.guard)
    -- the host that moved, or one of the others
    have either {i : Nat} {k : Host} (hk : (m.touch index move).sessions[i]? = some k) :
        index = i ∧ k = move (h.under m.guard) ∨ m.sessions[i]? = some k := by
      rw [getElem?_touch] at hk
      split at hk
      · subst_vars
        rw [hi] at hk
        exact .inl ⟨rfl, (Option.some.inj hk).symm⟩
      · exact .inr hk
    constructor
    case elders =>
      intro i k hk hlt
      rw [size_touch] at hlt
      rcases either hk with ⟨rfl, rfl⟩ | hk
      · have hf := hm.elders _ h hi hlt
        rw [hfollows.final hf]
        exact hf
      · exact hm.elders i k hk hlt
    case candid =>
      intro k hk
      obtain ⟨i, hk⟩ := Array.mem_iff_getElem?.mp hk
      rcases either hk with ⟨-, rfl⟩ | hk
      · exact hfollows.candid
      · exact hm.candid k (Array.mem_of_getElem? hk)
    case clear =>
      intro hall
      have after {i : Nat} {k : Host} (hk : (m.touch index move).sessions[i]? = some k) :=
        hall k (Array.mem_of_getElem? hk)
      rw [guard_touch move hi]
      cases hf : h.session.finished with
      | false =>
        refine hfollows.clears hf (after (i := index) ?_)
        rw [getElem?_touch, if_pos rfl, hi]
        rfl
      | true =>
        rw [hfollows.final hf]
        refine hm.clear fun k hk => ?_
        obtain ⟨i, hk⟩ := Array.mem_iff_getElem?.mp hk
        by_cases hne : index = i
        · subst hne
          obtain rfl : h = k := Option.some.inj (hi.symm.trans hk)
          exact hf
        · refine after (i := i) ?_
          rw [getElem?_touch, if_neg hne]
          exact hk

variable {σ : Type} [DeviceSelector σ] (selector : σ) (image : Option Image) (mode : Mode)

theorem Orderly.rejects {i : Nat} {h : Host} (hi : m.sessions[i]? = some h)
    (hf : h.session.finished = false) :
    m.request selector image mode = (some ⟨h.status.phase, .busy⟩, m, selector) :=
  request_of_unfinished selector image mode (hm.back? hi hf)
    ((hm.candid h (Array.mem_of_getElem? hi)).finished_eq.trans hf)

/-- A session that handles an event has not published yet what has become of it and of the guard. -/
theorem Orderly.rejects_amid {i : Nat} {h : Host} (hi : m.sessions[i]? = some h)
    (hf : h.session.finished = false) (session : Session) (guard : Guard) :
    ({ m with guard, sessions := m.sessions.setIfInBounds i { h with session } } : Manager).request
        selector image mode
      = (some ⟨h.status.phase, .busy⟩,
          { m with guard, sessions := m.sessions.setIfInBounds i { h with session } }, selector) := by
  have hlast := hm.newest hi hf
  have hst := (hm.candid h (Array.mem_of_getElem? hi)).finished_eq.trans hf
  refine request_of_unfinished selector image mode (h := { h with session }) ?_ hst
  rw [Array.back?_eq_getElem?]
  simp [← hlast]

theorem Orderly.accepts (hall : m.AllOver) :
    m.request selector image mode
      = (none,
          { m with
            sessions :=
              m.sessions.push (m.opening (DeviceSelector.select selector).1 image mode) },
          (DeviceSelector.select selector).2) := by
  refine request_of_finished selector image mode fun h hb => ?_
  have hh : h ∈ m.sessions := Array.mem_of_back? hb
  rw [(hm.candid h hh).finished_eq]
  exact hall h hh

theorem Orderly.request : (m.request selector image mode).2.1.Orderly := by
  rcases m.unfinished_or_allOver with ⟨i, h, hi, hf⟩ | hall
  · rw [hm.rejects selector image mode hi hf]
    exact hm
  · rw [hm.accepts selector image mode hall]
    constructor
    case elders =>
      intro i h hi hlt
      rw [Array.size_push] at hlt
      rw [Array.getElem?_push, if_neg (by omega)] at hi
      exact hall h (Array.mem_of_getElem? hi)
    case candid =>
      intro h hh
      rcases Array.mem_push.mp hh with hh | rfl
      · exact hm.candid h hh
      · exact ⟨fun _ => .fresh _ _ _ _ _ _, fun _ => rfl, nofun⟩
    case clear => exact fun _ => hm.clear hall

theorem Orderly.act (a : Act σ) : (m.act a).Orderly := by
  cases a with
  | request selector image mode => exact hm.request selector image mode
  | post index e => exact hm.touch index fun h hc => hc.post [e]
  | turn index clock => exact hm.touch index fun h hc => hc.takeTurn clock

theorem Orderly.actAll (acts : List (Act σ)) : (m.actAll acts).Orderly := by
  induction acts generalizing m with
  | nil => exact hm
  | cons a acts ih => exact ih (hm.act a)

end orderly

end Manager

/-! ## What a session comes upon first -/

namespace Host

/-- The session has not begun, and will come upon the request to begin. -/
structure Unbegun (h : Host) : Prop where
  unfinished : h.session.finished = false
  unarmed : h.session.timer.armed = none
  waiting : h.inbox.waiting.head? = some .start

variable {h : Host} (hu : h.Unbegun)

include hu

theorem Unbegun.under (guard : Guard) : (h.under guard).Unbegun :=
  ⟨hu.unfinished, hu.unarmed, hu.waiting⟩

theorem Unbegun.post (e : Event) : (h.post [e]).Unbegun := by
  refine ⟨hu.unfinished, hu.unarmed, ?_⟩
  show (h.inbox.post e).waiting.head? = some .start
  unfold Inbox.post
  split
  · exact hu.waiting
  · simp [hu.waiting]

/-- As long as it has not begun, no timeout can expire. -/
theorem Unbegun.facing? (clock : Bool) :
    (h.facing? clock).map Prod.fst = if clock then none else some .start := by
  unfold Host.facing? Host.next? Session.expiry?
  cases clock with
  | true => simp [hu.unarmed]
  | false =>
    have hw := hu.waiting
    cases hx : h.inbox.waiting with
    | nil => simp [hx] at hw
    | cons e rest => simpa [hx] using hw

end Host

namespace Manager

/-- The session with this number has come upon nothing yet, if there is one already, and the guard
is clear for it. -/
def Unmet (m : Manager) (index : Nat) : Prop :=
  m.sessions.size ≤ index ∨
    ∃ h, m.sessions[index]? = some h ∧ h.Unbegun ∧ m.guard = {}

theorem unbegun_opening (m : Manager) (device : Option Device) (image : Option Image)
    (mode : Mode) : (m.opening device image mode).Unbegun :=
  ⟨rfl, rfl, rfl⟩

/-- The session with this number comes upon the request to begin, under a clear guard. -/
structure Encounter.Begins (x : Encounter) (index : Nat) : Prop where
  index : x.index = index
  event : x.event = .start
  guard : x.guard = {}

/-- The guard stays as it is if the host that moves leaves it so. -/
theorem guard_touch_of_same {m : Manager} {index : Nat} {move : Host → Host}
    (hmove : ∀ h, m.sessions[index]? = some h →
      (move (h.under m.guard)).session.guard = m.guard) :
    (m.touch index move).guard = m.guard := by
  cases hi : m.sessions[index]? with
  | none => rw [touch_of_none _ hi]
  | some h => rw [guard_touch move hi, hmove h hi]

section encounter

variable {σ : Type} {m : Manager} {i : Nat} {h : Host} (hi : m.sessions[i]? = some h)

include hi

omit hi in
theorem index_of_encounter? {clock : Bool} {x : Encounter}
    (hx : m.encounter? (.turn i clock : Act σ) = some x) : x.index = i := by
  unfold encounter? at hx
  cases hi : m.sessions[i]? with
  | none => simp [hi] at hx
  | some h =>
    simp only [hi, Option.bind_eq_bind, Option.bind_some] at hx
    split at hx
    · obtain ⟨y, -, rfl⟩ := Option.map_eq_some_iff.mp hx
      rfl
    · cases hx

theorem encounter?_of_not_live (hl : h.live = false) (clock : Bool) :
    m.encounter? (.turn i clock : Act σ) = none := by
  simp [encounter?, hi, hl]

theorem encounter?_of_live (hl : h.live = true) (clock : Bool) :
    m.encounter? (.turn i clock : Act σ) = (h.facing? clock).map fun x => ⟨i, x.1, m.guard⟩ := by
  simp [encounter?, hi, hl]

end encounter

section unmet

variable {m : Manager} {i : Nat} (hu : m.Unmet i)

include hu

/-- Whatever another host does, as long as it leaves the guard as it is. -/
theorem Unmet.touch_of_ne {index : Nat} (hne : index ≠ i) {move : Host → Host}
    (hg : (m.touch index move).guard = m.guard) : (m.touch index move).Unmet i := by
  rcases hu with hsize | ⟨h, hi, hb, hclear⟩
  · exact .inl (by simpa using hsize)
  · refine .inr ⟨h, ?_, hb, hg.trans hclear⟩
    rw [getElem?_touch, if_neg hne, hi]

/-- Whatever the session's own host does, as long as the session does not begin. -/
theorem Unmet.touch {move : Host → Host}
    (hmove : ∀ h : Host, h.Unbegun → (move h).Unbegun ∧ (move h).session.guard = h.session.guard) :
    (m.touch i move).Unmet i := by
  rcases hu with hsize | ⟨h, hi, hb, hclear⟩
  · exact .inl (by simpa using hsize)
  · obtain ⟨hb', hg⟩ := hmove _ (hb.under m.guard)
    refine .inr ⟨move (h.under m.guard), ?_, hb', ?_⟩
    · rw [getElem?_touch, if_pos rfl, hi]
      rfl
    · rw [guard_touch move hi, hg]
      exact hclear

variable {σ : Type} [DeviceSelector σ]

theorem Unmet.post (index : Nat) (e : Event) : (m.act (.post index e : Act σ)).Unmet i := by
  by_cases hne : index = i
  · subst hne
    exact hu.touch fun h hb => ⟨hb.post e, rfl⟩
  · exact hu.touch_of_ne hne (guard_touch_of_same fun _ _ => rfl)

variable (hm : m.Orderly)

include hm

theorem Unmet.request (selector : σ) (image : Option Image) (mode : Mode) :
    (m.request selector image mode).2.1.Unmet i := by
  rcases m.unfinished_or_allOver with ⟨j, k, hj, hf⟩ | hall
  · rw [hm.rejects selector image mode hj hf]
    exact hu
  · rw [hm.accepts selector image mode hall]
    have hsize : m.sessions.size ≤ i := by
      -- a session that has not begun is not finished
      rcases hu with hsize | ⟨h, hi, hb, -⟩
      · exact hsize
      · have hend := hall h (Array.mem_of_getElem? hi)
        rw [hb.unfinished] at hend
        cases hend
    by_cases hnew : m.sessions.size = i
    · subst hnew
      exact .inr ⟨_, Array.getElem?_push_size, m.unbegun_opening _ image mode, hm.clear hall⟩
    · refine .inl ?_
      rw [Array.size_push]
      omega

/-- A turn of another session. There is none to take as long as this one has not begun. -/
theorem Unmet.turn_of_ne {index : Nat} (hne : index ≠ i) (clock : Bool) :
    (m.act (.turn index clock : Act σ)).Unmet i := by
  rcases hu with hsize | ⟨h, hi, hb, hclear⟩
  · exact .inl (by simpa [Manager.act] using hsize)
  · refine Unmet.touch_of_ne (.inr ⟨h, hi, hb, hclear⟩) hne (guard_touch_of_same fun k hk => ?_)
    have hend : k.session.finished = true := by
      by_contra hf
      exact hne (hm.single hk hi (Bool.eq_false_iff.mpr hf) hb.unfinished)
    have hl : (k.under m.guard).live = false := by simp [Host.live, Host.under, hend]
    rw [Host.takeTurn_of_not_live hl]
    rfl

omit hm in
/-- A turn of the session itself, which begins by it or does nothing. -/
theorem Unmet.turn (clock : Bool) :
    (∃ x, m.encounter? (.turn i clock : Act σ) = some x ∧ x.Begins i) ∨
      (m.act (.turn i clock : Act σ)).Unmet i ∧
        m.encounter? (.turn i clock : Act σ) = none := by
  rcases hu with hsize | ⟨h, hi, hb, hclear⟩
  · refine .inr ⟨.inl (by simpa [Manager.act] using hsize), ?_⟩
    simp [encounter?, hsize]
  · -- doing nothing, the host stays as it is
    have rests (hx : (h.under m.guard).takeTurn clock = h.under m.guard) :
        (m.act (.turn i clock : Act σ)).Unmet i := by
      refine .inr ⟨h.under m.guard, ?_, hb.under _, ?_⟩
      · show (m.touch i _).sessions[i]? = _
        rw [getElem?_touch, if_pos rfl, hi, Option.map_some, hx]
      · refine (guard_touch _ hi).trans ?_
        rw [hx]
        exact hclear
    cases hl : h.live with
    | false =>
      have hlu : (h.under m.guard).live = false := hl
      exact .inr ⟨rests (Host.takeTurn_of_not_live hlu clock), encounter?_of_not_live hi hl clock⟩
    | true =>
      have hx := hb.facing? clock
      rw [encounter?_of_live hi hl]
      cases clock with
      | true =>
        have hnone := Option.map_eq_none_iff.mp hx
        have hnoneu := Option.map_eq_none_iff.mp ((hb.under m.guard).facing? true)
        exact .inr ⟨rests (Host.takeTurn_of_facing?_none hnoneu), by rw [hnone]; rfl⟩
      | false =>
        obtain ⟨x, hsome, hstart⟩ := Option.map_eq_some_iff.mp hx
        exact .inl ⟨⟨i, x.1, m.guard⟩, by rw [hsome]; rfl, rfl, hstart, hclear⟩

/-- The first event that a session takes up is the request to begin. -/
theorem Unmet.act (a : Act σ) :
    (∃ x, m.encounter? a = some x ∧ x.Begins i) ∨
      (m.act a).Unmet i ∧ ∀ x, m.encounter? a = some x → x.index ≠ i := by
  cases a with
  | request selector image mode => exact .inr ⟨hu.request hm selector image mode, nofun⟩
  | post index e => exact .inr ⟨hu.post index e, nofun⟩
  | turn index clock =>
    by_cases hne : index = i
    · subst hne
      rcases hu.turn (σ := σ) clock with hx | ⟨hu', hx⟩
      · exact .inl hx
      · exact .inr ⟨hu', fun x hx' => absurd (hx.symm.trans hx') nofun⟩
    · refine .inr ⟨hu.turn_of_ne hm hne clock, fun x hx => ?_⟩
      rw [index_of_encounter? hx]
      exact hne

theorem Unmet.first (acts : List (Act σ)) {x : Encounter}
    (hx : (m.encounters acts).find? (·.index == i) = some x) : x.Begins i := by
  induction acts generalizing m with
  | nil => cases hx
  | cons a acts ih =>
    rw [encounters, List.find?_append] at hx
    rcases hu.act hm a with ⟨y, hy, hbegins⟩ | ⟨hu', hother⟩
    · have hyi : (y.index == i) = true := beq_iff_eq.mpr hbegins.index
      rw [hy] at hx
      simp [hyi] at hx
      exact hx ▸ hbegins
    · refine ih hu' (hm.act a) ?_
      cases hy : m.encounter? a with
      | none => simpa [hy] using hx
      | some y => simpa [hy, List.find?_cons, hother y hy] using hx

end unmet

/-! ## One upgrade at a time -/

/-- What a manager keeps to whatever happened, with these encounters of its sessions so far. -/
structure OneAtATime (σ : Type) [DeviceSelector σ] (m : Manager) (met : List Encounter) : Prop where
  single : ∀ (i j : Nat) (h k : Host), m.sessions[i]? = some h → m.sessions[j]? = some k →
    h.session.finished = false → k.session.finished = false → i = j
  /-- What others see of a session is what it is, or what it was before it broke down. -/
  shown : ∀ h ∈ m.sessions, h.status.finished = h.session.finished ∧
    (h.crash = none → h.status = h.session.status)
  /-- As long as a session is unfinished a request is rejected, with the phase that others see. The
  selector is not asked, and everything stays as it is. -/
  rejects : ∀ h ∈ m.sessions, h.session.finished = false →
    ∀ (selector : σ) (image : Option Image) (mode : Mode),
      m.request selector image mode = (some ⟨h.status.phase, .busy⟩, m, selector)
  /-- So is a request while such a session handles an event, whatever has become of the session and
  of the guard by then. -/
  amid : ∀ (i : Nat) (h : Host), m.sessions[i]? = some h → h.session.finished = false →
    ∀ (session : Session) (guard : Guard) (selector : σ) (image : Option Image) (mode : Mode),
      let amid : Manager :=
        { m with guard, sessions := m.sessions.setIfInBounds i { h with session } }
      amid.request selector image mode = (some ⟨h.status.phase, .busy⟩, amid, selector)
  /-- Otherwise a session is started for the device that the selector supplies, and the guard is
  clear. The session has not begun, and the request to begin is the first thing in its inbox. -/
  accepts : (∀ h ∈ m.sessions, h.session.finished = true) →
    m.guard = {} ∧ ∀ (selector : σ) (image : Option Image) (mode : Mode),
      m.request selector image mode
        = (none,
            { m with
              sessions :=
                m.sessions.push (m.opening (DeviceSelector.select selector).1 image mode) },
            (DeviceSelector.select selector).2) ∧
      (m.opening (DeviceSelector.select selector).1 image mode).Unbegun
  /-- The first event that a session takes up is the request to begin, and it finds the guard
  clear. -/
  begins : ∀ (i : Nat) (x : Encounter), met.find? (·.index == i) = some x →
    x.event = .start ∧ x.guard = {}

/-- However requests and sessions follow each other, the manager has one upgrade going at a time. -/
theorem one_at_a_time {σ : Type} [DeviceSelector σ] (config : Config)
    (collaborators : Collaborators) (acts : List (Act σ)) :
    (({ config, collaborators } : Manager).actAll acts).OneAtATime σ
      (({ config, collaborators } : Manager).encounters acts) := by
  have hnew := Orderly.new config collaborators
  have hm := hnew.actAll acts
  constructor
  case single => exact fun i j h k hi hj hf hf' => hm.single hi hj hf hf'
  case shown => exact fun h hh => ⟨(hm.candid h hh).finished_eq, (hm.candid h hh).shown⟩
  case rejects =>
    intro h hh hf selector image mode
    obtain ⟨i, hi⟩ := Array.mem_iff_getElem?.mp hh
    exact hm.rejects selector image mode hi hf
  case amid =>
    intro i h hi hf session guard selector image mode
    exact hm.rejects_amid selector image mode hi hf session guard
  case accepts =>
    intro hall
    refine ⟨hm.clear hall, fun selector image mode => ⟨hm.accepts selector image mode hall, ?_⟩⟩
    exact unbegun_opening _ _ image mode
  case begins =>
    intro i x hx
    have hbegins := Unmet.first (.inl (Nat.zero_le i)) hnew acts hx
    exact ⟨hbegins.event, hbegins.guard⟩

end Manager
end OtaUpgrade
