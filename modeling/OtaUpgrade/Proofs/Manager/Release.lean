import Mathlib
import OtaUpgrade.Proofs.Manager.OneAtATime

/-!
Whether a session that is over frees its manager. One that came to its end does. One that broke down
did not publish an end, so the manager takes it for unfinished and rejects every request from then
on. A session breaks down in a call to its device or over the size of a chunk; a driver that breaks
down outside of its calls is left out (`Device.breaksOn`).
-/
namespace OtaUpgrade.Manager

variable {σ : Type} [DeviceSelector σ] {m : Manager}

theorem busy_eq (hm : m.Orderly) {h : Host} (hb : m.sessions.back? = some h) :
    m.busy = !h.session.finished := by
  have hc := hm.candid h (Array.mem_of_back? hb)
  simp [busy, activeStatus?, hb, hc.finished_eq]

/-- A session that can take up nothing any more is finished, unless it broke down. -/
theorem finished_iff_of_not_live {h : Host} (hc : h.Candid) (hl : h.live = false) :
    h.session.finished = true ↔ h.crash = none := by
  constructor
  · intro hf
    by_contra hw
    obtain ⟨c, hw⟩ := Option.ne_none_iff_exists'.mp hw
    rw [(hc.broken c hw).1] at hf
    cases hf
  · intro hw
    by_contra hf
    rw [Host.live_iff.mpr ⟨Bool.eq_false_iff.mpr hf, hw⟩] at hl
    cases hl

/-! ## A session that broke down -/

/-- The session with this number broke down. -/
def Broken (m : Manager) (index : Nat) : Prop :=
  ∃ h, m.sessions[index]? = some h ∧ h.crash.isSome = true

theorem Broken.touch {i : Nat} (hb : m.Broken i) (index : Nat) {move : Host → Host}
    (hmove : ∀ h : Host, h.crash.isSome = true → (move h).crash = h.crash) :
    (m.touch index move).Broken i := by
  obtain ⟨h, hi, hw⟩ := hb
  by_cases hne : index = i
  · subst hne
    refine ⟨move (h.under m.guard), ?_, ?_⟩
    · rw [getElem?_touch, if_pos rfl, hi]
      rfl
    · rw [hmove (h.under m.guard) hw]
      exact hw
  · refine ⟨h, ?_, hw⟩
    rw [getElem?_touch, if_neg hne, hi]

theorem Broken.unfinished (hm : m.Orderly) {i : Nat} {h : Host} (hi : m.sessions[i]? = some h)
    (hw : h.crash.isSome = true) : h.session.finished = false := by
  obtain ⟨c, hw⟩ := Option.isSome_iff_exists.mp hw
  exact ((hm.candid h (Array.mem_of_getElem? hi)).broken c hw).1

theorem Broken.act (hm : m.Orderly) {i : Nat} (hb : m.Broken i) (a : Act σ) :
    (m.act a).Broken i := by
  cases a with
  | request selector image mode =>
    obtain ⟨h, hi, hw⟩ := hb
    show (m.request selector image mode).2.1.Broken i
    rw [hm.rejects selector image mode hi (Broken.unfinished hm hi hw)]
    exact ⟨h, hi, hw⟩
  | post index e => exact hb.touch index fun _ _ => rfl
  | turn index clock =>
    refine hb.touch index fun h hw => ?_
    have hl : h.live = false := by
      rw [Host.live, Option.isNone_eq_false_iff.mpr hw, Bool.and_false]
    rw [Host.takeTurn_of_not_live hl]

theorem Broken.busy_actAll (hm : m.Orderly) {i : Nat} (hb : m.Broken i) (acts : List (Act σ)) :
    (m.actAll acts).busy = true := by
  induction acts generalizing m with
  | nil =>
    obtain ⟨h, hi, hw⟩ := hb
    have hf := Broken.unfinished hm hi hw
    show m.busy = true
    rw [busy_eq hm (hm.back? hi hf), hf]
    rfl
  | cons a acts ih => exact ih (hm.act a) (hb.act hm a)

/-! ## What a session leaves behind -/

/-- How the newest session leaves its manager once it is over. -/
structure Leaves (σ : Type) [DeviceSelector σ] (m : Manager) (h : Host) : Prop where
  busy_iff : m.busy = true ↔ h.crash.isSome = true
  accepted_iff : ∀ (selector : σ) (image : Option Image) (mode : Mode),
    (m.request selector image mode).1 = none ↔ h.crash = none
  /-- Nothing that happens afterwards frees the manager of a session that broke down. -/
  forever : h.crash.isSome = true → ∀ more : List (Act σ), (m.actAll more).busy = true
  /-- Only the device's driver breaks a session down, in one of the calls in which it does, or a size
  of its link that does not fit. -/
  broke : ∀ c, h.crash = some c → h.session.Broke c

/-- Once the newest session is over, its manager is free exactly if the session has not broken
down. -/
theorem free_iff_not_broken (config : Config) (collaborators : Collaborators)
    (acts : List (Act σ)) {h : Host}
    (hb : (({ config, collaborators } : Manager).actAll acts).sessions.back? = some h)
    (hl : h.live = false) :
    (({ config, collaborators } : Manager).actAll acts).Leaves σ h := by
  have hm := (Orderly.new config collaborators).actAll acts
  generalize ({ config, collaborators } : Manager).actAll acts = m at hb hm
  have hh : h ∈ m.sessions := Array.mem_of_back? hb
  have hend := finished_iff_of_not_live (hm.candid h hh) hl
  obtain ⟨i, hi⟩ := Array.mem_iff_getElem?.mp hh
  constructor
  case busy_iff =>
    rw [busy_eq hm hb, Option.isSome_iff_ne_none, Ne, ← hend]
    simp
  case accepted_iff =>
    intro selector image mode
    rw [← hend]
    cases hf : h.session.finished with
    | false => simp [hm.rejects selector image mode hi hf]
    | true =>
      have hst := (hm.candid h hh).finished_eq.trans hf
      rw [request_of_finished selector image mode fun k hk => ?_]
      · simp
      · rw [← Option.some.inj (hb.symm.trans hk)]
        exact hst
  case forever => exact fun hw more => Broken.busy_actAll hm ⟨h, hi, hw⟩ more
  case broke => exact fun c hw => ((hm.candid h hh).broken c hw).2.2

/-- A device whose driver breaks down when it is asked to connect. -/
def breaking : Selector :=
  { device := some { name := "node", breaksOn := [.connect] } }

/-- An upgrade of one byte, for the device that the selector supplies, takes up the request to
begin. -/
def begin (selector : Selector) : List (Act Selector) :=
  [.request selector (some ⟨#[1], by decide, by decide⟩) .direct, .turn 0 false]

theorem free_without_device :
    ∃ h, (({} : Manager).actAll (begin {})).sessions.back? = some h ∧ h.live = false ∧
      (({} : Manager).actAll (begin {})).Leaves Selector h := by
  have hb : (({} : Manager).actAll (begin {})).sessions.back?.map Host.live = some false := by
    decide
  obtain ⟨h, hh, hl⟩ := Option.map_eq_some_iff.mp hb
  exact ⟨h, hh, hl, free_iff_not_broken {} {} (begin {}) hh hl⟩

/-- The session is over, and the manager is still busy with it. -/
theorem busy_after_breakdown :
    (({} : Manager).actAll (begin breaking)).sessions.back?.map Host.live = some false ∧
      (({} : Manager).actAll (begin breaking)).busy = true ∧
      ((({} : Manager).actAll (begin breaking)).request breaking none .direct).1
        = some ⟨.idle, .busy⟩ := by
  decide

end OtaUpgrade.Manager
