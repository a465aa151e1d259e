import Mathlib
import OtaUpgrade.Proofs.Session.Advancing
import OtaUpgrade.Proofs.Session.FirstError
import OtaUpgrade.Proofs.Session.Ledger

/-!
Reports that carry an error. Two of them are still taken for good news: the link that is up with an
error, and the granting status that an indication brings with an error. `success_despite_error_iff`
says that these, and the device that falls silent once it was told to verify, are all.
-/
namespace OtaUpgrade

/-- The error that a report carries. -/
def Event.error? : Event → Option LinkError
  | .connection _ error | .service _ error | .notifications _ error | .value _ _ error => error
  | .written _ (.failed error) => some error
  | _ => none

namespace Event

variable {e : Event}

theorem ne_timeout_of_error (hx : e.error?.isSome = true) (id : Nat) : e ≠ .timeout id := by
  rintro rfl
  cases hx

/-- An error never acknowledges a chunk. -/
theorem acknowledges_of_error (hx : e.error?.isSome = true) : e.acknowledges = false := by
  cases e with
  | written channel result =>
    cases result with
    | ok => cases hx
    | failed => cases channel <;> rfl
  | _ => rfl

/-- Success comes with an error only as an indication. -/
theorem eq_of_grants_of_error (hg : e.grants = true) (hx : e.error?.isSome = true) :
    ∃ error, e = .value .controlPoint (some [0]) (some error) := by
  obtain rfl | ⟨error, rfl⟩ := e.eq_of_grants hg
  · cases hx
  · obtain ⟨x, rfl⟩ := Option.isSome_iff_exists.mp hx
    exact ⟨x, rfl⟩

end Event

namespace Phase

/-- Only a step that succeeded leads from the one phase to the other. An upgrade ends from
verification in one way, so there its error decides. -/
def succeeds : Phase → Phase → Bool
  | connect, serviceDiscover | serviceDiscover, readAppInfo => true
  | enableNotification, prepareForDownload => true
  | prepareForDownload, startDownload | startDownload, dataTransfer => true
  | verify, complete => true
  | _, _ => false

end Phase

namespace Session

/-- The transitions over an event, in order. -/
def transitions (s : Session) (e : Event) : List (Phase × Phase) :=
  let entered := (s.entries e).map Prod.fst
  (s.phase :: entered).zip entered

/-- The ways in which an event counts as success. -/
inductive Succeeds (s : Session) (e : Event) : Prop where
  | advances {p q : Phase} (ht : (p, q) ∈ s.transitions e) (hs : p.succeeds q = true)
      (he : q = .complete → (s.handle e).session.error = none) : Succeeds s e
  | acknowledges (ho : s.transfer.offset < (s.handle e).session.transfer.offset) : Succeeds s e

/-- The reports whose error nobody looks at. -/
inductive Overlooks (s : Session) : Event → Prop where
  | connected {d : Device} {size : Nat} {error : LinkError} (hp : s.phase = .connect)
      (hd : s.device = some d) (hs : s.config.chunkSizeFor? d.mtu d.overhead = some size)
      (pos : 0 < size) : Overlooks s (.connection true (some error))
  | granted {error : LinkError} (hp : s.phase = .prepareForDownload ∨ s.phase = .startDownload) :
      Overlooks s (.value .controlPoint (some [0]) (some error))
  | verified {error : LinkError} (hp : s.phase = .verify) (he : s.error = none) :
      Overlooks s (.value .controlPoint (some [0]) (some error))

/-- The report that the link broke while a device that was told to verify is waited for. -/
inductive Reboots (s : Session) : Event → Prop where
  | silent {error : LinkError} (hp : s.phase = .verify) (hw : s.wait = .response)
      (ht : s.timer.armed.isSome = true) (he : s.error = none) :
      Reboots s (.connection false (some error))

/-! ## Transitions -/

section transitions

variable {s r s' : Session} {p q : Phase} {e : Event} {t : Turn} {es : List Effect}

/-- Slipping through a phase is no success. -/
theorem Slip.succeeds_eq (h : Slip s p q r t) : p.succeeds q = false := by
  cases h <;> rfl

/-- Failing is no success. -/
theorem Failure.succeeds_eq {cause : Cause} (ha : Failure s e s' cause p) :
    s.phase.succeeds p = false := by
  cases ha with
  | disconnected =>
    cases hp : s.phase <;> rfl
  | unwritten | stoppedDownload => cases s.phase <;> rfl
  | mtu hp | unconnected hp | unsupported hp | silent hp | unprepared hp | unstarted hp
  | unverified hp | chunk hp | stopped hp =>
    rw [hp]
    rfl

variable (h : s.Sound)

include h

/-- Within one event every transition is the move out of the phase or slips on from there. -/
theorem Sound.transition_cases (hn : ∀ id, e ≠ .timeout id) (ht : (p, q) ∈ s.transitions e) :
    (p = s.phase ∧ ∃ r t, Move s e q r t) ∨ ∃ s r t, Slip s p q r t := by
  have hp := passage_complete h e
  unfold transitions at ht
  generalize s.entries e = entries at hp ht
  generalize s.handle e = t at hp
  cases hp with
  | ended | stale | rests => cases ht
  | enters hm =>
    cases List.mem_singleton.mp ht
    exact .inl ⟨rfl, _, _, hm⟩
  | slips hm _ hs =>
    rcases List.mem_pair.mp ht with hx | hx
    · cases hx
      exact .inl ⟨rfl, _, _, hm⟩
    · cases hx
      exact .inr ⟨_, _, _, hs⟩
  | expired => exact absurd rfl (hn _)

/-- An event that takes an upgrade on makes the transition. -/
theorem Advance.transition (hf : s.finished = false) (ha : Advance s e s' es p) :
    (s.phase, p) ∈ s.transitions e := by
  have hentries : s.entries e = (p, s') :: passing (s'.enter p) := by
    rw [show s.entries e = passing (s.dispatch e) from rfl,
      dispatch_of_unfinished hf ha.ne_timeout, ha.respond h, passing_after, passing_moveTo]
  rw [transitions, hentries]
  exact List.mem_cons_self

/-! ## Errors -/

/-- An error is heeded wherever success is concluded, but for these. -/
theorem Advance.heedless (ha : Advance s e s' es p) (hx : e.error?.isSome = true)
    (hs : s.phase.succeeds p = true) (he : p = .complete → s.error = none) :
    s.Overlooks e ∨ s.Reboots e := by
  cases ha with
  | start | discovered | identified | notifying | transferred => cases hx
  | @connected d size error hp hd hsize pos =>
    obtain ⟨x, rfl⟩ := Option.isSome_iff_exists.mp hx
    exact .inl (.connected hp hd hsize pos)
  | informed hw | uninformed hw =>
    rw [h.phase_of_appInfo hw] at hs
    cases hs
  | prepared hp hg =>
    obtain ⟨x, rfl⟩ := Event.eq_of_grants_of_error hg hx
    exact .inl (.granted (.inl hp))
  | started hp hg =>
    obtain ⟨x, rfl⟩ := Event.eq_of_grants_of_error hg hx
    exact .inl (.granted (.inr hp))
  | verified hp hg =>
    obtain ⟨x, rfl⟩ := Event.eq_of_grants_of_error hg hx
    exact .inl (.verified hp (he rfl))
  | @rebooted error hp hw ht =>
    obtain ⟨x, rfl⟩ := Option.isSome_iff_exists.mp hx
    exact .inr (.silent hp hw ht (he rfl))
  | gaveUp hp =>
    rw [hp] at hs
    cases hs

/-- A report with an error that counts as success is overlooked, or the device has rebooted. -/
theorem Sound.heedless_of_succeeds (hx : e.error?.isSome = true) (hs : s.Succeeds e) :
    s.Overlooks e ∨ s.Reboots e := by
  cases hs with
  | acknowledges ho =>
    rw [h.offset_unmoved (by simp [Event.acknowledges_of_error hx])] at ho
    exact absurd ho (Nat.lt_irrefl _)
  | @advances p q ht hs he =>
    rcases h.transition_cases (Event.ne_timeout_of_error hx) ht with
      ⟨rfl, r, t, hm⟩ | ⟨_, _, _, hslip⟩
    · cases hm with
      | failure ha => exact absurd hs (by simp [ha.succeeds_eq])
      | advance ha =>
        -- an error that had been recorded would have stayed
        refine ha.heedless h hx hs fun hq => ?_
        have hnone := he hq
        rw [h.error_handle e, Option.or_eq_none_iff] at hnone
        exact hnone.1
    · exact absurd hs (by simp [hslip.succeeds_eq])

/-- An event that takes an upgrade on by a step that succeeded counts as success. -/
theorem Advance.success (ha : Advance s e s' es p) (hs : s.phase.succeeds p = true)
    (he : p = .complete → s.error = none) : s.Succeeds e := by
  have hc : s.phase ≠ .complete := by
    intro hc
    rw [hc] at hs
    cases p <;> cases hs
  have hf := h.unfinished hc
  refine .advances (ha.transition h hf) hs fun hp => ?_
  subst hp
  rw [ha.handle h hf, Turn.session_after, (ha.poised h hf).books_complete.2.2, ha.error_eq.1]
  exact he rfl

/-- Whatever is overlooked counts as success. -/
theorem Overlooks.success (ho : s.Overlooks e) : s.Succeeds e := by
  cases ho with
  | connected hp hd hsize pos =>
    exact (Advance.connected hp hd hsize pos).success h (by rw [hp]; rfl) nofun
  | granted hp =>
    rcases hp with hp | hp
    · exact (Advance.prepared hp rfl).success h (by rw [hp]; rfl) nofun
    · exact (Advance.started hp rfl).success h (by rw [hp]; rfl) nofun
  | verified hp he =>
    exact (Advance.verified hp rfl).success h (by rw [hp]; rfl) fun _ => he

theorem Reboots.success (hr : s.Reboots e) : s.Succeeds e := by
  cases hr with
  | silent hp hw ht he =>
    exact (Advance.rebooted hp hw ht).success h (by rw [hp]; rfl) fun _ => he

end transitions

/-- A report that carries an error counts as success exactly if it tells that the link is up, if it
brings the granting status of a command as an indication, or if the link breaks once the device was
told to verify. -/
theorem success_despite_error_iff (config : Config) (mode : Mode) (image : Option Image)
    (device : Option Device) (collaborators : Collaborators) (guard : Guard)
    (before : List Happening)
    (hc : ((fresh config mode image device collaborators guard).live before).crash? = none)
    (e : Event) (hx : e.error?.isSome = true) :
    let s := ((fresh config mode image device collaborators guard).live before).session
    s.Succeeds e ↔ s.Overlooks e ∨ s.Reboots e := by
  have h := (Sound.fresh config mode image device collaborators guard).live before hc
  intro s
  constructor
  · exact h.heedless_of_succeeds hx
  · rintro (ho | hr)
    · exact ho.success h
    · exact hr.success h

/-- A peripheral that is asked to get ready for the download. -/
def preparingLife : List Happening :=
  [.event .start, .event (.connection true none), .event (.service (some .legacy) none),
    .event (.notifications true none)]

/-- A grant that comes as an indication with an error starts the download. -/
theorem success_despite_error_indicated :
    let r := (fresh {} .direct (some ⟨#[7, 7], by decide, by decide⟩)
      (some { name := "node" }) {} {}).live preparingLife
    let e := Event.value .controlPoint (some [0]) (some .linkClosed)
    r.crash? = none ∧ e.error?.isSome = true ∧ r.session.phase = .prepareForDownload ∧
      r.session.Succeeds e :=
  ⟨by decide, rfl, by decide,
    (success_despite_error_iff _ _ _ _ _ _ preparingLife (by decide) _ rfl).mpr
      (.inl (.granted (.inl (by decide))))⟩

/-- A link that is up with an error takes the upgrade on, and no device has rebooted. -/
theorem success_despite_error_connected :
    let s := ((fresh {} .direct (some ⟨#[7, 7], by decide, by decide⟩)
      (some { name := "node" }) {} {}).live [.event .start]).session
    let e := Event.connection true (some (.connectFailed "refused"))
    e.error?.isSome = true ∧ (.connect, .serviceDiscover) ∈ s.transitions e ∧ s.Succeeds e ∧
      ¬ s.Reboots e := by
  refine ⟨rfl, by decide, .advances (p := .connect) (q := .serviceDiscover) (by decide) rfl nofun,
    ?_⟩
  rintro ⟨⟩

end Session
end OtaUpgrade
