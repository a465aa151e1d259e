import Mathlib
import OtaUpgrade.Proofs.Session.Deadline

/-!
How an upgrade ends when nothing comes any more. Each phase allows for a number of timeouts that may
run out before the end (`expiriesLeft`), at most three once the upgrade has begun, and an expiry
brings that number down (`Reply.nears`). Only the driver of the device can get in the way, by
breaking down when it is called.
-/
namespace OtaUpgrade

/-- How many timeouts can run out from the entry of a phase on. -/
def Phase.expiriesLeft : Phase → Nat
  | idle => 4
  | readAppInfo => 3
  | prepareForDownload | startDownload | dataTransfer | verify => 2
  | connect | serviceDiscover | enableNotification | abort => 1
  | complete => 0

namespace Session

/-- How many timeouts can run out from now on. Asking the mesh core is the second try at the
identity. -/
def expiriesLeft (s : Session) : Nat :=
  if s.wait = .meshMetadata then 2 else s.phase.expiriesLeft

/-- What comes of a turn that brings the end nearer: the session waits again, with at most this many
timeouts to run out, or the driver of its device broke down. -/
inductive Nears (s : Session) (n : Nat) (t : Turn) : Prop where
  | waits (hc : t.crash? = none) (hn : t.session.expiriesLeft ≤ n)
      (hd : ∀ d, t.session.device = some d → s.device = some d)
  | breaks (hc : t.crash? = some .device) (hd : ∃ d, s.device = some d ∧ d.breaksOn ≠ [])

theorem Nears.after {s s' : Session} {m n : Nat} {t : Turn} (h : Nears s' m t) (hm : m ≤ n)
    (hd : ∀ d, s'.device = some d → s.device = some d) (es : List Effect) :
    Nears s n (t.after es) := by
  cases h with
  | waits hc hn ht => exact .waits hc (Nat.le_trans hn hm) fun d h => hd d (ht d h)
  | breaks hc ht =>
    obtain ⟨d, hs, hb⟩ := ht
    exact .breaks hc ⟨d, hd d hs, hb⟩

/-- A call leaves the session waiting, unless the driver breaks down on it. -/
theorem nears_ask {s r : Session} {d : Device} {c : DeviceCall} {n : Nat} (es : List Effect)
    (hd : s.device = some d) (hr : ∀ d, r.device = some d → s.device = some d)
    (hn : r.expiriesLeft ≤ n) : Nears s n ((r.ask d c).after es) := by
  by_cases hc : c ∈ d.breaksOn
  · refine .breaks ?_ ⟨d, hd, List.ne_nil_of_mem hc⟩
    simp [Turn.crash?, ask, hc]
  · refine .waits ?_ hn hr
    simp [Turn.crash?, ask, hc]

theorem Poised.nears_complete {s : Session} (h : s.Poised .complete) :
    Nears s 0 (s.proceed .complete) := by
  have hl := landing_complete h
  generalize s.proceed .complete = t at hl
  cases hl with
  | broken hb =>
    refine .breaks rfl ?_
    unfold breaksOnParting at hb
    cases hd : s.device with
    | none => simp [hd] at hb
    | some d =>
      refine ⟨d, rfl, ?_⟩
      intro hn
      simp [hd, hn] at hb
  | closed => exact .waits rfl (Nat.le_refl _) nofun

theorem Poised.nears_enableNotification {s : Session} (h : s.Poised .enableNotification) :
    Nears s 1 (s.proceed .enableNotification) := by
  have hl := landing_complete h
  generalize s.proceed .enableNotification = t at hl
  cases hl with
  | notify hd => exact nears_ask _ hd (fun _ hr => hr) (Nat.le_refl _)

theorem Poised.nears_abort {s : Session} (h : s.Poised .abort) :
    Nears s 1 (s.proceed .abort) := by
  have hl := landing_complete h
  generalize s.proceed .abort = t at hl
  cases hl with
  | abort hd => exact nears_ask _ hd (fun _ hr => hr) (Nat.le_refl _)
  | unlinked =>
    exact h.arrive_complete.nears_complete.after (s := s) (Nat.zero_le 1) (fun _ hd => hd) _

section

variable {s : Session}

theorem expiriesLeft_le (hi : s.phase ≠ .idle) : s.expiriesLeft ≤ 3 := by
  unfold expiriesLeft
  split
  · decide
  · cases hp : s.phase <;> first | exact absurd hp hi | decide

theorem complete_of_expiriesLeft (hn : s.expiriesLeft = 0) : s.phase = .complete := by
  unfold expiriesLeft at hn
  split at hn
  · cases hn
  · cases hp : s.phase <;> rw [hp] at hn <;> first | rfl | cases hn

variable (h : s.Sound)

include h

theorem Sound.expiriesLeft_eq (hp : s.phase ≠ .readAppInfo) :
    s.expiriesLeft = s.phase.expiriesLeft :=
  if_neg fun hw => hp (h.phase_of_meshMetadata hw)

theorem Sound.not_idle_of_expiriesLeft (hn : s.expiriesLeft ≤ 3) : s.phase ≠ .idle := by
  intro hp
  rw [h.expiriesLeft_eq (by simp [hp]), hp] at hn
  exact absurd hn (by decide)

/-- The failure that an expired timeout turns into brings the end nearer. -/
theorem Reply.nears (hf : s.finished = false)
    (ha : s.wait = .meshMetadata → s.guard.has .componentMetadata = true) {error : LinkError}
    {e : Event} (he : s.failureEvent? error = some e) {t : Turn} (hr : Reply s e t) {n : Nat}
    (hn : s.expiriesLeft ≤ n + 1) : Nears s n t := by
  have hx := expects_failureEvent? h ha he
  obtain ⟨hg, hk, hc, hv, hnot, hw, hab, hd⟩ := failureEvent?_fails he
  have left {p : Phase} (hp : s.phase = p) (hne : p ≠ .readAppInfo) : p.expiriesLeft ≤ n + 1 := by
    rw [h.expiriesLeft_eq (hp ▸ hne), hp] at hn
    exact hn
  have reading (hwait : s.wait = .appInfo) : 3 ≤ n + 1 := by
    have hp := h.phase_of_appInfo hwait
    rwa [expiriesLeft, hwait, if_neg nofun, hp] at hn
  -- the end, giving up, notifications and the second try at the identity are all that is left
  cases hr with
  | rest hno =>
    rw [hx] at hno
    cases hno
  | advance hadv =>
    have hpo := hadv.poised h hf
    cases hadv with
    | start hp =>
      unfold failureEvent? at he
      rw [hp] at he
      cases he
    | connected => exact absurd rfl (hc _)
    | discovered => exact absurd rfl (hv _)
    | informed hwait | uninformed hwait =>
      have h3 := reading hwait
      exact hpo.nears_enableNotification.after (s := s) (show 1 ≤ n by omega)
        (fun _ hd => hd) _
    | identified hwait =>
      have h2 : 2 ≤ n + 1 := by simpa [expiriesLeft, hwait] using hn
      exact hpo.nears_enableNotification.after (s := s) (show 1 ≤ n by omega)
        (fun _ hd => hd) _
    | notifying => exact absurd rfl hnot
    | prepared _ hgr | started _ hgr | verified _ hgr =>
      rw [hg] at hgr
      cases hgr
    | transferred => cases hk
    | rebooted | gaveUp => exact hpo.nears_complete.after (Nat.zero_le _) (by simp [cancelTimer]) _
  | failure hfail =>
    have hpo := hfail.poised h hf
    have gives {s' : Session} {cause : Cause} (hpo : (s'.recordError cause).Poised .abort)
        (h2 : 2 ≤ n + 1) (hd : s'.device = s.device) :
        Nears s n ((s'.recordError cause).proceed .abort) :=
      hpo.nears_abort.after (show 1 ≤ n by omega) (by simp [hd]) []
    cases hfail with
    | disconnected _ hne => exact absurd (hd _ rfl) hne
    | unstarted hp | unverified hp | chunk hp => exact gives hpo (left hp (by decide)) rfl
    | unwritten hcmd hne =>
      refine gives hpo ?_ rfl
      cases hp : s.phase <;> simp [hp, commandOf?] at hcmd hne <;> exact left hp (by decide)
    | stoppedDownload => exact absurd rfl (hab _)
    | _ => exact hpo.nears_complete.after (Nat.zero_le _) (by simp [cancelTimer]) []
  | closing => exact absurd rfl (hab _)
  | written => exact absurd rfl hw
  | asks hwait =>
    have h3 := reading hwait
    exact .waits rfl (show 2 ≤ n by omega) fun _ hd => hd
  | next => cases hk
  | overflow => exact absurd rfl (hc _)

end

end Session
end OtaUpgrade
