import Mathlib
import OtaUpgrade.Proofs.Session.Entries

/-!
Why a session breaks down. Of all the ways in which one could, two are left: the driver of the
device breaks down when it is called, or the room that the link leaves for a chunk does not fit a
word. Either way the session still has the device, and is not finished.
-/
namespace OtaUpgrade.Session

/-- Why the session broke down. -/
inductive Broke (s : Session) : Crash → Prop where
  | driver {d : Device} {c : DeviceCall} (hd : s.device = some d) (hc : c ∈ d.breaksOn) :
      Broke s .device
  | size {d : Device} (hd : s.device = some d)
      (hs : s.config.chunkSizeFor? d.mtu d.overhead = none) : Broke s .sizeOverflow

variable {s : Session} {e : Event} {t : Turn} {crash : Crash}

theorem Broke.withGuard (h : s.Broke crash) (guard : Guard) :
    ({ s with guard } : Session).Broke crash := by
  cases h with
  | driver hd hc => exact .driver hd hc
  | size hd hs => exact .size hd hs

theorem broke_ask {d : Device} {c : DeviceCall} (hd : s.device = some d)
    (hc : (s.ask d c).crash? = some crash) : (s.ask d c).session.Broke crash := by
  by_cases hb : c ∈ d.breaksOn
  · have hcrash : crash = .device := by simpa [Turn.crash?, ask, hb] using hc.symm
    subst hcrash
    exact .driver hd hb
  · simp [Turn.crash?, ask, hb] at hc

theorem Answer.broke (h : Answer s e t) (hc : t.crash? = some crash) : t.session.Broke crash := by
  cases h with
  | rest | written | asks => cases hc
  | closing _ _ hd => exact broke_ask (by simpa using hd) hc
  | next _ _ hd => exact broke_ask (s := _) hd hc
  | overflow _ hd hs =>
    cases hc
    exact .size hd hs

theorem Halt.broke {p : Phase} (h : Halt s p t) (hc : t.crash? = some crash) :
    t.session.Broke crash := by
  cases h with
  | connecting | askMesh | closed => cases hc
  | broken hb =>
    cases hc
    unfold breaksOnParting at hb
    cases hd : s.device with
    | none => simp [hd] at hb
    | some d =>
      simp only [hd, Option.any_some, Bool.and_eq_true, decide_eq_true_eq] at hb
      exact .driver hd hb.2
  | connect _ hd | discover hd | read _ hd | notify hd | prepare hd | start hd | transfer _ hd
  | verify _ hd | abort hd => exact broke_ask hd hc

theorem Passage.broke {entries : List (Phase × Session)} (h : Passage s e entries t)
    (hc : t.crash? = some crash) : t.session.Broke crash := by
  induction h with
  | ended | stale => cases hc
  | rests ha => exact ha.broke hc
  | enters _ _ hh => exact hh.broke hc
  | slips _ _ _ _ hh => exact hh.broke hc
  | expired _ _ _ ih => exact ih hc

theorem Sound.broke (h : s.Sound) (hc : (s.handle e).crash? = some crash) :
    (s.handle e).session.Broke crash :=
  (passage_complete h e).broke hc

end OtaUpgrade.Session
