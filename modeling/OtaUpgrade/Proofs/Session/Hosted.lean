import Mathlib
import OtaUpgrade.Proofs.Session.Success
import OtaUpgrade.Session.Host

/-!
The life of a session as its host sees it: the status it publishes and everything it has done so
far. A host undergoes what its session does (`undergo_eq`), and what it publishes is the session's
own status as long as that has not broken down.
-/
namespace OtaUpgrade

namespace Host

/-- The host after all that happens to its session; one whose session breaks down undergoes nothing
more. -/
def undergo (h : Host) : List Happening → Host
  | [] => h
  | .guard guard :: rest => undergo { h with session := { h.session with guard } } rest
  | .event e :: rest =>
    if (h.handle e).crash.isSome then h.handle e else undergo (h.handle e) rest

variable {h : Host} {e : Event} {rest : List Happening}

theorem crash_handle (h : Host) (e : Event) : (h.handle e).crash = (h.session.handle e).crash? :=
  rfl

theorem undergo_event (hc : (h.session.handle e).crash? = none) :
    h.undergo (.event e :: rest) = (h.handle e).undergo rest := by
  rw [undergo, crash_handle, hc]
  rfl

theorem undergo_crash {c : Crash} (hc : (h.session.handle e).crash? = some c) :
    h.undergo (.event e :: rest) = h.handle e := by
  rw [undergo, crash_handle, hc]
  rfl

/-- What a host undergoes is the life of its session. -/
theorem undergo_eq (h : Host) (hw : h.crash = none) (hs : List Happening) :
    (h.undergo hs).session = (h.session.live hs).session ∧
      (h.undergo hs).trace.toList = h.trace.toList ++ (h.session.live hs).effects ∧
      (h.undergo hs).asked
        = h.asked + (Trace.meshRequests (h.session.live hs).effects).length ∧
      (h.undergo hs).crash = (h.session.live hs).crash? := by
  induction hs generalizing h with
  | nil => exact ⟨rfl, (List.append_nil _).symm, rfl, hw⟩
  | cons x hs ih =>
    cases x with
    | guard guard => exact ih { h with session := { h.session with guard } } hw
    | event e =>
      cases hx : (h.session.handle e).crash? with
      | some c =>
        rw [undergo_crash hx, Session.live_crash hx]
        exact ⟨rfl, by simp [handle, absorb], rfl, rfl⟩
      | none =>
        rw [undergo_event hx, Session.live_event hx]
        obtain ⟨hsession, htrace, hasked, hcrash⟩ := ih (h.handle e) hx
        refine ⟨hsession, ?_, ?_, hcrash⟩
        · rw [htrace, Turn.effects_after]
          simp [handle, absorb]
        · rw [hasked, Turn.effects_after, Trace.meshRequests_append, List.length_append,
            ← Nat.add_assoc]
          rfl

/-- A host whose session has not broken down publishes the session's status. -/
theorem status_undergo (h : Host) (hst : h.status = h.session.status) (hs : List Happening)
    (hc : (h.session.live hs).crash? = none) :
    (h.undergo hs).status = (h.session.live hs).session.status := by
  induction hs generalizing h with
  | nil => exact hst
  | cons x hs ih =>
    cases x with
    | guard guard => exact ih { h with session := { h.session with guard } } hst hc
    | event e =>
      cases hx : (h.session.handle e).crash? with
      | some c =>
        rw [Session.live_crash hx, hx] at hc
        cases hc
      | none =>
        rw [Session.live_event hx] at hc
        rw [undergo_event hx, Session.live_event hx]
        refine ih (h.handle e) ?_ hc
        show (if (h.session.handle e).crash?.isSome then h.status else _) = _
        rw [hx]
        rfl

theorem undergo_append (h : Host) (hs more : List Happening)
    (hc : (h.session.live hs).crash? = none) :
    h.undergo (hs ++ more) = (h.undergo hs).undergo more := by
  induction hs generalizing h with
  | nil => rfl
  | cons x hs ih =>
    cases x with
    | guard guard => exact ih { h with session := { h.session with guard } } hc
    | event e =>
      cases hx : (h.session.handle e).crash? with
      | some c =>
        rw [Session.live_crash hx, hx] at hc
        cases hc
      | none =>
        rw [Session.live_event hx] at hc
        rw [List.cons_append, undergo_event hx, undergo_event hx]
        exact ih (h.handle e) hc

/-- Nothing that a host is told after the end leaves a mark on it. -/
theorem undergo_of_finished (h : Host) (hf : h.session.finished = true) (hw : h.crash = none)
    (hst : h.status = h.session.status) (es : List Event) :
    h.undergo (es.map .event) = h := by
  have hsame (e : Event) : h.handle e = h := by
    rw [handle, Session.handle_of_finished hf]
    obtain ⟨session, inbox, asked, status, crash, trace⟩ := h
    obtain rfl : crash = none := hw
    obtain rfl : status = session.status := hst
    simp [absorb, Session.stay, Turn.crash?, Trace.meshRequests]
  induction es with
  | nil => rfl
  | cons e es ih =>
    have hc : (h.session.handle e).crash? = none := by
      rw [Session.handle_of_finished hf]
      rfl
    rw [List.map_cons, undergo_event hc, hsame, ih]

end Host

namespace Session

/-- A new host of a session, after all that happens. -/
def hosted (s : Session) (hs : List Happening) : Host :=
  ({ session := s } : Host).undergo hs

section hosted

variable (s : Session) (hs : List Happening)

@[simp] theorem session_hosted : (s.hosted hs).session = (s.live hs).session :=
  (Host.undergo_eq _ rfl hs).1

@[simp] theorem trace_hosted : (s.hosted hs).trace.toList = (s.live hs).effects := by
  rw [hosted, (Host.undergo_eq _ rfl hs).2.1]
  simp

@[simp] theorem crash_hosted : (s.hosted hs).crash = (s.live hs).crash? :=
  (Host.undergo_eq _ rfl hs).2.2.2

end hosted

variable {s : Session} {hs : List Happening}

theorem status_hosted (hc : (s.live hs).crash? = none) :
    (s.hosted hs).status = (s.live hs).session.status :=
  Host.status_undergo _ rfl hs hc

/-- Nothing that a session is told after its end leaves a mark, on itself or on its host. -/
theorem hosted_of_finished (hc : (s.live hs).crash? = none)
    (hf : (s.live hs).session.finished = true) (es : List Event) :
    s.hosted (hs ++ es.map .event) = s.hosted hs := by
  rw [hosted, Host.undergo_append _ _ _ hc]
  refine Host.undergo_of_finished _ ?_ ?_ ?_ es
  · exact (congrArg finished (s.session_hosted hs)).trans hf
  · exact (s.crash_hosted hs).trans hc
  · exact (status_hosted hc).trans (congrArg status (s.session_hosted hs)).symm

end Session
end OtaUpgrade
