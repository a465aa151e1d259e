import Mathlib
import OtaUpgrade.Proofs.Session.Advancing
import OtaUpgrade.Proofs.Session.DeviceView

/-!
What an event that ends an upgrade or has it given up leads to, as an equation (`Failure.handle`),
beside `Advance.handle` for the events that take it on. Giving up tells the peripheral only while
the link is up, so it matters that a session past connecting knows it to be up as long as it has
met no error (`Linked`).
-/
namespace OtaUpgrade.Session

theorem Failure.ne_timeout {s s' : Session} {e : Event} {cause : Cause} {p : Phase}
    (ha : Failure s e s' cause p) (id : Nat) : e ≠ .timeout id := by
  rintro rfl
  cases ha with
  | unprepared _ he | unstarted _ he | unverified _ he => cases he

/-- A link that does not come up ends the upgrade. -/
theorem onDisconnected_connect {s : Session} (hp : s.phase = .connect) (error : Option LinkError) :
    s.onDisconnected error
      = ({ s with connected := false } : Session).cancelTimer.failTo (connectCause error)
          .complete := by
  have hv : ({ s with connected := false } : Session).verifyAccepted = false := by
    simp [verifyAccepted, hp]
  rw [onDisconnected]
  dsimp only
  rw [hv, if_neg Bool.false_ne_true]
  split
  case h_3 => rfl
  all_goals simp_all

/-- A link that goes down under way fails the upgrade, unless a reboot may be behind it. -/
theorem onDisconnected_underWay {s : Session} (hu : s.phase.underWay = true)
    (hc : s.phase ≠ .connect) (ha : s.phase ≠ .abort) (hv : s.verifyAccepted = false)
    (error : Option LinkError) :
    s.onDisconnected error
      = ({ s with connected := false } : Session).cancelTimer.failTo .disconnected
          (if s.phase.isBeforeDownload then .complete else .abort) := by
  have hv : ({ s with connected := false } : Session).verifyAccepted = false := hv
  rw [onDisconnected]
  dsimp only
  rw [hv, if_neg Bool.false_ne_true]
  split
  case h_5 => rfl
  all_goals simp_all [Phase.underWay]

/-- Before it has begun an upgrade is stopped at once. -/
theorem onAbort_idle {s : Session} (hp : s.phase = .idle) (dfu : Bool) :
    s.onAbort dfu = (s.noting (.abort dfu)).failTo (abortCause dfu) .complete := by
  rw [onAbort]
  dsimp only
  split
  case h_1 => rfl
  all_goals simp_all

/-- A download that is stopped is given up. -/
theorem onAbort_download {s : Session} (hp : s.phase.canAbort = true) (dfu : Bool) :
    s.onAbort dfu = (s.noting (.abort dfu)).failTo (abortCause dfu) .abort := by
  rw [onAbort]
  dsimp only
  split
  case h_4 =>
    rw [if_pos hp]
    rfl
  all_goals
    next hq =>
      rw [show s.phase = _ from hq] at hp
      cases hp

section

variable {s : Session} (h : s.Sound)

include h

/-- The answer to an event that fails an upgrade is to enter the phase that gives it up or ends
it. -/
theorem Failure.respond {e : Event} {s' : Session} {cause : Cause} {p : Phase}
    (ha : Failure s e s' cause p) : s.respond e = s'.failTo cause p := by
  have rejected {e : Event} {answer : Option Bytes} {command : Opcode}
      (hc : commandOf? s.phase = some command) (he : e.answer? = some answer)
      (hg : e.grants = false) :
      s.respond e = s.onStatus command (Status.decode answer) ∧
        (Status.decode answer == .success) = false := by
    refine ⟨h.respond_of_answer hc he, ?_⟩
    rw [beq_eq_false_iff_ne]
    intro hs
    rw [(Event.grants_iff he).mpr hs] at hg
    cases hg
  cases ha with
  | @mtu d error hp hd hs =>
    show (s.noting (.connection true error)).onConnected = _
    rw [onConnected_eq (s := s.noting (.connection true error)) hp hd, config_noting, hs]
    rfl
  | @unconnected error hp =>
    show (s.noting (.connection false error)).onDisconnected error = _
    exact onDisconnected_connect (s := s.noting (.connection false error)) hp error
  | @disconnected error hu hc ha hv =>
    show (s.noting (.connection false error)).onDisconnected error = _
    exact onDisconnected_underWay (s := s.noting (.connection false error)) hu hc ha hv error
  | @unsupported variant error hp hn =>
    show s.onService variant error = _
    rw [onService, if_pos hp]
    rcases hn with rfl | hn
    · rfl
    · cases error with
      | none => exact absurd rfl hn
      | some error => cases variant <;> rfl
  | @silent enabled error hp hn =>
    show s.onNotifications enabled error = _
    rw [onNotifications, if_pos hp]
    refine if_neg ?_
    rcases hn with rfl | hn
    · exact Bool.false_ne_true
    · simp [hn]
  | unprepared hp he hg | unstarted hp he hg | unverified hp he hg =>
    obtain ⟨hr, hb⟩ := rejected (by rw [hp]; rfl) he hg
    rw [hr]
    simp [onStatus, cancelTimer, hp, hb]
  | @unwritten command error hc ha =>
    have hn : command ≠ .abort := by
      rintro rfl
      cases hp : s.phase <;> rw [hp] at hc <;> first | exact absurd hp ha | cases hc
    show s.onCommandWritten (.failed error) = _
    simp only [onCommandWritten, h.commandInHand?_eq, hc, if_neg hn, writeCause]
    split <;> rfl
  | @chunk error hp =>
    show s.onChunkWritten (.failed error) = _
    rw [onChunkWritten, if_pos (by simp [hp, h.chunkAck_iff.mpr hp])]
    rfl
  | @stopped dfu hp => exact onAbort_idle hp dfu
  | @stoppedDownload dfu hp => exact onAbort_download hp dfu

/-- An event that fails an upgrade does so. -/
theorem Failure.handle (hf : s.finished = false) {e : Event} {s' : Session} {cause : Cause}
    {p : Phase} (ha : Failure s e s' cause p) :
    s.handle e = (s'.recordError cause).proceed p := by
  rw [handle_of_unfinished hf ha.ne_timeout, ha.respond h, settle_failTo]

end

/-- All that is kept of a session that fails: where it stands, with what it has, and with which
link. -/
structure Kept (s s' : Session) : Prop where
  phase : s'.phase = s.phase
  error : s'.error = s.error
  device : s'.device = s.device
  transfer : s'.transfer = s.transfer
  finished : s'.finished = s.finished

theorem Failure.kept {s s' : Session} {e : Event} {cause : Cause} {p : Phase}
    (ha : Failure s e s' cause p) : s.Kept s' := by
  cases ha <;> exact ⟨rfl, rfl, rfl, rfl, rfl⟩

/-! ## The link is up -/

/-- Past connecting, a session that has met no error knows the link to be up. -/
def Linked (s : Session) : Prop :=
  s.error = none → .serviceDiscover ≤ s.phase → s.phase ≤ .verify → s.connected = true

/-- A session that is over or about to be, or has yet to connect, need not know of a link. -/
theorem Linked.of_phase {s : Session} {p : Phase} (hp : s.phase = p)
    (hout : p < .serviceDiscover ∨ .verify < p) : s.Linked := by
  subst hp
  intro _ hlo hhi
  rcases hout with hout | hout
  · exact absurd hlo (Nat.not_le.mpr hout)
  · exact absurd hhi (Nat.not_le.mpr hout)

theorem Linked.fresh (config : Config) (mode : Mode) (image : Option Image)
    (device : Option Device) (collaborators : Collaborators) (guard : Guard) :
    (fresh config mode image device collaborators guard).Linked :=
  .of_phase (p := .idle) rfl (.inl (by decide))

/-- Entering a phase leaves the link as it was, up to the end. -/
theorem Poised.linked {s : Session} {p : Phase} (h : s.Poised p)
    (hc : s.error = none → .serviceDiscover ≤ p → p ≤ .verify → s.connected = true) :
    (s.proceed p).session.Linked := by
  have ends {r : Session} (hr : r.Poised .complete) : (r.proceed .complete).session.Linked :=
    .of_phase hr.books_complete.1 (.inr (by decide))
  have hl := landing_complete h
  generalize s.proceed p = t at hl
  cases hl with
  | noImage | noDevice => exact ends (h.arrive_complete.recordError _)
  | skip hv =>
    have hn := landing_complete (h.arrive_notify rfl)
    have hup : (s.arrive .readAppInfo).error = none → (s.arrive .readAppInfo).connected = true :=
      fun he => hc he (by decide) (by decide)
    generalize s.arrive .readAppInfo = r at hn hup
    generalize r.proceed .enableNotification = t at hn
    cases hn
    exact fun he _ _ => hup he
  | unlinked => exact ends h.arrive_complete
  | connecting | connect => exact .of_phase (p := .connect) rfl (.inl (by decide))
  | broken | closed => exact .of_phase (p := .complete) rfl (.inr (by decide))
  | _ => exact hc

section

variable {s : Session} (h : s.Sound) (hl : s.Linked) (hf : s.finished = false)

include h hl hf

theorem Reply.linked {e : Event} {t : Turn} (hr : Reply s e t) : t.session.Linked := by
  cases hr with
  | rest hx =>
    show (s.noting e).Linked
    by_cases hd : ∃ error, e = .connection false error
    · obtain ⟨error, rfl⟩ := hd
      have hu : s.phase.underWay = false := hx
      cases hp : s.phase <;> rw [hp] at hu
      case idle => exact .of_phase ((s.phase_noting _).trans hp) (.inl (by decide))
      case complete => exact .of_phase ((s.phase_noting _).trans hp) (.inr (by decide))
      all_goals cases hu
    · have hc : (s.noting e).connected = s.connected := by
        unfold noting
        split <;> first | rfl | exact absurd ⟨_, rfl⟩ hd
      intro he hlo hhi
      rw [hc]
      exact hl (by simpa using he) (by simpa using hlo) (by simpa using hhi)
  | @advance e s' es p ha =>
    refine (ha.poised h hf).linked ?_
    have kept {q : Phase} (hp : s.phase = q) (hlo : .serviceDiscover ≤ q) (hhi : q ≤ .verify) :
        s.error = none → s.connected = true :=
      fun he => hl he (hp ▸ hlo) (hp ▸ hhi)
    cases ha with
    | start => exact fun _ hlo => absurd hlo (by decide)
    | connected => exact fun _ _ _ => rfl
    | discovered hp | notifying hp | prepared hp | started hp | transferred hp =>
      exact fun he _ _ => kept hp (by decide) (by decide) he
    | informed hw | uninformed hw =>
      exact fun he _ _ => kept (h.phase_of_appInfo hw) (by decide) (by decide) he
    | identified hw =>
      exact fun he _ _ => kept (h.phase_of_meshMetadata hw) (by decide) (by decide) he
    | verified | rebooted | gaveUp => exact fun _ _ hhi => absurd hhi (by decide)
  | failure ha =>
    obtain ⟨hp, -⟩ := (ha.poised h hf).fails (by simp) ha.gives_up
    rcases hp with hp | hp
    · exact .of_phase hp (.inr (by decide))
    · exact .of_phase hp (.inr (by decide))
  | @closing d dfu =>
    intro he
    have hsome := error_recordError_isSome (s.noting (.abort dfu)) (abortCause dfu)
    rw [show ((s.noting (.abort dfu)).recordError (abortCause dfu)).error = none from he] at hsome
    cases hsome
  | written | asks | next => exact hl
  | overflow hp => exact .of_phase hp (.inl (by decide))

/-- A session goes on knowing of its link. -/
theorem Linked.handle (e : Event) : (s.handle e).session.Linked := by
  have hs := step_complete h hf e
  generalize s.handle e = t at hs
  cases hs with
  | reply _ hr => exact hr.linked h hl hf
  | stale => exact hl
  | expired hd _ hr =>
    exact hr.linked (h.withTimer (h.not_idle_of_due hd) s.timer.fire) hl hf

end

end OtaUpgrade.Session
