import Mathlib
import OtaUpgrade.Proofs.Session.FirstError

/-!
What a session does about its link. Past connecting it takes the link to be up (`Holding`), and so
it closes the link when it ends, unless it was told that the link is down. Only in connecting it
does not know: a timeout ends the upgrade there and asks nothing more of the device. `Grip` lists
what an event can come to.
-/
namespace OtaUpgrade.Session

/-- Past connecting, an upgrade under way takes its link to be up. -/
def Holding (s : Session) : Prop :=
  s.phase.underWay = true → s.phase ≠ .connect → s.connected = true

/-- What an event makes of a session's hold on its link. -/
inductive Grip (s : Session) (e : Event) (t : Turn) : Prop where
  | idles (hs : s.phase = .idle) (hp : t.session.phase = .idle)
      (he : t.session.error = s.error) (hc : Trace.calls t.effects = [])
  | begins (hs : s.phase = .idle) (hp : t.session.phase = .connect)
      (he : t.session.error = s.error)
      (hc : Trace.calls t.effects = [] ∨ Trace.calls t.effects = [.connect])
  | declines (hs : s.phase = .idle) (hf : t.session.finished = true)
      (hc : Trace.calls t.effects = [])
  | connects (hs : s.phase = .connect) (hp : t.session.phase = .connect)
      (he : t.session.error = s.error) (hc : Trace.calls t.effects = [])
  /-- A request to stop closes the link, whether or not it is up yet. -/
  | stops (hs : s.phase = .connect) (hp : t.session.phase = .connect)
      (he : t.session.error.isSome = true) (hc : Trace.calls t.effects = [.disconnect])
  /-- The link is not up in time, or cannot be. -/
  | unconnected {error : Option LinkError} (hs : s.phase = .connect)
      (hf : t.session.finished = true) (hc : Trace.calls t.effects = [])
      (he : t.session.error = s.error.or (some ⟨.connect, connectCause error⟩))
      (hev : e = .connection false error ∨
        (∃ id, e = .timeout id) ∧ connectCause error = .connectionTimeout)
  | lost {error : Option LinkError} (hs : s.phase ≠ .idle) (hn : s.phase ≠ .connect)
      (hev : e = .connection false error) (hf : t.session.finished = true) (hc : Trace.calls t.effects = [])
  | holds (hs : s.phase ≠ .idle) (hu : t.session.phase.underWay = true)
      (hp : t.session.phase ≠ .connect) (hl : t.session.connected = true)
      (hc : .connect ∉ Trace.calls t.effects)
  | closes (hs : s.phase ≠ .idle) (hf : t.session.finished = true)
      (hc : Trace.calls t.effects = [.disconnect])

/-! ## Entering a phase -/

section halt

variable {s : Session} {p : Phase} {t : Turn}

theorem Halt.parts (h : Halt s .complete t) (hc : t.crash? = none) :
    t.session.finished = true ∧ Trace.calls t.effects = s.parting := by
  cases h with
  | broken => cases hc
  | closed =>
    refine ⟨rfl, ?_⟩
    show Trace.calls (s.parting.map .call ++ s.farewell) = _
    rw [Trace.calls_append, calls_map_call, calls_farewell, List.append_nil]

theorem Halt.begins (h : Halt s .connect t) :
    t.session.phase = .connect ∧ t.session.error = s.error ∧
      (Trace.calls t.effects = [] ∨ Trace.calls t.effects = [.connect]) := by
  cases h with
  | connecting => exact ⟨rfl, rfl, .inl rfl⟩
  | connect => exact ⟨rfl, rfl, .inr rfl⟩

theorem calls_ask {s : Session} {d : Device} {c : DeviceCall} {es : List Effect}
    (hes : Trace.calls es = []) : Trace.calls ((s.ask d c).after es).effects = [c] := by
  rw [Turn.effects_after, Trace.calls_append, hes]
  rfl

/-- On the way from connecting to the end the link is left alone. -/
theorem Halt.leaves (h : Halt s p t) (hn : p ≠ .connect) (hp : p ≠ .complete) :
    t.session.phase = p ∧ t.session.connected = s.connected ∧
      .connect ∉ Trace.calls t.effects := by
  cases h with
  | connecting | connect => exact absurd rfl hn
  | broken | closed => exact absurd rfl hp
  | askMesh => exact ⟨rfl, rfl, List.not_mem_nil⟩
  | discover | read | notify | prepare | start | transfer | verify | abort =>
    refine ⟨rfl, rfl, ?_⟩
    rw [calls_ask rfl]
    simp

end halt

theorem parting_of_unconnected {s : Session} (hc : s.connected = false) : s.parting = [] := by
  simp [parting, hc]

theorem parting_of_connected {s : Session} {d : Device} (hc : s.connected = true)
    (hd : s.device = some d) : s.parting = [.disconnect] := by
  simp [parting, hc, hd]

/-! ## One event -/

section

variable {s : Session} (h : s.Sound)

include h

/-- Once it has begun, a session on its way to another phase takes the link to be up, unless it was
told otherwise. -/
theorem Move.hold (hl : s.Holding) {e : Event} {p : Phase} {r : Session} {t : Turn}
    (hm : Move s e p r t) (hi : s.phase ≠ .idle) :
    p ≠ .connect ∧ (r.connected = true ∨
      ∃ error, e = .connection false error ∧ r.connected = false ∧ (p = .abort ∨ p = .complete) ∧
        (s.phase = .connect →
          p = .complete ∧ r.error = s.error.or (some ⟨.connect, connectCause error⟩))) := by
  have past {q : Phase} (hq : s.phase = q) (hu : q.underWay = true) (hc : q ≠ .connect) :
      s.connected = true := by
    subst hq
    exact hl hu hc
  cases hm with
  | advance ha =>
    cases ha with
    | start hp => exact absurd hp hi
    | connected => exact ⟨nofun, .inl rfl⟩
    | discovered hp | notifying hp | prepared hp | started hp | transferred hp | verified hp =>
      exact ⟨nofun, .inl (past hp rfl nofun)⟩
    | informed hw | uninformed hw =>
      exact ⟨nofun, .inl (past (h.phase_of_appInfo hw) rfl nofun)⟩
    | identified hw => exact ⟨nofun, .inl (past (h.phase_of_meshMetadata hw) rfl nofun)⟩
    | rebooted hp => exact ⟨nofun, .inr ⟨_, rfl, rfl, .inr rfl, by simp [hp]⟩⟩
    | gaveUp hp he =>
      refine ⟨nofun, ?_⟩
      rcases he with he | ⟨error, rfl⟩ | ⟨error, rfl⟩
      · rw [noting_of_answer (Option.some_get he).symm]
        exact .inl (past hp rfl nofun)
      · exact .inr ⟨error, rfl, rfl, .inr rfl, by simp [hp]⟩
      · exact .inl (past hp rfl nofun)
  | failure ha =>
    rw [connected_recordError]
    cases ha with
    | mtu => exact ⟨nofun, .inl rfl⟩
    | @unconnected error hp =>
      refine ⟨nofun, .inr ⟨error, rfl, rfl, .inr rfl, fun _ => ⟨rfl, ?_⟩⟩⟩
      rw [error_recordError]
      simp [Mishap.error, cancelTimer, hp]
    | @disconnected error hu hc =>
      refine ⟨by split <;> nofun, .inr ⟨error, rfl, rfl, ?_, fun hp => absurd hp hc⟩⟩
      split
      · exact .inr rfl
      · exact .inl rfl
    | unsupported hp | silent hp | unprepared hp | unstarted hp | unverified hp | chunk hp =>
      exact ⟨nofun, .inl (past hp rfl nofun)⟩
    | unwritten hc =>
      obtain ⟨hu, -⟩ := underWay_of_command (Option.isSome_iff_exists.mpr ⟨_, hc⟩)
      refine ⟨nofun, .inl (hl hu fun hp => ?_)⟩
      rw [hp] at hc
      cases hc
    | stopped hp => exact absurd hp hi
    | stoppedDownload hp =>
      refine ⟨nofun, .inl (hl ?_ fun hq => ?_)⟩
      · cases hq : s.phase <;> rw [hq] at hp <;> first | rfl | cases hp
      · rw [hq] at hp
        cases hp

omit h in
/-- Past connecting, whatever leaves phase and link alone leaves the hold on the link. -/
theorem Grip.of_same (hl : s.Holding) {e : Event} {t : Turn} (hu : s.phase.underWay = true)
    (hn : s.phase ≠ .connect) (hp : t.session.phase = s.phase)
    (hc : t.session.connected = s.connected) (hcalls : .connect ∉ Trace.calls t.effects) :
    Grip s e t := by
  refine .holds ?_ (by rw [hp]; exact hu) (by rw [hp]; exact hn) (hc.trans (hl hu hn)) hcalls
  intro hi
  rw [hi] at hu
  cases hu

/-- An answer within a phase leaves the hold on the link as it is, unless the caller asks to
stop. -/
theorem Answer.grip (hl : s.Holding) (hf : s.finished = false) {e : Event} {t : Turn}
    (ha : Answer s e t) (hc : t.crash? = none) : Grip s e t := by
  cases ha with
  | rest hx =>
    by_cases hi : s.phase = .idle
    · exact .idles hi ((s.phase_noting e).trans hi) (s.error_noting e) rfl
    by_cases hp : s.phase = .connect
    · exact .connects hp ((s.phase_noting e).trans hp) (s.error_noting e) rfl
    have hu := Phase.underWay_of_ne hi (h.not_complete hf)
    refine .of_same hl hu hp (s.phase_noting e) ?_ List.not_mem_nil
    show (s.noting e).connected = s.connected
    unfold noting
    split
    case h_2 =>
      -- that the link is down would be expected
      rw [expects, hu] at hx
      cases hx
    all_goals rfl
  | closing hu =>
    by_cases hp : s.phase = .connect
    · exact .stops hp (by simpa using hp) (by simp) rfl
    · refine .of_same hl hu hp (by simp) (by simp [Session.noting]) ?_
      show .connect ∉ [DeviceCall.disconnect]
      simp
  | written hw =>
    obtain ⟨hu, -⟩ := underWay_of_command hw
    refine .of_same hl hu (fun hp => ?_) rfl rfl List.not_mem_nil
    rw [hp] at hw
    cases hw
  | asks hw =>
    have hp := h.phase_of_appInfo hw
    exact .of_same hl (by rw [hp]; rfl) (by simp [hp]) rfl rfl List.not_mem_nil
  | next hp =>
    refine .of_same hl (by rw [hp]; rfl) (by simp [hp]) rfl rfl ?_
    rw [calls_ask s.remarks_chunkReport.calls]
    simp
  | overflow => cases hc

/-- What comes of entering a phase, for a session that has begun. -/
theorem Move.grip (hl : s.Holding) {e : Event} {p : Phase} {r : Session} {t t' : Turn}
    (hm : Move s e p r t) (hi : s.phase ≠ .idle) (hr : r.Poised p) (hd : r.device.isSome = true)
    (hh : Halt r p t') (hc : t'.crash? = none) : Grip s e (t'.after t.effects) := by
  have hcalls : Trace.calls (t'.after t.effects).effects = Trace.calls t'.effects := by
    rw [Turn.effects_after, Trace.calls_append, hm.remarks.calls, List.nil_append]
  obtain ⟨hn, hup | ⟨error, rfl, hdown, hp, herr⟩⟩ := hm.hold h hl hi
  · by_cases hp : p = .complete
    · subst hp
      obtain ⟨hf, hparts⟩ := hh.parts hc
      obtain ⟨d, hd⟩ := Option.isSome_iff_exists.mp hd
      exact .closes hi hf (by rw [hcalls, hparts, parting_of_connected hup hd])
    · obtain ⟨hphase, hconn, hnot⟩ := hh.leaves hn hp
      refine .holds hi ?_ ?_ (hconn.trans hup) (by rwa [hcalls])
      · show t'.session.phase.underWay = true
        rw [hphase]
        exact Phase.underWay_of_ne hr.notIdle hp
      · show t'.session.phase ≠ .connect
        rwa [hphase]
  · rcases hp with rfl | rfl
    · -- without a link no one is told that the upgrade is given up
      cases hh with
      | abort _ hup => exact absurd (hdown.symm.trans hup) nofun
    · obtain ⟨hf, hparts⟩ := hh.parts hc
      rw [parting_of_unconnected hdown] at hparts
      by_cases hs : s.phase = .connect
      · refine .unconnected hs hf (hcalls.trans hparts) ?_ (.inl rfl)
        rw [← (herr hs).2]
        exact (Entrance.halts hh).error_eq
      · exact .lost hi hs rfl hf (hcalls.trans hparts)

/-- An upgrade that has not begun can begin or be stopped. -/
theorem Move.of_idle {e : Event} {p : Phase} {r : Session} {t : Turn} (hm : Move s e p r t)
    (hi : s.phase = .idle) :
    r.connected = false ∧ (p = .connect ∧ r.error = s.error ∨ p = .complete) := by
  have hdown := (h.idle hi).2.1
  have other {q : Phase} (hq : s.phase = q) (hn : q ≠ .idle) : False := hn (hq.symm.trans hi)
  cases hm with
  | advance ha =>
    cases ha with
    | start => exact ⟨hdown, .inl ⟨rfl, rfl⟩⟩
    | informed hw | uninformed hw => exact (other (h.phase_of_appInfo hw) nofun).elim
    | identified hw => exact (other (h.phase_of_meshMetadata hw) nofun).elim
    | connected hp | discovered hp | notifying hp | prepared hp | started hp | transferred hp
    | verified hp | rebooted hp | gaveUp hp => exact (other hp nofun).elim
  | failure ha =>
    rw [connected_recordError]
    cases ha with
    | stopped => exact ⟨hdown, .inr rfl⟩
    | disconnected hu =>
      rw [hi] at hu
      cases hu
    | unwritten hc =>
      rw [hi] at hc
      cases hc
    | stoppedDownload hp =>
      rw [hi] at hp
      cases hp
    | mtu hp | unconnected hp | unsupported hp | silent hp | unprepared hp | unstarted hp
    | unverified hp | chunk hp => exact (other hp nofun).elim

theorem Move.grip_of_idle {e : Event} {p : Phase} {r : Session} {t t' : Turn}
    (hm : Move s e p r t) (hi : s.phase = .idle) (hh : Halt r p t') (hc : t'.crash? = none) :
    Grip s e (t'.after t.effects) := by
  have hcalls : Trace.calls (t'.after t.effects).effects = Trace.calls t'.effects := by
    rw [Turn.effects_after, Trace.calls_append, hm.remarks.calls, List.nil_append]
  obtain ⟨hdown, ⟨rfl, herr⟩ | rfl⟩ := hm.of_idle h hi
  · obtain ⟨hp, he, hbegins⟩ := hh.begins
    rw [← hcalls] at hbegins
    exact .begins hi hp (he.trans herr) hbegins
  · obtain ⟨hf, hparts⟩ := hh.parts hc
    rw [parting_of_unconnected hdown] at hparts
    exact .declines hi hf (hcalls.trans hparts)

/-- A phase that is slipped through, with the one that it is slipped through to. -/
theorem Move.grip_of_slip (hl : s.Holding) {e : Event} {p q : Phase} {r r' : Session}
    {t t' t'' : Turn} (hm : Move s e p r t) (hs : Slip r p q r' t') (hh : Halt r' q t'')
    (hc : t''.crash? = none) : Grip s e ((t''.after t'.effects).after t.effects) := by
  have hcalls : Trace.calls ((t''.after t'.effects).after t.effects).effects
      = Trace.calls t''.effects := by
    rw [Turn.effects_after, Turn.effects_after, Trace.calls_append, Trace.calls_append,
      hm.remarks.calls, hs.remarks.calls, List.nil_append, List.nil_append]
  by_cases hi : s.phase = .idle
  · obtain ⟨hdown, hp⟩ := hm.of_idle h hi
    have declines (hdown : r'.connected = false) (hh : Halt r' .complete t'') :
        Grip s e ((t''.after t'.effects).after t.effects) := by
      obtain ⟨hf, hparts⟩ := hh.parts hc
      rw [parting_of_unconnected hdown] at hparts
      exact .declines hi hf (hcalls.trans hparts)
    cases hs with
    | noImage | noDevice => exact declines (by simpa using hdown) hh
    | skip | unlinked => rcases hp with ⟨hp, -⟩ | hp <;> cases hp
  · obtain ⟨hn, hup⟩ := hm.hold h hl hi
    cases hs with
    | noImage | noDevice => exact absurd rfl hn
    | skip =>
      obtain ⟨hphase, hconn, hnot⟩ := hh.leaves nofun nofun
      rcases hup with hup | ⟨_, -, -, hp, -⟩
      · refine .holds hi ?_ ?_ (hconn.trans hup) (by rwa [hcalls])
        · show t''.session.phase.underWay = true
          rw [hphase]
          rfl
        · show t''.session.phase ≠ .connect
          rw [hphase]
          nofun
      · rcases hp with hp | hp <;> cases hp
    | unlinked hdown =>
      rcases hup with hup | ⟨_, rfl, -, -, herr⟩
      · exact absurd (hup.symm.trans hdown) nofun
      · obtain ⟨hf, hparts⟩ := hh.parts hc
        rw [parting_of_unconnected (s := r.arrive .abort) hdown] at hparts
        refine .lost hi (fun hs => ?_) rfl hf (hcalls.trans hparts)
        cases (herr hs).1

end

/-- The failure that an expired timeout turns into is a lost link only while connecting. -/
theorem Grip.expired {s : Session} {id ms : Nat} {e : Event} {t : Turn} {es : List Effect}
    (he : s.failureEvent? (.timeout ms) = some e)
    (hg : Grip { s with timer := s.timer.fire } e t) (hes : Trace.calls es = []) :
    Grip s (.timeout id) (t.after es) := by
  have hcalls : Trace.calls (t.after es).effects = Trace.calls t.effects := by
    rw [Turn.effects_after, Trace.calls_append, hes, List.nil_append]
  cases hg with
  | idles hs hp herr hc => exact .idles hs hp herr (hcalls.trans hc)
  | begins hs hp herr hc => exact .begins hs hp herr (by rwa [hcalls])
  | declines hs hf hc => exact .declines hs hf (hcalls.trans hc)
  | connects hs hp herr hc => exact .connects hs hp herr (hcalls.trans hc)
  | stops hs hp herr hc => exact .stops hs hp herr (hcalls.trans hc)
  | @unconnected error hs hf hc herr hev =>
    have hs : s.phase = .connect := hs
    refine .unconnected hs hf (hcalls.trans hc) herr (.inr ⟨⟨id, rfl⟩, ?_⟩)
    rcases hev with rfl | ⟨-, hcause⟩
    · -- the error of the report is the timeout
      simp only [failureEvent?, hs, Option.some.injEq, Event.connection.injEq] at he
      rw [← he.2]
      rfl
    · exact hcause
  | lost _ hn hev =>
    have hn : s.phase ≠ .connect := hn
    subst hev
    unfold failureEvent? at he
    split at he
    case h_3 hp => exact absurd hp hn
    case h_5 => split at he <;> cases he
    all_goals cases he
  | holds hs hu hp hl hc => exact .holds hs hu hp hl (by rwa [hcalls])
  | closes hs hf hc => exact .closes hs hf (hcalls.trans hc)

/-- Nothing else can come of an event that does not break the session down. -/
theorem Passage.grip {s : Session} (h : s.Sound) (hl : s.Holding) (hf : s.finished = false)
    {e : Event} {entries : List (Phase × Session)} {t : Turn} (hp : Passage s e entries t)
    (hc : t.crash? = none) : Grip s e t := by
  induction hp with
  | ended hend => exact absurd (hf.symm.trans hend) nofun
  | @stale s id =>
    by_cases hi : s.phase = .idle
    · exact .idles hi hi rfl rfl
    by_cases hn : s.phase = .connect
    · exact .connects hn hn rfl rfl
    have hu := Phase.underWay_of_ne hi (h.not_complete hf)
    exact .of_same hl hu hn rfl rfl List.not_mem_nil
  | rests ha => exact ha.grip h hl hf hc
  | @enters s r e p t t' hm hr hh =>
    by_cases hi : s.phase = .idle
    · exact hm.grip_of_idle h hi hh hc
    · obtain ⟨d, hd⟩ := h.equipped (Phase.underWay_of_ne hi (h.not_complete hf))
      have hd : r.device.isSome = true := by
        rw [hm.carries.device, hd]
        rfl
      exact hm.grip h hl hi hr hd hh hc
  | slips hm _ hs _ hh => exact hm.grip_of_slip h hl hs hh hc
  | expired hd he _ ih =>
    exact (ih (h.withTimer (h.not_idle_of_due hd) _) hl hf hc).expired he rfl

theorem Sound.grip {s : Session} (h : s.Sound) (hl : s.Holding) (hf : s.finished = false)
    {e : Event} (hc : (s.handle e).crash? = none) : Grip s e (s.handle e) :=
  (passage_complete h e).grip h hl hf hc

/-- Only an upgrade that begins connects. -/
theorem Grip.begins_of_connect {s : Session} {e : Event} {t : Turn} (hg : Grip s e t)
    (hm : .connect ∈ Trace.calls t.effects) :
    s.phase = .idle ∧ Trace.calls t.effects = [.connect] := by
  cases hg with
  | begins hs _ _ hc =>
    rcases hc with hc | hc
    · rw [hc] at hm
      cases hm
    · exact ⟨hs, hc⟩
  | holds _ _ _ _ hc => exact absurd hm hc
  | idles _ _ _ hc | declines _ _ hc | connects _ _ _ hc | unconnected _ _ hc
  | lost _ _ _ _ hc =>
    rw [hc] at hm
    cases hm
  | stops _ _ _ hc | closes _ _ hc =>
    rw [hc] at hm
    cases List.mem_singleton.mp hm

/-- Every event keeps the hold. -/
theorem Grip.holding {s : Session} {e : Event} {t : Turn} (hg : Grip s e t)
    (ht : t.session.Sound) : t.session.Holding := by
  have ended (hf : t.session.finished = true) : t.session.Holding := by
    intro hu
    rw [ht.finished_iff.mp hf] at hu
    cases hu
  cases hg with
  | idles _ hp =>
    intro hu
    rw [hp] at hu
    cases hu
  | begins _ hp | connects _ hp | stops _ hp => exact fun _ hn => absurd hp hn
  | declines _ hf | unconnected _ hf | lost _ _ _ hf | closes _ hf => exact ended hf
  | holds _ _ _ hup => exact fun _ _ => hup

/-! ## Connecting that timed out -/

/-- The upgrade failed since connecting took too long. -/
def TimedOut (s : Session) : Prop :=
  s.error = some ⟨.connect, .connectionTimeout⟩

theorem TimedOut.of_recordError {s : Session} {cause : Cause}
    (ht : (s.recordError cause).TimedOut) :
    s.TimedOut ∨ s.error = none ∧ s.phase = .connect ∧ cause = .connectionTimeout := by
  unfold TimedOut at ht ⊢
  rw [error_recordError] at ht
  cases he : s.error with
  | some error =>
    rw [he] at ht
    exact .inl ht
  | none =>
    rw [he, Option.none_or, Mishap.error, Option.some.injEq, UpgradeError.mk.injEq] at ht
    exact .inr ⟨rfl, ht⟩

/-- Only a link that does not come up in time is reported as such. -/
theorem Failure.unconnected_of_cause {s s' : Session} {e : Event} {p : Phase}
    (h : Failure s e s' .connectionTimeout p) :
    s.phase = .connect ∧ p = .complete ∧ s'.connected = false := by
  generalize hcause : Cause.connectionTimeout = cause at h
  cases h with
  | unconnected hp => exact ⟨hp, rfl, rfl⟩
  | unwritten =>
    unfold writeCause at hcause
    split at hcause <;> cases hcause
  | @silent _ error =>
    unfold notificationsCause at hcause
    split at hcause
    · cases hcause
    · split at hcause <;> cases hcause
  | stopped | stoppedDownload =>
    unfold abortCause at hcause
    split at hcause <;> cases hcause
  | _ => cases hcause

theorem Move.timedOut {s r : Session} {e : Event} {p : Phase} {t : Turn} (hm : Move s e p r t)
    (ht : r.TimedOut) :
    s.TimedOut ∨ s.error = none ∧ s.phase = .connect ∧ p = .complete ∧ r.connected = false := by
  cases hm with
  | advance ha => exact .inl (ha.error_eq.1.symm.trans ht)
  | failure ha =>
    have hkept := ha.error_eq.1.symm
    rcases ht.of_recordError with ht | ⟨he, -, rfl⟩
    · exact .inl (hkept.trans ht)
    · obtain ⟨hp, hend, hdown⟩ := ha.unconnected_of_cause
      exact .inr ⟨hkept.trans he, hp, hend, by simpa using hdown⟩

theorem Answer.timedOut {s : Session} {e : Event} {t : Turn} (h : Answer s e t)
    (ht : t.session.TimedOut) : s.TimedOut := by
  cases h with
  | rest => exact (s.error_noting e).symm.trans ht
  | @closing _ dfu =>
    rcases TimedOut.of_recordError ht with ht | ⟨-, -, hcause⟩
    · exact (s.error_noting _).symm.trans ht
    · unfold abortCause at hcause
      split at hcause <;> cases hcause
  | written | asks | next | overflow => exact ht

/-- A timeout of connecting ends the upgrade, and asks nothing of the device. -/
theorem Passage.timedOut {s : Session} {e : Event} {entries : List (Phase × Session)} {t : Turn}
    (hp : Passage s e entries t) (hc : t.crash? = none) (ht : t.session.TimedOut) :
    s.TimedOut ∨ s.error = none ∧ s.phase = .connect ∧ t.session.finished = true ∧
      Trace.calls t.effects = [] := by
  induction hp with
  | ended | stale => exact .inl ht
  | rests ha => exact .inl (ha.timedOut ht)
  | enters hm _ hh =>
    rcases hm.timedOut ((Entrance.halts hh).error_eq.symm.trans ht) with ht | ⟨he, hs, rfl, hdown⟩
    · exact .inl ht
    · obtain ⟨hf, hparts⟩ := hh.parts hc
      refine .inr ⟨he, hs, hf, ?_⟩
      rw [Turn.effects_after, Trace.calls_append, hm.remarks.calls, hparts,
        parting_of_unconnected hdown]
      rfl
  | @slips s r r' e p q t t' t'' hm _ hs _ hh =>
    have ht' : r'.TimedOut := (Entrance.halts hh).error_eq.symm.trans ht
    have hr : r.TimedOut := by
      cases hs with
      | noImage | noDevice =>
        rcases ht'.of_recordError with ht' | ⟨-, -, hcause⟩
        · exact ht'
        · cases hcause
      | skip | unlinked => exact ht'
    rcases hm.timedOut hr with ht | ⟨-, -, rfl, -⟩
    · exact .inl ht
    · cases hs
  | expired _ _ _ ih =>
    rcases ih hc ht with ht | ⟨he, hs, hf, hcalls⟩
    · exact .inl ht
    · exact .inr ⟨he, hs, hf, hcalls⟩

theorem Sound.timedOut {s : Session} (h : s.Sound) {e : Event} (hc : (s.handle e).crash? = none)
    (ht : (s.handle e).session.TimedOut) :
    s.TimedOut ∨ s.error = none ∧ s.phase = .connect ∧
      (s.handle e).session.finished = true ∧ Trace.calls (s.handle e).effects = [] :=
  (passage_complete h e).timedOut hc ht

/-! ## What a session has asked for when it ends -/

/-- What the calls of a session say of its hold on the link. That the link is lost, and stays so, is
for others to know. -/
structure Owes (s : Session) (calls : List DeviceCall) (lost : Prop) : Prop where
  idle : s.phase = .idle → calls = [] ∧ s.error = none
  connecting : s.phase = .connect →
    s.error.isSome = true ∧ .disconnect ∈ calls ∨
      s.error = none ∧ (calls = [] ∨ calls = [.connect])
  ended : s.finished = true →
    .disconnect ∈ calls ∨ lost ∨ calls = [] ∨ calls = [.connect] ∧ s.TimedOut
  timedOut : s.TimedOut → s.finished = true ∧ (calls = [] ∨ calls = [.connect])

theorem Owes.fresh (config : Config) (mode : Mode) (image : Option Image)
    (device : Option Device) (collaborators : Collaborators) (guard : Guard) (lost : Prop) :
    (fresh config mode image device collaborators guard).Owes [] lost :=
  ⟨fun _ => ⟨rfl, rfl⟩, nofun, nofun, nofun⟩

theorem Owes.imp {s : Session} {calls : List DeviceCall} {lost lost' : Prop}
    (h : s.Owes calls lost) (hi : lost → lost') : s.Owes calls lost' where
  idle := h.idle
  connecting := h.connecting
  ended hf := by
    rcases h.ended hf with hd | hl | hn
    · exact .inl hd
    · exact .inr (.inl (hi hl))
    · exact .inr (.inr hn)
  timedOut := h.timedOut

section owes

variable {s : Session} {calls : List DeviceCall} {lost lost' : Prop} {e : Event} {t : Turn}

/-- A session that has not begun has asked for nothing. -/
theorem Grip.owes_idle (hg : Grip s e t) (h : s.Owes calls lost) (ht : t.session.Sound)
    (hp : t.session.phase = .idle) :
    calls ++ Trace.calls t.effects = [] ∧ t.session.error = none := by
  cases hg with
  | idles hs _ he hc =>
    obtain ⟨rfl, hn⟩ := h.idle hs
    exact ⟨hc, he.trans hn⟩
  | begins _ hc | connects _ hc | stops _ hc => cases hc.symm.trans hp
  | holds _ hu =>
    rw [hp] at hu
    cases hu
  | declines _ hf | unconnected _ hf | lost _ _ _ hf | closes _ hf =>
    cases (ht.finished_iff.mp hf).symm.trans hp

/-- What an event makes of a session that is left connecting. -/
theorem Grip.owes_connecting (hg : Grip s e t) (h : s.Owes calls lost) (ht : t.session.Sound)
    (hp : t.session.phase = .connect) :
    t.session.error.isSome = true ∧ .disconnect ∈ calls ++ Trace.calls t.effects ∨
      t.session.error = none ∧
        (calls ++ Trace.calls t.effects = [] ∨ calls ++ Trace.calls t.effects = [.connect]) := by
  cases hg with
  | idles _ hi => cases hi.symm.trans hp
  | begins hs _ he hc =>
    obtain ⟨rfl, hn⟩ := h.idle hs
    exact .inr ⟨he.trans hn, hc⟩
  | connects hs _ he hc =>
    rw [he, hc, List.append_nil]
    exact h.connecting hs
  | stops _ _ he hc => exact .inl ⟨he, by simp [hc]⟩
  | holds _ _ hn => exact absurd hp hn
  | declines _ hf | unconnected _ hf | lost _ _ _ hf | closes _ hf =>
    cases (ht.finished_iff.mp hf).symm.trans hp

/-- What an event makes of a session that it ends. -/
theorem Grip.owes_ended (hg : Grip s e t) (h : s.Owes calls lost) (ht : t.session.Sound)
    (he : ∀ error, e = .connection false error → lost') (hf : t.session.finished = true) :
    .disconnect ∈ calls ++ Trace.calls t.effects ∨ lost' ∨
      calls ++ Trace.calls t.effects = [] ∨
        calls ++ Trace.calls t.effects = [.connect] ∧ t.session.TimedOut := by
  have hend : t.session.phase = .complete := ht.finished_iff.mp hf
  cases hg with
  | idles _ hp | begins _ hp | connects _ hp | stops _ hp => cases hp.symm.trans hend
  | declines hs _ hc =>
    rw [hc, (h.idle hs).1]
    exact .inr (.inr (.inl rfl))
  | unconnected hs _ hc herr hev =>
    rcases hev with rfl | ⟨-, hcause⟩
    · exact .inr (.inl (he _ rfl))
    · rw [hc, List.append_nil]
      rcases h.connecting hs with ⟨-, hd⟩ | ⟨hn, hc | hc⟩
      · exact .inl hd
      · exact .inr (.inr (.inl hc))
      · refine .inr (.inr (.inr ⟨hc, ?_⟩))
        rw [TimedOut, herr, hn, hcause]
        rfl
  | lost _ _ hev => exact .inr (.inl (he _ hev))
  | holds _ hu =>
    rw [hend] at hu
    cases hu
  | closes _ _ hc => exact .inl (by simp [hc])

/-- Every event keeps the account. -/
theorem Owes.handle (h : s.Owes calls lost) (hs : s.Sound) (hl : s.Holding)
    (hf : s.finished = false) (hc : (s.handle e).crash? = none)
    (he : ∀ error, e = .connection false error → lost') :
    (s.handle e).session.Owes (calls ++ Trace.calls (s.handle e).effects) lost' := by
  have hg := hs.grip hl hf hc
  have ht := hs.handle e hc
  constructor
  case idle => exact hg.owes_idle h ht
  case connecting => exact hg.owes_connecting h ht
  case ended => exact hg.owes_ended h ht he
  case timedOut =>
    intro hout
    rcases hs.timedOut hc hout with hout | ⟨hn, hp, hend, hcalls⟩
    · exact absurd (hf.symm.trans (h.timedOut hout).1) nofun
    · rw [hcalls, List.append_nil]
      rcases h.connecting hp with ⟨herr, -⟩ | ⟨-, hmade⟩
      · rw [hn] at herr
        cases herr
      · exact ⟨hend, hmade⟩

end owes

end OtaUpgrade.Session
