import Mathlib
import OtaUpgrade.Proofs.Session.DeviceView
import OtaUpgrade.Proofs.Session.Numbering
import OtaUpgrade.Session.Runner

/-!
An upgrade under way never waits without a timeout, as long as no one else takes answers off its
guard: `Timed` says so and every event keeps it. The one thing that could leave a session waiting
for ever would be an expired timeout whose event it does not expect; `expects_failureEvent?` rules
that out.
-/
namespace OtaUpgrade

theorem Timeouts.duration?_isSome (timeouts : Timeouts) {p : Phase} (h : p.underWay = true) :
    ∃ ms, timeouts.duration? p = some ms := by
  cases p <;> first | exact ⟨_, rfl⟩ | cases h

namespace Session

/-- The timeout outstanding belongs to the phase. -/
def Armed (s : Session) : Prop :=
  ∃ x, s.timer.armed = some x ∧ x.phase = s.phase ∧
    s.config.timeouts.duration? s.phase = some x.ms

/-- The timer is in order, and armed as long as the upgrade is under way. -/
structure Timed (s : Session) : Prop where
  regular : s.timer.Regular
  armed : s.phase.underWay = true → s.Armed
  unarmed : s.phase.underWay = false → s.timer.armed = none
  /-- An answer of the mesh core that is waited for will be taken. -/
  asking : s.wait = .meshMetadata → s.guard.has .componentMetadata = true

theorem Timed.fresh (config : Config) (mode : Mode) (image : Option Image)
    (device : Option Device) (collaborators : Collaborators) (guard : Guard) :
    (fresh config mode image device collaborators guard).Timed :=
  ⟨.start, nofun, fun _ => rfl, nofun⟩

/-- A session whose timer was armed for its phase. -/
theorem Timed.of_arm {s : Session} {t : Timer} (ht : t.Regular)
    (hs : s.timer = t.arm s.config.timeouts s.phase)
    (ha : s.wait = .meshMetadata → s.guard.has .componentMetadata = true) : s.Timed where
  regular := hs ▸ ht.arm _ _
  armed hu := by
    obtain ⟨ms, hms⟩ := s.config.timeouts.duration?_isSome hu
    exact ⟨_, by rw [hs, Timer.arm_eq hms], rfl, hms⟩
  unarmed hu := by
    have hd : s.config.timeouts.duration? s.phase = none := by
      cases hp : s.phase <;> rw [hp] at hu <;> first | rfl | cases hu
    rw [hs, Timer.arm_of_none hd, Timer.armed_cancel]
  asking := ha

section landing

variable {s : Session} {p : Phase} (ht : s.timer.Regular)

include ht

theorem Timed.arrive : (s.arrive p).Timed :=
  .of_arm ht (s.timer_arrive p) nofun

/-- Whatever comes of entering a phase, the timeout of the last phase entered is armed. -/
theorem Poised.timed (h : s.Poised p) :
    (s.proceed p).session.Timed ∧ Timer.Later s.timer (s.proceed p).session.timer := by
  have arrived (r : Session) (q : Phase) : Timer.Later r.timer (r.arrive q).timer := by
    rw [timer_arrive]
    exact .arm _ _ _
  have ends {r : Session} (hr : r.Poised .complete) (ht : r.timer.Regular) :
      (r.proceed .complete).session.Timed ∧
        Timer.Later r.timer (r.proceed .complete).session.timer := by
    have hl := landing_complete hr
    generalize r.proceed .complete = t at hl
    cases hl with
    | broken => exact ⟨.arrive ht, arrived r .complete⟩
    | closed => exact ⟨.of_arm ht (r.timer_arrive .complete) nofun, arrived r .complete⟩
  have notifies {r : Session} (hr : r.Poised .enableNotification) (ht : r.timer.Regular) :
      (r.proceed .enableNotification).session.Timed ∧
        Timer.Later r.timer (r.proceed .enableNotification).session.timer := by
    have hl := landing_complete hr
    generalize r.proceed .enableNotification = t at hl
    cases hl
    exact ⟨.arrive ht, arrived r .enableNotification⟩
  have hreg : (s.arrive p).timer.Regular := (Timed.arrive ht).regular
  have fails (cause : Cause) :
      (((s.arrive p).recordError cause).proceed .complete).session.Timed ∧
        Timer.Later s.timer (((s.arrive p).recordError cause).proceed .complete).session.timer := by
    have hend := ends (h.arrive_complete.recordError cause) (by simpa using hreg)
    rw [timer_recordError] at hend
    exact ⟨hend.1, (arrived s p).trans hend.2⟩
  have hl := landing_complete h
  generalize s.proceed p = t at hl
  -- a landing that waits has the timer, phase and configuration of arriving
  have waits {r : Session} (ha : r.timer = (s.arrive p).timer) (hp : r.phase = p)
      (hc : r.config = s.config)
      (hw : r.wait = .meshMetadata → r.guard.has .componentMetadata = true) :
      r.Timed ∧ Timer.Later s.timer r.timer := by
    refine ⟨.of_arm ht ?_ hw, ha ▸ arrived s p⟩
    rw [ha, hp, hc, timer_arrive]
  cases hl with
  | noImage | noDevice => exact fails _
  | askMesh => exact waits rfl rfl rfl fun _ => Guard.has_set s.guard true .componentMetadata
  | skip =>
    have hn := notifies (h.arrive_notify rfl) hreg
    exact ⟨hn.1, (arrived s .readAppInfo).trans hn.2⟩
  | unlinked =>
    have hend := ends h.arrive_complete hreg
    exact ⟨hend.1, (arrived s .abort).trans hend.2⟩
  | _ => exact waits rfl rfl rfl nofun

end landing

/-! ## Every step keeps the timeout -/

theorem Advance.timer {s s' : Session} {e : Event} {es : List Effect} {p : Phase}
    (h : Advance s e s' es p) : s'.timer = s.timer ∨ s'.timer = s.timer.cancel := by
  cases h with
  | start => exact .inl rfl
  | gaveUp => exact .inr (by simp [cancelTimer])
  | _ => exact .inr rfl

theorem Failure.timer {s s' : Session} {e : Event} {cause : Cause} {p : Phase}
    (h : Failure s e s' cause p) : s'.timer = s.timer ∨ s'.timer = s.timer.cancel := by
  cases h with
  | stopped | stoppedDownload => exact .inl rfl
  | _ => exact .inr rfl

/-- What is kept of an unexpected event does not take the expected answer off the guard. -/
theorem Timed.noting {s : Session} (h : s.Timed) {e : Event} (hx : s.expects e = false) :
    (s.noting e).Timed where
  regular := by simpa using h.regular
  armed := by simpa [Armed] using h.armed
  unarmed := by simpa using h.unarmed
  asking := by
    intro hw
    rw [wait_noting] at hw
    have hg := h.asking hw
    cases e with
    | meshMetadata metadata => simp [expects, hg, hw] at hx
    | connection connected error =>
      cases connected <;> exact (Guard.has_set_of_ne _ _ (by decide)).trans hg
    | _ => exact hg

section steps

variable {s : Session} {e : Event} {t : Turn} (h : s.Sound) (hf : s.finished = false)

include h hf

/-- Whatever comes of an event, the timeout is armed afterwards, if the step arms one itself or the
one before was kept. -/
theorem Reply.timed (hr : Reply s e t) (hc : t.crash? = none) (ht : s.timer.Regular)
    (hkeep : (s.expects e = false ∨ (∃ dfu, e = .abort dfu) ∨
      e = .written .controlPoint (.ok none)) → s.Timed) :
    t.session.Timed ∧ Timer.Later s.timer t.session.timer := by
  -- entering a phase arms its timeout, whether or not the old one was given up before
  have enters {r : Session} {p : Phase} (hr : r.Poised p)
      (hrt : r.timer = s.timer ∨ r.timer = s.timer.cancel) :
      (r.proceed p).session.Timed ∧ Timer.Later s.timer (r.proceed p).session.timer := by
    rcases hrt with hrt | hrt
    · have := hr.timed (by rw [hrt]; exact ht)
      rwa [hrt] at this
    · have := hr.timed (by rw [hrt]; exact ht.cancel)
      rw [hrt] at this
      exact ⟨this.1, (Timer.Later.cancel _).trans this.2⟩
  cases hr with
  | rest hx =>
    refine ⟨(hkeep (.inl hx)).noting hx, ?_⟩
    show Timer.Later s.timer (s.noting e).timer
    rw [timer_noting]
    exact .refl _
  | advance ha => exact enters (ha.poised h hf) ha.timer
  | failure ha => exact enters (ha.poised h hf) (by simpa using ha.timer)
  | @closing d dfu hu hb hd =>
    have hk := hkeep (.inr (.inl ⟨dfu, rfl⟩))
    have hn := hk.armed
    refine ⟨⟨by simpa using hk.regular, ?_, by simpa using hk.unarmed, ?_⟩, ?_⟩
    · simpa [Armed] using hk.armed
    · simpa [Session.noting] using hk.asking
    · simpa using Timer.Later.refl s.timer
  | written =>
    have hk := hkeep (.inr (.inr rfl))
    exact ⟨⟨hk.regular, hk.armed, hk.unarmed, nofun⟩, .refl _⟩
  | asks =>
    exact ⟨.of_arm ht.cancel rfl fun _ => Guard.has_set s.guard true .componentMetadata,
      (Timer.Later.cancel _).trans (.arm _ _ _)⟩
  | next => exact ⟨.of_arm ht.cancel rfl nofun, (Timer.Later.cancel _).trans (.arm _ _ _)⟩
  | overflow => cases hc

omit hf in
/-- The event of an expired timeout is the one that is waited for. -/
theorem expects_failureEvent? (ha : s.wait = .meshMetadata →
    s.guard.has .componentMetadata = true) {error : LinkError}
    (he : s.failureEvent? error = some e) : s.expects e = true := by
  have hw := h.awaits
  unfold failureEvent? at he
  cases hp : s.phase <;> rw [hp] at hw <;> simp only [hp] at he
  case idle | complete => cases he
  -- two answers can be waited for here, and the timeout stands for the one that is
  case readAppInfo =>
    cases hwait : s.wait <;> rw [hwait] at hw <;> simp [hwait] at he <;> try cases hw
    · subst he
      simp [expects, hwait]
    · subst he
      simp [expects, hwait, ha hwait]
  case dataTransfer =>
    cases he
    simp [expects, h.chunkAck_iff.mpr hp]
  all_goals
    cases he
    simp [expects, hp, Phase.underWay, commandOf?]

end steps

/-- Every event keeps the timeout, an expired one included. -/
theorem Timed.handle {s : Session} (ht : s.Timed) (h : s.Sound) (e : Event)
    (hc : (s.handle e).crash? = none) :
    (s.handle e).session.Timed ∧ Timer.Later s.timer (s.handle e).session.timer := by
  cases hf : s.finished with
  | true =>
    rw [handle_of_finished hf]
    exact ⟨ht, .refl _⟩
  | false =>
    have hs := step_complete h hf e
    generalize s.handle e = t at hs hc
    cases hs with
    | reply _ hr => exact hr.timed h hf hc ht.regular fun _ => ht
    | stale => exact ⟨ht, .refl _⟩
    | @expired id x e t hd he hr =>
      have hfire : s.timer.fire.Regular := ht.regular.fire (Timer.isSome_of_due hd)
      have hfired := h.withTimer (h.not_idle_of_due hd) s.timer.fire
      have hx := expects_failureEvent? hfired ht.asking he
      obtain ⟨-, -, -, -, -, hw, ha, -⟩ := failureEvent?_fails he
      -- nothing is armed any more, so keeping the timeout would not do; but the event is expected
      have hr := hr.timed hfired hf hc hfire fun hk => by
        rcases hk with hn | ⟨dfu, rfl⟩ | rfl
        · rw [hx] at hn
          cases hn
        · exact absurd rfl (ha dfu)
        · exact absurd rfl hw
      exact ⟨hr.1, (Timer.Later.fire _).trans hr.2⟩

end Session
end OtaUpgrade
