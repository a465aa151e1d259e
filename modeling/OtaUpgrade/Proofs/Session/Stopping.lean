import Mathlib
import OtaUpgrade.Proofs.Session.Advancing
import OtaUpgrade.Proofs.Session.Chronicle

/-!
What a request to stop achieves. In a download, or before anything has begun, it is final: nothing of
the firmware is written any more. Between connecting and the download the session only closes the
link and stays where it is, so a report that was on its way already can still take it on; the download
goes on exactly if notifications are reported to be on before the closed link is.
-/
namespace OtaUpgrade

/-- The call takes the download itself on: it writes a chunk, or the command to prepare, to start or
to verify the download. -/
def DeviceCall.downloads : DeviceCall → Bool
  | .write .data _ => true
  | .write .controlPoint (b :: _) =>
    [Opcode.prepareDownload, .startDownload, .verify].any fun o => o.byte == b
  | _ => false

theorem Mode.downloads_prepareCommand (m : Mode) :
    (DeviceCall.command m.prepareCommand).downloads = true := by
  cases m <;> rfl

namespace Phase

/-- The upgrade is over or about to be. -/
def isEnding (p : Phase) : Bool :=
  p == abort || p == complete

theorem downloads_of_isEnding {p : Phase} (h : p.isEnding = true) :
    p.canAbort = false ∧ p ≠ enableNotification := by
  cases p with
  | abort | complete => exact ⟨rfl, nofun⟩
  | _ => cases h

theorem canAbort_of_isBeforeDownload {p : Phase} (h : p.isBeforeDownload = true) :
    p.canAbort = false := by
  cases p <;> first | rfl | cases h

end Phase

namespace Session

section deed

variable {s s' : Session} {e : Event} {ds : List Effect}

/-- A download begins with the report that notifications are on; in it success or an acknowledged
chunk takes it on. -/
theorem Deed.of_downloads (h : Deed s e s' ds) {c : DeviceCall} (hc : c ∈ Trace.calls ds)
    (hd : c.downloads = true) :
    s.phase = .enableNotification ∧ e = .notifications true none ∨
      s.phase.canAbort = true ∧ (e.grants = true ∨ e.acknowledges = true) := by
  cases h.asked hc with
  | link hl =>
    cases c with
    | write channel bytes => exact absurd rfl (hl channel bytes)
    | connect | disconnect | discover | enableNotifications | read => cases hd
  | prepare hs hev => exact .inl ⟨hs, hev⟩
  | start hs hg | first hs hg => exact .inr ⟨by rw [hs]; rfl, .inl hg⟩
  | next hs hev | verify hs hev => exact .inr ⟨by rw [hs]; rfl, .inr hev⟩
  | abort => cases hd

theorem Deed.isEnding (h : Deed s e s' ds) (hp : s.phase.isEnding = true) :
    s'.phase.isEnding = true := by
  have absurdly {q : Phase} (hs : s.phase = q) (hq : q.isEnding = false) : False := by
    rw [hs, hq] at hp
    cases hp
  cases h with
  | stays hs => rwa [hs]
  | notifies hs =>
    obtain hs | ⟨hs, -⟩ := hs
    · exact (absurdly hs rfl).elim
    · exact (absurdly hs rfl).elim
  | finishes _ _ hs =>
    rw [hs]
    rfl
  | fails hs =>
    obtain hs | hs | ⟨-, hs⟩ := hs
    · rw [hs]
      rfl
    · rw [hs]
      rfl
    · rwa [hs]
  | connects hs | discovers hs | reads hs | prepares hs | starts hs | transfers hs | next hs
  | verifies hs => exact (absurdly hs rfl).elim

/-- Short of that report a session stays before the download, or ends. -/
theorem Deed.isBeforeDownload (h : Deed s e s' ds) (hp : s.phase.isBeforeDownload = true)
    (hn : ¬ (s.phase = .enableNotification ∧ e = .notifications true none)) :
    s'.phase.isBeforeDownload = true ∨ s'.phase.isEnding = true := by
  have absurdly {q : Phase} (hs : s.phase = q) (hq : q.isBeforeDownload = false) : False := by
    rw [hs, hq] at hp
    cases hp
  cases h with
  | stays hs =>
    left
    rwa [hs]
  | connects _ hs | discovers _ _ hs | reads _ _ hs | notifies _ hs =>
    left
    rw [hs]
    rfl
  | prepares hs hev => exact absurd ⟨hs, hev⟩ hn
  | fails hs =>
    obtain hs | hs | ⟨-, hs⟩ := hs
    · right
      rw [hs]
      rfl
    · right
      rw [hs]
      rfl
    · left
      rwa [hs]
  | starts hs | transfers hs | next hs | verifies hs | finishes hs => exact (absurdly hs rfl).elim

end deed

section life

variable {s : Session}

/-- A request to stop is at once the end of what cannot be resumed. -/
theorem Sound.handle_abort (h : s.Sound) (hf : s.finished = false) (dfu : Bool) :
    (s.handle (.abort dfu)).session.phase.isEnding = true ∨
      s.phase.underWay = true ∧ s.phase.isBeforeDownload = true ∧
        (s.handle (.abort dfu)).session.phase = s.phase := by
  have hs := step_complete h hf (.abort dfu)
  have hd := h.deed (.abort dfu)
  generalize s.handle (.abort dfu) = t at hs hd
  cases hs with
  | reply _ hr =>
    cases hr with
    | rest hx =>
      left
      have hp : s.phase.isEnding = true := by
        simp only [expects, Bool.and_eq_false_iff, bne_eq_false_iff_eq] at hx
        simpa [Phase.isEnding] using hx
      exact hd.isEnding hp
    | advance ha =>
      cases ha with
      | prepared _ hg | started _ hg | verified _ hg => cases hg
      | gaveUp _ he => simp [Event.answer?] at he
    | failure ha =>
      have hpoised := ha.poised h hf
      cases ha with
      | unprepared _ he | unstarted _ he | unverified _ he => cases he
      | stopped =>
        left
        rw [hpoised.books_complete.1]
        rfl
      | stoppedDownload =>
        left
        obtain hp | hp := (hpoised.fails (by simp) (.inl rfl)).1
        · rw [hp]
          rfl
        · rw [hp]
          rfl
    | closing hu hb => exact .inr ⟨hu, hb, by simp⟩

/-- A call that an event has not brought is made later. -/
theorem call_later {e : Event} {rest : List Happening} {c : DeviceCall}
    (hc : c ∈ Trace.calls (s.live (.event e :: rest)).effects)
    (hn : c ∉ Trace.calls (s.handle e).effects) :
    (s.handle e).crash? = none ∧ c ∈ Trace.calls ((s.handle e).session.live rest).effects := by
  cases hx : (s.handle e).crash? with
  | some crash =>
    rw [live_crash hx] at hc
    exact absurd hc hn
  | none =>
    rw [live_event hx, Turn.effects_after, Trace.calls_append, List.mem_append] at hc
    exact ⟨rfl, hc.resolve_left hn⟩

theorem Sound.handle_downloads (h : s.Sound) {e : Event} {c : DeviceCall}
    (hc : c ∈ Trace.calls (s.handle e).effects) (hd : c.downloads = true) :
    s.phase = .enableNotification ∧ e = .notifications true none ∨
      s.phase.canAbort = true ∧ (e.grants = true ∨ e.acknowledges = true) :=
  (h.deed e).of_downloads (by rwa [Trace.calls_dealings]) hd

/-- Once an upgrade ends nothing takes the download on. -/
theorem Sound.live_isEnding (h : s.Sound) (hp : s.phase.isEnding = true) (hs : List Happening)
    {c : DeviceCall} (hc : c ∈ Trace.calls (s.live hs).effects) : c.downloads = false := by
  induction hs generalizing s with
  | nil => cases hc
  | cons x hs ih =>
    cases x with
    | guard guard => exact ih (h.withGuard guard) hp hc
    | event e =>
      by_contra hd
      have hd : c.downloads = true := by simpa using hd
      have hnow : c ∉ Trace.calls (s.handle e).effects := by
        intro hm
        obtain ⟨ha, he⟩ := Phase.downloads_of_isEnding hp
        obtain ⟨hn, -⟩ | ⟨hn, -⟩ := h.handle_downloads hm hd
        · exact he hn
        · rw [ha] at hn
          cases hn
      obtain ⟨hx, hlater⟩ := call_later hc hnow
      rw [ih (h.handle e hx) ((h.deed e).isEnding hp) hlater] at hd
      cases hd

/-- Before a download the device is asked to take it on only once notifications are reported to be
on. -/
theorem Sound.live_isBeforeDownload (h : s.Sound) (hp : s.phase.isBeforeDownload = true)
    (hs : List Happening) {c : DeviceCall} (hc : c ∈ Trace.calls (s.live hs).effects)
    (hd : c.downloads = true) :
    ∃ between rest, hs = between ++ .event (.notifications true none) :: rest ∧
      (s.live between).crash? = none ∧
      (s.live between).session.phase = .enableNotification := by
  induction hs generalizing s with
  | nil => cases hc
  | cons x hs ih =>
    cases x with
    | guard guard =>
      obtain ⟨between, rest, rfl, hb⟩ := ih (h.withGuard guard) hp hc
      exact ⟨.guard guard :: between, rest, rfl, hb⟩
    | event e =>
      by_cases hn : s.phase = .enableNotification ∧ e = .notifications true none
      · obtain ⟨hq, rfl⟩ := hn
        exact ⟨[], hs, rfl, rfl, hq⟩
      · have hnow : c ∉ Trace.calls (s.handle e).effects := by
          intro hm
          obtain hm | ⟨hm, -⟩ := h.handle_downloads hm hd
          · exact hn hm
          · rw [Phase.canAbort_of_isBeforeDownload hp] at hm
            cases hm
        obtain ⟨hx, hlater⟩ := call_later hc hnow
        obtain hb | he := (h.deed e).isBeforeDownload hp hn
        · obtain ⟨between, rest, rfl, hcrash⟩ := ih (h.handle e hx) hb hlater
          refine ⟨.event e :: between, rest, rfl, ?_⟩
          rwa [live_event hx]
        · rw [(h.handle e hx).live_isEnding he hs hlater] at hd
          cases hd

/-- The report that notifications are on has the download prepared. -/
theorem Sound.live_notifying (h : s.Sound) (hp : s.phase = .enableNotification)
    (rest : List Happening) :
    ∃ c ∈ Trace.calls (s.live (.event (.notifications true none) :: rest)).effects,
      c.downloads = true := by
  have hf : s.finished = false := by
    by_contra hf
    have hq := h.finished_iff.mp (by simpa using hf)
    rw [hp] at hq
    cases hq
  obtain ⟨d, hd⟩ := h.equipped (by rw [hp]; rfl)
  have hadvance : Advance s (.notifications true none) _ _ _ := .notifying hp
  have hnow : DeviceCall.command s.mode.prepareCommand
      ∈ Trace.calls (s.handle (.notifications true none)).effects := by
    rw [hadvance.handle h hf, Turn.after_nil, proceed,
      enter_prepareForDownload (s := s.cancelTimer) hd, settle_after, settle_ask]
    exact List.mem_singleton_self _
  refine ⟨_, ?_, s.mode.downloads_prepareCommand⟩
  cases hx : (s.handle (.notifications true none)).crash? with
  | some crash => rwa [live_crash hx]
  | none =>
    rw [live_event hx, Turn.effects_after, Trace.calls_append]
    exact List.mem_append_left _ hnow

/-- When a request to stop comes at any point of an upgrade that is not over, the download is taken
on afterwards exactly if the request came between connecting and the download, and notifications
are reported to be on while the session is still where it switches them on. -/
theorem downloads_after_abort_iff (config : Config) (mode : Mode) (image : Option Image)
    (device : Option Device) (collaborators : Collaborators) (guard : Guard)
    (before : List Happening)
    (hs : s = ((fresh config mode image device collaborators guard).live before).session)
    (hc : ((fresh config mode image device collaborators guard).live before).crash? = none)
    (hf : s.finished = false) (dfu : Bool) (after : List Happening) :
    (∃ c ∈ Trace.calls (s.live (.event (.abort dfu) :: after)).effects, c.downloads = true) ↔
      s.phase.underWay = true ∧ s.phase.isBeforeDownload = true ∧
        ∃ between rest, after = between ++ .event (.notifications true none) :: rest ∧
          (s.live (.event (.abort dfu) :: between)).crash? = none ∧
          (s.live (.event (.abort dfu) :: between)).session.phase = .enableNotification := by
  have h : s.Sound := by
    rw [hs]
    exact (Sound.fresh ..).live before hc
  constructor
  · rintro ⟨c, hc, hd⟩
    -- the request itself brings nothing of the download
    have hnow : c ∉ Trace.calls (s.handle (.abort dfu)).effects := by
      intro hm
      obtain ⟨-, he⟩ | ⟨-, he | he⟩ := h.handle_downloads hm hd
      · cases he
      · cases he
      · cases he
    obtain ⟨hx, hlater⟩ := call_later hc hnow
    have hsound := h.handle _ hx
    obtain he | ⟨hu, hb, hp⟩ := h.handle_abort hf dfu
    · rw [hsound.live_isEnding he after hlater] at hd
      cases hd
    · obtain ⟨between, rest, rfl, hcrash, hphase⟩ :=
        hsound.live_isBeforeDownload (by rwa [hp]) after hlater hd
      refine ⟨hu, hb, between, rest, rfl, ?_, ?_⟩
      · rwa [live_event hx]
      · rwa [live_event hx]
  · rintro ⟨-, -, between, rest, rfl, hcrash, hphase⟩
    obtain ⟨c, hc, hd⟩ := (h.live _ hcrash).live_notifying hphase rest
    refine ⟨c, ?_, hd⟩
    rw [← List.cons_append, live_append s _ _ hcrash, Turn.effects_after, Trace.calls_append]
    exact List.mem_append_right _ hc

end life

/-! ## A request that comes too early -/

/-- An upgrade of three bytes, told what there is before notifications are on. -/
def switching : Session :=
  ((fresh {} .direct (Image.ofBytes [1, 2, 3]).toOption (some { name := "node" }) {} {}).live
    [.event .start, .event (.connection true none),
      .event (.service (some .legacy) none)]).session

theorem downloads_after_abort_switching :
    (switching.finished = false ∧ switching.phase = .enableNotification) ∧
      ∃ c ∈ Trace.calls (switching.live
        [.event (.abort false), .event (.notifications true none)]).effects, c.downloads = true := by
  refine ⟨⟨by decide +kernel, by decide +kernel⟩, ?_⟩
  exact (downloads_after_abort_iff (s := switching) {} .direct
    (some ⟨#[1, 2, 3], by decide, by decide⟩) (some { name := "node" }) {} {}
    [.event .start, .event (.connection true none), .event (.service (some .legacy) none)] rfl
    (by decide +kernel) (by decide +kernel) false [.event (.notifications true none)]).mpr
    ⟨by decide +kernel, by decide +kernel, [], [], rfl, by decide +kernel, by decide +kernel⟩

/-- The request closes the link, and the report that was on its way has the download prepared all the
same. -/
theorem prepares_after_abort :
    switching.finished = false ∧
      Trace.calls (switching.live
          [.event (.abort false), .event (.notifications true none)]).effects
        = [.disconnect, .command .prepare] := by
  decide +kernel

end Session
end OtaUpgrade
