import Mathlib
import OtaUpgrade.Proofs.Session.Accounts
import OtaUpgrade.Proofs.Session.CallScript

/-!
The calls of an upgrade conform to the protocol. They are the beginning of the script, or broken off
by the command to abort, and every step of the download is warranted by the event on which it is
taken: success on its own status allows the next command and the first chunk, an acknowledged chunk
the next one and verification. The link is closed on request before a download, and at the end.
-/
namespace OtaUpgrade.Session

/-- What warrants the calls made on an event after a run. -/
structure Warranted (t : Turn) (e : Event) : Prop where
  started : ∀ n, DeviceCall.command (.start n) ∈ Trace.calls (t.session.handle e).effects →
    t.session.phase = .prepareForDownload ∧ e.grants = true
  first : Trace.writes .data t.effects = [] →
    ∀ bytes, DeviceCall.write .data bytes ∈ Trace.calls (t.session.handle e).effects →
      t.session.phase = .startDownload ∧ e.grants = true
  /-- All but the first chunk follow on the acknowledgement of the one before. -/
  later : Trace.writes .data t.effects ≠ [] →
    ∀ bytes, DeviceCall.write .data bytes ∈ Trace.calls (t.session.handle e).effects →
      t.session.phase = .dataTransfer ∧ e.acknowledges = true
  verified : ∀ crc, DeviceCall.command (.verify crc) ∈ Trace.calls (t.session.handle e).effects →
    t.session.phase = .dataTransfer ∧ e.acknowledges = true ∧
      Trace.writes .data (t.session.handle e).effects = []
  single : (Trace.writes .data (t.session.handle e).effects).length ≤ 1
  disconnected : DeviceCall.disconnect ∈ Trace.calls (t.session.handle e).effects →
    ((∃ dfu, e = .abort dfu) ∧ t.session.phase.underWay = true ∧
        t.session.phase.isBeforeDownload = true) ∨
      t.session.phase ≠ .complete ∧ (t.session.handle e).session.phase = .complete

/-- A run of an upgrade conforms to the protocol. -/
structure Conforms (mode : Mode) (image : Option Image) (s : Session) (es : List Event) : Prop where
  imageless : image = none → Trace.talk (s.run es).effects = []
  scripted : ∀ i, image = some i → ∃ t,
    (∀ v size, (s.run es).session.Admits v size → t <+: callScript mode i v size) ∧
      (Trace.talk (s.run es).effects = t ∨
        DeviceCall.command mode.prepareCommand ∈ t ∧
          Trace.talk (s.run es).effects = t ++ [.command .abort])
  warranted : ∀ before e after, es = before ++ e :: after →
    (s.run before).crash? = none → Warranted (s.run before) e

/-! ## Chunks -/

section deed

variable {s s' : Session} {e : Event} {ds : List Effect}

/-- An event brings one chunk at most, and none along with the command to verify. -/
theorem Deed.writes_data (h : Deed s e s' ds) :
    (Trace.writes .data ds).length ≤ 1 ∧
      ∀ crc, DeviceCall.command (.verify crc) ∈ Trace.calls ds → Trace.writes .data ds = [] := by
  have none (hw : Trace.writes .data ds = []) : (Trace.writes .data ds).length ≤ 1 ∧
      ∀ crc, DeviceCall.command (.verify crc) ∈ Trace.calls ds → Trace.writes .data ds = [] :=
    ⟨by simp [hw], fun _ _ => hw⟩
  have one {bytes : Bytes} (hd : ds = [.call (.write .data bytes)]) :
      (Trace.writes .data ds).length ≤ 1 ∧
        ∀ crc, DeviceCall.command (.verify crc) ∈ Trace.calls ds → Trace.writes .data ds = [] := by
    subst hd
    refine ⟨Nat.le_refl 1, fun crc hv => ?_⟩
    exact absurd (List.mem_singleton.mp hv) (DeviceCall.command_ne_data _ _)
  cases h with
  | stays _ _ _ hd | discovers _ _ _ _ _ hd | notifies _ _ _ _ hd | prepares _ _ _ _ _ hd
  | starts _ _ _ _ _ _ hd | verifies _ _ _ _ _ _ _ _ _ _ _ hd =>
    exact none (by rw [hd]; rfl)
  | connects _ _ _ _ hd | reads _ _ _ _ _ hd =>
    obtain hd | hd := hd
    · exact none (by rw [hd]; rfl)
    · exact none (by rw [hd]; rfl)
  | transfers _ _ _ _ _ _ _ _ hd | next _ _ _ _ _ _ _ _ _ hd => exact one hd
  | finishes _ _ _ _ _ hc => exact none (writes_of_finishes hc _)
  | fails _ _ _ _ hc => exact none (writes_data_of_fails hc)

end deed

section sound

variable {s : Session} (h : s.Sound) {e : Event}

include h

/-- The first chunk goes out on the success of starting, any other on an acknowledgement. -/
theorem Sound.warrants_data {bytes : Bytes}
    (hx : DeviceCall.write .data bytes ∈ Trace.calls (s.handle e).effects) :
    s.phase = .startDownload ∧ e.grants = true ∨
      s.phase = .dataTransfer ∧ e.acknowledges = true := by
  generalize hc : DeviceCall.write .data bytes = c at hx
  cases h.asked (e := e) hx with
  | link hn => exact absurd hc.symm (hn _ _)
  | first hs hg => exact .inl ⟨hs, hg⟩
  | next hs hev => exact .inr ⟨hs, hev⟩
  | _ => exact absurd hc.symm (DeviceCall.command_ne_data _ _)

/-! ## Closing the link -/

omit h in
/-- On the way to a phase the link is closed at the end only. -/
theorem Poised.phase_of_disconnect {p : Phase} (hp : s.Poised p)
    (hx : DeviceCall.disconnect ∈ Trace.calls (s.proceed p).effects) :
    (s.proceed p).session.phase = .complete := by
  have hl := landing_complete hp
  generalize s.proceed p = t at hl hx
  cases hl with
  | noImage | noDevice => exact (hp.arrive_complete.recordError _).books_complete.1
  | unlinked => exact hp.arrive_complete.books_complete.1
  | broken | closed => rfl
  | connecting | askMesh => exact absurd hx List.not_mem_nil
  | skip =>
    have hl := landing_complete (hp.arrive_notify rfl)
    rw [Turn.effects_after, Trace.calls_append] at hx
    generalize (s.arrive .readAppInfo).proceed .enableNotification = t at hl hx
    cases hl with
    | notify => exact absurd (List.mem_singleton.mp hx) nofun
  | connect | discover | read | notify | prepare | start | transfer | verify | abort =>
    exact absurd (List.mem_singleton.mp hx) nofun

theorem Reply.of_disconnect (hf : s.finished = false) {t : Turn} (hr : Reply s e t)
    (hx : DeviceCall.disconnect ∈ Trace.calls t.effects) :
    ((∃ dfu, e = .abort dfu) ∧ s.phase.underWay = true ∧ s.phase.isBeforeDownload = true) ∨
      t.session.phase = .complete := by
  cases hr with
  | rest | written | asks | overflow => exact absurd hx List.not_mem_nil
  | advance ha =>
    rw [Turn.effects_after, Trace.calls_append, ← Trace.calls_dealings, ha.dealings] at hx
    exact .inr ((ha.poised h hf).phase_of_disconnect hx)
  | failure ha => exact .inr ((ha.poised h hf).phase_of_disconnect hx)
  | @closing d dfu hu hb => exact .inl ⟨⟨dfu, rfl⟩, hu, hb⟩
  | next =>
    rw [Turn.effects_after, Trace.calls_append, ← Trace.calls_dealings,
      s.dealings_chunkReport] at hx
    exact absurd (List.mem_singleton.mp hx) nofun

/-- The link is closed on request before a download, or at the end. -/
theorem Sound.of_disconnect (hx : DeviceCall.disconnect ∈ Trace.calls (s.handle e).effects) :
    ((∃ dfu, e = .abort dfu) ∧ s.phase.underWay = true ∧ s.phase.isBeforeDownload = true) ∨
      s.phase ≠ .complete ∧ (s.handle e).session.phase = .complete := by
  cases hf : s.finished with
  | true =>
    rw [handle_of_finished hf] at hx
    exact absurd hx List.not_mem_nil
  | false =>
    have hn := h.not_complete hf
    have hs := step_complete h hf e
    generalize s.handle e = t at hs hx
    cases hs with
    | reply _ hr => exact (hr.of_disconnect h hf hx).imp_right fun hp => ⟨hn, hp⟩
    | stale => exact absurd hx List.not_mem_nil
    | expired hd he hr =>
      have hfired := h.withTimer (h.not_idle_of_due hd) s.timer.fire
      have hfails := failureEvent?_fails he
      obtain ⟨⟨dfu, hev⟩, -⟩ | hp := hr.of_disconnect hfired hf hx
      · exact absurd hev (hfails.2.2.2.2.2.2.1 dfu)
      · exact .inr ⟨hn, hp⟩

end sound

/-! ## Runs -/

theorem Sound.alike_run {s : Session} (h : s.Sound) (es : List Event) :
    Alike s (s.run es).session := by
  induction es generalizing s with
  | nil => exact .refl s
  | cons e es ih =>
    cases hx : (s.handle e).crash? with
    | some c =>
      rw [run_crash hx]
      exact h.alike e
    | none =>
      rw [run_event hx]
      exact (h.alike e).trans (ih (h.handle e hx))

section fresh

variable (config : Config) (mode : Mode) (image : Option Image) (device : Option Device)
  (collaborators : Collaborators) {es : List Event}

/-- The chunks written in a run are those that the books count. -/
theorem writes_run {guard : Guard}
    (hx : ((fresh config mode image device collaborators guard).run es).crash? = none)
    {i : Image} (hi : image = some i) :
    Trace.writes .data ((fresh config mode image device collaborators guard).run es).effects
      = i.chunks
          ((fresh config mode image device collaborators guard).run es).session.transfer.chunkSize
          ((fresh config mode image device collaborators guard).run es).session.transfer.chunksSent
        := by
  rw [← live_map_event] at hx ⊢
  have hacc := (Accounts.fresh config mode image device collaborators guard).live _ hx
  have hsound := Sound.fresh config mode image device collaborators guard
  have hd := hacc.data i (((hsound.alike_live _ hx).image).trans hi)
  rwa [List.nil_append, deeds_chronicle] at hd

theorem warranted_run {guard : Guard}
    (hx : ((fresh config mode image device collaborators guard).run es).crash? = none) (e : Event) :
    Warranted ((fresh config mode image device collaborators guard).run es) e := by
  have h : ((fresh config mode image device collaborators guard).run es).session.Sound := by
    rw [← live_map_event] at hx ⊢
    exact (Sound.fresh ..).live _ hx
  have himage := ((Sound.fresh config mode image device collaborators guard).alike_run es).image
  have hchunks := @writes_run config mode image device collaborators es guard hx
  generalize (fresh config mode image device collaborators guard).run es = t at h himage hchunks
  have hdeed := (h.deed e).writes_data
  rw [Trace.writes_dealings, Trace.calls_dealings] at hdeed
  constructor
  case started => exact fun n hm => h.phase_of_asks_start (e := e) hm
  case first =>
    intro hnone bytes hm
    refine (h.warrants_data hm).resolve_right fun ⟨hp, _⟩ => ?_
    -- in the transfer a chunk was written already
    obtain ⟨i, hi⟩ := h.imaged (by rw [hp]; rfl)
    obtain ⟨size, count, -, -, ht⟩ := h.flying hp hi
    have hlength := congrArg List.length (hchunks (himage.symm.trans hi))
    rw [hnone, Image.length_chunks, ht, Transfer.chunksSent_after] at hlength
    cases hlength
  case later =>
    intro hsome bytes hm
    refine (h.warrants_data hm).resolve_left fun ⟨hp, _⟩ => hsome ?_
    obtain ⟨i, hi⟩ := h.imaged (by rw [hp]; rfl)
    have hst := h.stands i hi
    rw [hp] at hst
    obtain ⟨size, -, ht⟩ := hst
    rw [hchunks (himage.symm.trans hi), ht]
    rfl
  case verified =>
    intro crc hm
    obtain ⟨hp, hack, -⟩ := h.verifies_of_asks (e := e) hm
    exact ⟨hp, hack, hdeed.2 crc hm⟩
  case single => exact hdeed.1
  case disconnected => exact h.of_disconnect

/-- Every run of an upgrade that has its guard for itself conforms to the protocol. -/
theorem run_conforms (es : List Event) :
    Conforms mode image (fresh config mode image device collaborators {}) es := by
  have hsound := Sound.fresh config mode image device collaborators {}
  have halike := hsound.alike_run es
  have hkeeps := (hsound.conduct_run (.fresh ..) es).keeps
  rw [List.nil_append] at hkeeps
  constructor
  case imageless => exact fun hi => hkeeps.imageless (halike.image.trans hi)
  case scripted =>
    intro i hi
    obtain ⟨t, ht, hk⟩ := hkeeps.scripted i (halike.image.trans hi)
    rw [halike.mode] at hk
    refine ⟨t, fun v size ha => ?_, hk⟩
    have := ht v size ha
    rwa [halike.mode] at this
  case warranted =>
    rintro before e after - hx
    exact warranted_run config mode image device collaborators hx e

end fresh

/-- Three bytes in one chunk, up to the answer to the command to verify. -/
def shortRun : List Event :=
  [.start, .connection true none, .service (some .legacy) none, .notifications true none,
    .written .controlPoint (.ok (some [0])), .written .controlPoint (.ok (some [0])),
    .written .data (.ok none)]

/-- Nobody has asked to stop when a successful upgrade closes the link. -/
theorem closes_link_on_success :
    let t := (fresh {} .direct (some ⟨#[1, 2, 3], by decide, by decide⟩)
      (some { name := "node" }) {} {}).run shortRun
    t.crash? = none ∧ t.session.phase = .verify ∧
      DeviceCall.disconnect
        ∈ Trace.calls (t.session.handle (.written .controlPoint (.ok (some [0])))).effects ∧
      ∀ dfu, Event.written .controlPoint (.ok (some [0])) ≠ .abort dfu := by
  refine ⟨by decide +kernel, by decide +kernel, by decide +kernel, fun _ => nofun⟩

end OtaUpgrade.Session
