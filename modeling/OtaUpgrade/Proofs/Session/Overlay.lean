import Mathlib
import OtaUpgrade.Proofs.Session.Entries
import OtaUpgrade.Proofs.Session.Hosted
import OtaUpgrade.Proofs.Session.Modes

/-!
A direct upgrade and an upload for mesh DFU side by side, over all that can happen to both. The
upload is told apart by its one command with metadata, by what it does not report of chunks and by
its signals at the end; `dfu_overlays_direct` says that by nothing else, with `Host.Overlays` as
the relation that every event keeps. The reports of chunks are known by what they say
(`Passage.ofChunks`), so that they can be dropped from a whole trace.
-/
namespace OtaUpgrade

/-- The report of an acknowledged chunk. The transfer itself is entered with nothing transferred. -/
def Report.ofChunk : Report → Bool
  | .progress p => p.phase == .dataTransfer && 0 < p.transferred
  | _ => false

/-- The effect reports an acknowledged chunk. -/
def Effect.ofChunk (x : Effect) : Bool := x.report?.any Report.ofChunk

/-- The reports of acknowledged chunks. -/
def Trace.ofChunks (es : List Effect) : List Effect := es.filter Effect.ofChunk

namespace Trace

@[simp] theorem ofChunks_append (as bs : List Effect) :
    ofChunks (as ++ bs) = ofChunks as ++ ofChunks bs :=
  List.filter_append ..

end Trace

namespace Session

variable {s : Session} {e : Event} {t : Turn} {m : DfuMetadata} {device : Option Device}

/-- No chunk is reported on entering a phase. -/
theorem ofChunk_arrival {p : Phase} (hp : p = .dataTransfer → s.transfer.offset = 0) :
    (s.arrive p).arrival.ofChunk = false := by
  by_cases hq : p = .dataTransfer
  · simp [Effect.ofChunk, arrival, Effect.report?, Report.ofChunk, progress, hp hq]
  · simp [Effect.ofChunk, arrival, Effect.report?, Report.ofChunk, progress, hq]

theorem ofChunks_parting : Trace.ofChunks (s.parting.map .call) = [] := by
  unfold parting
  split <;> rfl

theorem ofChunks_closingSignals : Trace.ofChunks s.closingSignals = [] := by
  unfold closingSignals
  split
  · rfl
  · split
    · split <;> rfl
    · rfl

theorem ofChunks_farewell : Trace.ofChunks s.farewell = [] := by
  rw [farewell, Trace.ofChunks_append]
  cases s.device.isSome <;> exact s.closed.ofChunks_closingSignals

theorem Halt.ofChunks {p : Phase} (h : Halt s p t) : Trace.ofChunks t.effects = [] := by
  have told {p : Phase} (hp : p = .dataTransfer → s.transfer.offset = 0) (es : List Effect) :
      Trace.ofChunks ((s.arrive p).arrival :: es) = Trace.ofChunks es :=
    List.filter_cons_of_neg (by simp [ofChunk_arrival hp])
  cases h with
  | transfer hi hd pos ht => exact told (fun _ => by simp [ht]) _
  | broken hb => exact s.ofChunks_parting
  | closed hb =>
    show Trace.ofChunks (s.parting.map Effect.call ++ s.farewell) = []
    rw [Trace.ofChunks_append, ofChunks_parting, ofChunks_farewell]
    rfl
  | _ =>
    refine told ?_ _
    nofun

theorem Slip.ofChunks {r : Session} {p q : Phase} (h : Slip s p q r t) :
    Trace.ofChunks t.effects = [] := by
  have told {p : Phase} (hp : p ≠ .dataTransfer) :
      Trace.ofChunks [(s.arrive p).arrival] = [] :=
    List.filter_cons_of_neg (by simp [ofChunk_arrival (s := s) fun h => absurd h hp])
  cases h with
  | _ =>
    refine told ?_
    nofun

/-- The report of an acknowledged chunk counts as one, as every chunk has a byte at least. -/
theorem Sound.ofChunks_acknowledgement (hs : s.Sound) (e : Event) :
    Trace.ofChunks (s.acknowledgement e) = s.acknowledgement e := by
  unfold acknowledgement
  split
  · next hp =>
    obtain ⟨image, hi⟩ := hs.imaged (by rw [hp.1]; rfl)
    obtain ⟨size, count, pos, lt, ht⟩ := hs.flying hp.1 hi
    have hpos : 0 < s.transfer.inFlight := by
      rw [ht, Transfer.inFlight_after_succ lt]
      omega
    refine List.filter_cons_of_pos ?_
    simp [Effect.ofChunk, Effect.report?, Report.ofChunk, progress, acknowledged, cancelTimer,
      hp.1]
    omega
  · rfl

/-- A chunk that is acknowledged is reported before all else. -/
theorem Move.ofChunks (hd : s.Plain device) {p : Phase} {r : Session} (h : Move s e p r t) :
    Trace.ofChunks t.effects = Trace.ofChunks (s.acknowledgement e) := by
  cases h with
  | advance ha =>
    cases ha with
    | transferred hp =>
      rw [← hd.chunkReport hp rfl]
      exact congrArg Trace.ofChunks (List.append_nil _)
    | prepared hp | started hp | verified hp | gaveUp hp =>
      rw [acknowledgement_of_phase (by rw [hp]; nofun)]
      rfl
    | _ =>
      rw [acknowledgement_of_not rfl]
      rfl
  | failure hf =>
    cases hf with
    | unprepared hp | unstarted hp | unverified hp =>
      rw [acknowledgement_of_phase (by rw [hp]; nofun)]
      rfl
    | _ =>
      rw [acknowledgement_of_not rfl]
      rfl

theorem Answer.ofChunks (hs : s.Sound) (hd : s.Plain device) (h : Answer s e t) :
    Trace.ofChunks t.effects = Trace.ofChunks (s.acknowledgement e) := by
  cases h with
  | rest hx =>
    by_cases hp : s.phase = .dataTransfer ∧ e.acknowledges = true
    · obtain ⟨hp, ha⟩ := hp
      unfold Event.acknowledges at ha
      split at ha
      · simp [expects, hs.chunkAck_iff.mpr hp] at hx
      · cases ha
    · rw [acknowledgement, if_neg hp]
      rfl
  | next hp =>
    rw [← hd.chunkReport hp rfl, Turn.effects_after, Trace.ofChunks_append]
    exact List.append_nil _
  | _ =>
    rw [acknowledgement_of_not rfl]
    rfl

/-- Where a session passes through an event, it reports a chunk exactly if the event acknowledges
one. -/
theorem Passage.ofChunks {entries : List (Phase × Session)} (hs : s.Sound) (hd : s.Plain device)
    (h : Passage s e entries t) : Trace.ofChunks t.effects = s.acknowledgement e := by
  rw [← hs.ofChunks_acknowledgement]
  induction h with
  | ended hf =>
    rw [acknowledgement_of_phase]
    · rfl
    · rw [hs.finished_iff.mp hf]
      nofun
  | stale =>
    rw [acknowledgement_of_not rfl]
    rfl
  | rests ha => exact ha.ofChunks hs hd
  | enters hm _ hh =>
    rw [Turn.effects_after, Trace.ofChunks_append, hh.ofChunks, hm.ofChunks hd, List.append_nil]
  | slips hm _ hsl _ hh =>
    rw [Turn.effects_after, Turn.effects_after, Trace.ofChunks_append, Trace.ofChunks_append,
      hh.ofChunks, hsl.ofChunks, hm.ofChunks hd]
    exact List.append_nil _
  | @expired s _ timeout e' _ _ hdue he _ ih =>
    have ih := ih (hs.withTimer (hs.not_idle_of_due hdue) s.timer.fire) ⟨hd.mode, hd.device⟩
    rw [acknowledgement_of_not (failureEvent?_fails he).2.1] at ih
    rw [acknowledgement_of_not rfl]
    exact ih

theorem signals_acknowledgement (e : Event) : Trace.signals (s.acknowledgement e) = [] := by
  unfold acknowledgement
  split <;> rfl

theorem Plain.signals_handle (hd : s.Plain device) (hs : s.Sound) (e : Event) :
    Trace.signals (s.handle e).effects = [] := by
  -- the metadata of the other mode do not matter
  obtain ⟨t, ht, ho⟩ := hd.handle (m := {}) hs e
  rw [ht, Turn.effects_after, Trace.signals_append, ho.silent, signals_acknowledgement]
  rfl

theorem Plain.handle_plain (hd : s.Plain device) (hs : s.Sound) (e : Event) :
    (s.handle e).session.Plain device := by
  obtain ⟨t, ht, ho⟩ := hd.handle (m := {}) hs e
  rw [ht]
  exact ho.plain

theorem Plain.ofChunks_handle (hd : s.Plain device) (hs : s.Sound) (e : Event) :
    Trace.ofChunks (s.handle e).effects = s.acknowledgement e :=
  (passage_complete hs e).ofChunks hs hd

end Session

/-! ## Views of the trace -/

namespace Trace

/-- No view but that of the signals sees one. -/
theorem views_unsignalled (es : List Effect) :
    calls (unsignalled es) = calls es ∧ reports (unsignalled es) = reports es ∧
      meshRequests (unsignalled es) = meshRequests es := by
  induction es with
  | nil => exact ⟨rfl, rfl, rfl⟩
  | cons x es ih =>
    obtain ⟨hc, hr, hm⟩ := ih
    cases x with
    | call c => exact ⟨congrArg (c :: ·) hc, hr, hm⟩
    | report r => exact ⟨hc, congrArg (r :: ·) hr, hm⟩
    | askMesh address => exact ⟨hc, hr, congrArg (address :: ·) hm⟩
    | bind | release | signal => exact ⟨hc, hr, hm⟩

/-- Only the calls see the metadata. -/
theorem views_overlaid (m : DfuMetadata) (es : List Effect) :
    calls (es.map (Effect.overlaid m)) = (calls es).map (DeviceCall.overlaid m) ∧
      reports (es.map (Effect.overlaid m)) = reports es ∧
      meshRequests (es.map (Effect.overlaid m)) = meshRequests es := by
  induction es with
  | nil => exact ⟨rfl, rfl, rfl⟩
  | cons x es ih =>
    obtain ⟨hc, hr, hm⟩ := ih
    cases x with
    | call c => exact ⟨congrArg (c.overlaid m :: ·) hc, hr, hm⟩
    | report r => exact ⟨hc, congrArg (r :: ·) hr, hm⟩
    | askMesh address => exact ⟨hc, hr, congrArg (address :: ·) hm⟩
    | bind | release | signal => exact ⟨hc, hr, hm⟩

/-- What remains once the reports of acknowledged chunks are dropped. -/
def withoutChunks (es : List Effect) : List Effect := es.filter fun x => !x.ofChunk

@[simp] theorem withoutChunks_append (as bs : List Effect) :
    withoutChunks (as ++ bs) = withoutChunks as ++ withoutChunks bs :=
  List.filter_append ..

theorem withoutChunks_of_none {es : List Effect} (h : ofChunks es = []) :
    withoutChunks es = es := by
  refine List.filter_eq_self.mpr fun x hx => ?_
  have := List.filter_eq_nil_iff.mp h x hx
  simpa using this

theorem withoutChunks_of_all {es : List Effect} (h : ofChunks es = es) :
    withoutChunks es = [] := by
  refine List.filter_eq_nil_iff.mpr fun x hx => ?_
  have := List.filter_eq_self.mp h x hx
  simpa using this

/-- Only the reports miss those of the chunks. -/
theorem views_withoutChunks (es : List Effect) :
    calls (withoutChunks es) = calls es ∧
      reports (withoutChunks es) = (reports es).filter (fun r => !r.ofChunk) ∧
      meshRequests (withoutChunks es) = meshRequests es := by
  induction es with
  | nil => exact ⟨rfl, rfl, rfl⟩
  | cons x es ih =>
    obtain ⟨hc, hr, hm⟩ := ih
    cases x with
    | call c => exact ⟨congrArg (c :: ·) hc, hr, hm⟩
    | report r =>
      have hx : (Effect.report r).ofChunk = r.ofChunk := rfl
      cases hr' : r.ofChunk with
      | true =>
        have hdrop : withoutChunks (.report r :: es) = withoutChunks es :=
          List.filter_cons_of_neg (by simp [hx, hr'])
        rw [hdrop]
        exact ⟨hc, hr.trans (List.filter_cons_of_neg (by simp [hr'])).symm, hm⟩
      | false =>
        have hkeep : withoutChunks (.report r :: es) = .report r :: withoutChunks es :=
          List.filter_cons_of_pos (by simp [hx, hr'])
        rw [hkeep]
        exact ⟨hc, (congrArg (r :: ·) hr).trans
          (List.filter_cons_of_pos (by simp [hr'])).symm, hm⟩
    | askMesh address => exact ⟨hc, hr, congrArg (address :: ·) hm⟩
    | bind | release | signal => exact ⟨hc, hr, hm⟩

theorem getLast?_calls {es : List Effect} {c : DeviceCall} (h : es.getLast? = some (.call c)) :
    (calls es).getLast? = some c := by
  obtain ⟨front, rfl⟩ := List.getLast?_eq_some_iff.mp h
  rw [calls_append]
  exact List.getLast?_concat ..

end Trace

/-! ## Hosts -/

/-- The driver breaks down over writing the command that prepares the download in one of the two
modes and not in the other, and has done so. -/
inductive Host.BreaksApart (m : DfuMetadata) (device : Option Device) (direct dfu : Host) : Prop
    where
  | direct {d : Device} (hd : device = some d)
      (hb : DeviceCall.command .prepare ∈ d.breaksOn)
      (hn : DeviceCall.command (.prepareDfu m.companyId m.firmwareId) ∉ d.breaksOn)
      (hc : direct.crash = some .device)
      (hl : (Trace.calls direct.trace.toList).getLast? = some (.command .prepare))
  | dfu {d : Device} (hd : device = some d)
      (hn : DeviceCall.command .prepare ∉ d.breaksOn)
      (hb : DeviceCall.command (.prepareDfu m.companyId m.firmwareId) ∈ d.breaksOn)
      (hc : dfu.crash = some .device)
      (hl : (Trace.calls dfu.trace.toList).getLast?
        = some (.command (.prepareDfu m.companyId m.firmwareId)))

theorem Host.toList_trace_absorb (h : Host) (t : Turn) :
    (h.absorb t).trace.toList = h.trace.toList ++ t.effects := by
  simp [absorb]

/-- The second host is the first one with the metadata. -/
structure Host.Overlays (m : DfuMetadata) (device : Option Device) (a b : Host) : Prop where
  session : b.session = a.session.overlaid m
  plain : a.session.Plain device
  status : b.status = a.status
  crash : b.crash = a.crash
  effects : Trace.unsignalled b.trace.toList
    = (Trace.withoutChunks a.trace.toList).map (Effect.overlaid m)

namespace Host.Overlays

variable {m : DfuMetadata} {device : Option Device} {a b : Host}

/-- An event keeps the hosts alike or finds the driver breaking down. -/
theorem handle (h : Overlays m device a b) (hs : a.session.Sound) (e : Event) :
    Overlays m device (a.handle e) (b.handle e) ∨
      BreaksApart m device (a.handle e) (b.handle e) := by
  have hd := h.plain
  obtain ⟨t, ht, ho⟩ := hd.handle (m := m) hs e
  have hall := hs.ofChunks_acknowledgement e
  have hnone : Trace.ofChunks t.effects = [] := by
    have := hd.ofChunks_handle hs e
    rw [ht, Turn.effects_after, Trace.ofChunks_append, hall] at this
    exact List.append_right_eq_self.mp this
  rw [← h.session] at ho
  have ha : a.handle e = a.absorb (t.after (a.session.acknowledgement e)) :=
    congrArg a.absorb ht
  rw [ha]
  cases ho.reacts with
  | alike hr =>
    have hcrash : (b.session.handle e).crash? = t.crash? := by
      rw [Turn.crash?, hr]
      rfl
    refine .inl ⟨ho.session, ho.plain, ?_, hcrash, ?_⟩
    · show (if (b.session.handle e).crash?.isSome then b.status else _)
        = if t.crash?.isSome then a.status else _
      rw [hcrash, h.status, ho.session]
      rfl
    · rw [toList_trace_absorb, Host.handle, toList_trace_absorb, Trace.unsignalled_append,
        Trace.withoutChunks_append, List.map_append, h.effects, ho.effects, Turn.effects_after,
        Trace.withoutChunks_append, Trace.withoutChunks_of_all hall,
        Trace.withoutChunks_of_none hnone, List.nil_append]
  | directBreaks hd' hb hn hl hra _ =>
    refine .inr (.direct hd' hb hn ?_ ?_)
    · show t.crash? = _
      rw [Turn.crash?, hra]
    · rw [toList_trace_absorb, Trace.calls_append, Turn.effects_after, Trace.calls_append]
      simp [Trace.getLast?_calls hl]
  | dfuBreaks hd' hn hb hl _ hrb =>
    refine .inr (.dfu hd' hn hb ?_ ?_)
    · show (b.session.handle e).crash? = _
      rw [Turn.crash?, hrb]
    · rw [Host.handle, toList_trace_absorb, Trace.calls_append]
      simp [Trace.getLast?_calls hl]

/-- All that happens keeps the hosts alike or finds the driver breaking down. -/
theorem undergo (h : Overlays m device a b) (hs : a.session.Sound)
    (happenings : List Happening) :
    Overlays m device (a.undergo happenings) (b.undergo happenings) ∨
      BreaksApart m device (a.undergo happenings) (b.undergo happenings) := by
  induction happenings generalizing a b with
  | nil => exact .inl h
  | cons x rest ih =>
    cases x with
    | guard guard =>
      refine ih ⟨?_, ⟨h.plain.mode, h.plain.device⟩, h.status, h.crash, h.effects⟩
        (hs.withGuard guard)
      rw [h.session]
      rfl
    | event e =>
      rcases h.handle hs e with h' | h'
      · have hcrash := h'.crash
        rw [crash_handle, crash_handle] at hcrash
        cases hx : (a.session.handle e).crash? with
        | some c =>
          rw [undergo_crash hx, undergo_crash (hcrash.trans hx)]
          exact .inl h'
        | none =>
          rw [undergo_event hx, undergo_event (hcrash.trans hx)]
          exact ih h' (hs.handle e hx)
      · cases h' with
        | direct hd hb hn hc hl =>
          rw [undergo_crash hc]
          exact .inr (.direct hd hb hn hc hl)
        | dfu hd hn hb hc hl =>
          rw [undergo_crash (h := b) hc]
          exact .inr (.dfu hd hn hb hc hl)

end Host.Overlays

/-- A direct upgrade never signals the orchestrator. -/
theorem Host.signals_undergo {h : Host} {device : Option Device} (hs : h.session.Sound)
    (hd : h.session.Plain device) (happenings : List Happening) :
    Trace.signals (h.undergo happenings).trace.toList = Trace.signals h.trace.toList := by
  induction happenings generalizing h with
  | nil => rfl
  | cons x rest ih =>
    cases x with
    | guard guard =>
      exact ih (h := { h with session := { h.session with guard } }) (hs.withGuard guard)
        ⟨hd.mode, hd.device⟩
    | event e =>
      have hquiet : Trace.signals (h.handle e).trace.toList = Trace.signals h.trace.toList := by
        rw [Host.handle, toList_trace_absorb, Trace.signals_append, hd.signals_handle hs,
          List.append_nil]
      cases hx : (h.session.handle e).crash? with
      | some c =>
        rw [undergo_crash hx]
        exact hquiet
      | none =>
        rw [undergo_event hx]
        exact (ih (hs.handle e hx) (hd.handle_plain hs e)).trans hquiet

/-- An upload for mesh DFU next to the direct upgrade of the same device with the same image. -/
structure Host.IsOverlay (m : DfuMetadata) (direct dfu : Host) : Prop where
  session : dfu.session = { direct.session with mode := .dfu m }
  status : dfu.status = direct.status
  crash : dfu.crash = direct.crash
  /-- But for its signals the upload does the same in the same order. -/
  effects : Trace.unsignalled dfu.trace.toList
    = (Trace.withoutChunks direct.trace.toList).map (Effect.overlaid m)
  /-- The calls are the same, but for the metadata in the command that prepares the download. -/
  calls : Trace.calls dfu.trace.toList
    = (Trace.calls direct.trace.toList).map (DeviceCall.overlaid m)
  meshRequests : Trace.meshRequests dfu.trace.toList = Trace.meshRequests direct.trace.toList
  /-- Observers are told the same, but for the chunks. -/
  reports : Trace.reports dfu.trace.toList
    = (Trace.reports direct.trace.toList).filter fun r => !r.ofChunk
  /-- Over any further event the direct upgrade says of an acknowledged chunk what the upload does
  not, and all else is said by both. -/
  told : direct.crash = none → ∀ e, Trace.reports (direct.session.handle e).effects
    = Trace.reports (direct.session.acknowledgement e)
      ++ Trace.reports (dfu.session.handle e).effects

/-- What holds of the traces holds of the views of them. -/
theorem Host.Overlays.isOverlay {m : DfuMetadata} {device : Option Device} {a b : Host}
    (h : Overlays m device a b) (hs : a.crash = none → a.session.Sound) : IsOverlay m a b := by
  have hviews := Trace.views_unsignalled b.trace.toList
  rw [h.effects] at hviews
  obtain ⟨hcalls, hreports, hmesh⟩ :=
    Trace.views_overlaid m (Trace.withoutChunks a.trace.toList)
  obtain ⟨hcalls', hreports', hmesh'⟩ := Trace.views_withoutChunks a.trace.toList
  refine ⟨h.session, h.status, h.crash, h.effects, ?_, ?_, ?_, ?_⟩
  · rw [← hviews.1, hcalls, hcalls']
  · rw [← hviews.2.2, hmesh, hmesh']
  · rw [← hviews.2.1, hreports, hreports']
  · intro hc e
    obtain ⟨t, ht, ho⟩ := h.plain.handle (m := m) (hs hc) e
    have htold := Trace.views_unsignalled ((a.session.overlaid m).handle e).effects
    rw [ho.effects] at htold
    rw [h.session, ← htold.2.1, (Trace.views_overlaid m t.effects).2.1, ht]
    exact Trace.reports_append _ _

namespace Session

/-- Uploading for mesh DFU only overlays the direct upgrade. Whatever happens to both, they stand
and have done alike, but for the metadata in the command that prepares the download and for the
reports of acknowledged chunks, and a direct upgrade signals nothing to the orchestrator. Only a
driver that breaks down over that command in one mode and not in the other tells them apart, and
then one of the two handles no further event. -/
theorem dfu_overlays_direct (config : Config) (image : Option Image) (device : Option Device)
    (collaborators : Collaborators) (guard : Guard) (m : DfuMetadata) (hs : List Happening) :
    (Host.IsOverlay m
        ((fresh config .direct image device collaborators guard).hosted hs)
        ((fresh config (.dfu m) image device collaborators guard).hosted hs) ∨
      Host.BreaksApart m device
        ((fresh config .direct image device collaborators guard).hosted hs)
        ((fresh config (.dfu m) image device collaborators guard).hosted hs)) ∧
    Trace.signals
      ((fresh config .direct image device collaborators guard).hosted hs).trace.toList = [] := by
  have hsound := Sound.fresh config .direct image device collaborators guard
  have hplain : (fresh config .direct image device collaborators guard).Plain device :=
    ⟨rfl, fun d hd => hd⟩
  have hdfu : fresh config (.dfu m) image device collaborators guard
      = (fresh config .direct image device collaborators guard).overlaid m := rfl
  rw [hdfu]
  generalize fresh config .direct image device collaborators guard = s at hsound hplain
  have hstart : Host.Overlays m device { session := s } { session := s.overlaid m } :=
    ⟨rfl, hplain, rfl, rfl, rfl⟩
  refine ⟨(hstart.undergo hsound hs).imp_left fun ho => ?_,
    Host.signals_undergo (h := { session := s }) hsound hplain hs⟩
  refine Host.Overlays.isOverlay (a := s.hosted hs) ho fun hc => ?_
  rw [crash_hosted] at hc
  rw [session_hosted]
  exact hsound.live hs hc

end Session
end OtaUpgrade
