import Mathlib
import OtaUpgrade.Proofs.Session.Advancing
import OtaUpgrade.Proofs.Session.DeviceView

/-!
What the mode changes of a turn. Only three places of a session look at its mode: the command that
prepares the download, the report of an acknowledged chunk, and the signals at the end. Everywhere
else a direct upgrade and its `overlaid` session, the same as an upload for mesh DFU, take the same
branch. `Turn.Overlays` compares their turns; it is kept on entering a phase (`Plain.enter`), on
following a turn to where it rests (`Turn.Overlays.settle`) and so by every event (`Plain.handle`).
-/
namespace OtaUpgrade

/-- The call, with the metadata in the command that prepares the download. -/
def DeviceCall.overlaid (m : DfuMetadata) (c : DeviceCall) : DeviceCall :=
  if c = .write .controlPoint [1] then
    .write .controlPoint (1 :: (littleEndian 2 m.companyId.toNat ++ m.firmwareId))
  else c

namespace Effect

/-- The effect, with the metadata in the command that prepares the download. -/
def overlaid (m : DfuMetadata) : Effect → Effect
  | .call c => .call (c.overlaid m)
  | x => x

/-- The effect is a signal to the orchestrator. -/
def isSignal (x : Effect) : Bool := x.signal?.isSome

end Effect

/-- All but the signals to the orchestrator. -/
def Trace.unsignalled (es : List Effect) : List Effect := es.filter fun x => !x.isSignal

@[simp] theorem Trace.unsignalled_append (as bs : List Effect) :
    unsignalled (as ++ bs) = unsignalled as ++ unsignalled bs :=
  List.filter_append ..

namespace Session

/-- The session as an upload for mesh DFU. -/
def overlaid (m : DfuMetadata) (s : Session) : Session := { s with mode := .dfu m }

/-- A direct upgrade that still has its device, or has let it go. -/
structure Plain (device : Option Device) (s : Session) : Prop where
  mode : s.mode = .direct
  device : ∀ d, s.device = some d → device = some d

end Session

/-- The turns of both modes go on alike, unless the driver breaks down over writing one form of the
command that prepares the download and not over writing the other. -/
inductive Turn.Reacts (m : DfuMetadata) (device : Option Device) (a b : Turn) : Prop where
  | alike (h : b.reaction = a.reaction)
  | directBreaks {d : Device} (hd : device = some d)
      (hb : DeviceCall.command .prepare ∈ d.breaksOn)
      (hn : DeviceCall.command (.prepareDfu m.companyId m.firmwareId) ∉ d.breaksOn)
      (hl : a.effects.getLast? = some (.call (.command .prepare)))
      (hra : a.reaction = .crash .device) (hrb : b.reaction = .stay)
  | dfuBreaks {d : Device} (hd : device = some d)
      (hn : DeviceCall.command .prepare ∉ d.breaksOn)
      (hb : DeviceCall.command (.prepareDfu m.companyId m.firmwareId) ∈ d.breaksOn)
      (hl : b.effects.getLast?
        = some (.call (.command (.prepareDfu m.companyId m.firmwareId))))
      (hra : a.reaction = .stay) (hrb : b.reaction = .crash .device)

/-- The second turn is the first one with the metadata. -/
structure Turn.Overlays (m : DfuMetadata) (device : Option Device) (a b : Turn) : Prop where
  session : b.session = a.session.overlaid m
  plain : a.session.Plain device
  effects : Trace.unsignalled b.effects = a.effects.map (Effect.overlaid m)
  silent : Trace.signals a.effects = []
  reacts : Turn.Reacts m device a b

variable {m : DfuMetadata} {device : Option Device}

theorem DeviceCall.overlaid_of_ne {c : DeviceCall} (h : c ≠ .command .prepare) :
    c.overlaid m = c :=
  if_neg h

theorem DeviceCall.overlaid_prepare :
    (DeviceCall.command .prepare).overlaid m
      = .command (.prepareDfu m.companyId m.firmwareId) :=
  if_pos rfl

theorem DeviceCall.overlaid_command {c : Command} (h : c.opcode ≠ .prepareDownload) :
    (DeviceCall.command c).overlaid m = .command c :=
  overlaid_of_ne fun hc => h (opcode_of_command_eq hc)

namespace Turn.Overlays

variable {s : Session} {a b : Turn}

theorem after (h : Overlays m device a b) {es es' : List Effect}
    (he : Trace.unsignalled es' = es.map (Effect.overlaid m)) (hs : Trace.signals es = []) :
    Overlays m device (a.after es) (b.after es') where
  session := h.session
  plain := h.plain
  effects := by simp [he, h.effects]
  silent := by simp [hs, h.silent]
  reacts := by
    cases h.reacts with
    | alike h => exact .alike h
    | directBreaks hd hb hn hl => exact .directBreaks hd hb hn (by simp [hl]) ‹_› ‹_›
    | dfuBreaks hd hn hb hl => exact .dfuBreaks hd hn hb (by simp [hl]) ‹_› ‹_›

theorem stay (h : s.Plain device) : Overlays m device s.stay (s.overlaid m).stay :=
  ⟨rfl, h, rfl, rfl, .alike rfl⟩

theorem moveTo (h : s.Plain device) (p : Phase) :
    Overlays m device (s.moveTo p) ((s.overlaid m).moveTo p) :=
  ⟨rfl, h, rfl, rfl, .alike rfl⟩

theorem failTo (h : s.Plain device) (cause : Cause) (p : Phase) :
    Overlays m device (s.failTo cause p) ((s.overlaid m).failTo cause p) :=
  ⟨rfl, h, rfl, rfl, .alike rfl⟩

theorem crashed (h : s.Plain device) (c : Crash) :
    Overlays m device (s.crashed c) ((s.overlaid m).crashed c) :=
  ⟨rfl, h, rfl, rfl, .alike rfl⟩

theorem ask (h : s.Plain device) (d : Device) {c : DeviceCall} (hc : c.overlaid m = c) :
    Overlays m device (s.ask d c) ((s.overlaid m).ask d c) :=
  ⟨rfl, h, congrArg (fun c => [Effect.call c]) hc.symm, rfl, .alike rfl⟩

end Turn.Overlays

namespace Session

variable {s : Session}

section overlaid

variable (m s)

@[simp] theorem config_overlaid : (s.overlaid m).config = s.config := rfl
@[simp] theorem mode_overlaid : (s.overlaid m).mode = .dfu m := rfl
@[simp] theorem image_overlaid : (s.overlaid m).image = s.image := rfl
@[simp] theorem collaborators_overlaid : (s.overlaid m).collaborators = s.collaborators := rfl
@[simp] theorem device_overlaid : (s.overlaid m).device = s.device := rfl
@[simp] theorem phase_overlaid : (s.overlaid m).phase = s.phase := rfl
@[simp] theorem wait_overlaid : (s.overlaid m).wait = s.wait := rfl
@[simp] theorem timer_overlaid : (s.overlaid m).timer = s.timer := rfl
@[simp] theorem transfer_overlaid : (s.overlaid m).transfer = s.transfer := rfl
@[simp] theorem guard_overlaid : (s.overlaid m).guard = s.guard := rfl
@[simp] theorem error_overlaid : (s.overlaid m).error = s.error := rfl
@[simp] theorem running_overlaid : (s.overlaid m).running = s.running := rfl
@[simp] theorem connected_overlaid : (s.overlaid m).connected = s.connected := rfl
@[simp] theorem variant_overlaid : (s.overlaid m).variant = s.variant := rfl
@[simp] theorem finished_overlaid : (s.overlaid m).finished = s.finished := rfl

end overlaid

section plain

variable (h : s.Plain device)

include h

/-! ## Entering a phase -/

theorem Plain.withDevice {f g : Device → Turn}
    (hfg : ∀ d, s.device = some d → Turn.Overlays m device (f d) (g d)) :
    Turn.Overlays m device (s.withDevice f) ((s.overlaid m).withDevice g) := by
  unfold Session.withDevice
  rw [device_overlaid]
  cases hd : s.device with
  | none => exact .failTo h _ _
  | some d => exact hfg d hd

theorem Plain.enterConnect :
    Turn.Overlays m device s.enterConnect (s.overlaid m).enterConnect := by
  unfold Session.enterConnect
  rw [image_overlaid, guard_overlaid]
  split
  · exact .failTo h _ _
  · refine h.withDevice fun d _ => ?_
    by_cases hg : s.guard.has .connection = true
    · rw [if_pos hg, if_pos hg]
      exact .stay h
    · rw [if_neg hg, if_neg hg]
      refine .after ?_ rfl rfl
      exact .ask (s := { s with guard := s.guard.begin .connection }) (c := .connect)
        ⟨h.mode, h.device⟩ d rfl

theorem Plain.askMeshCore (rearm : Bool) :
    Turn.Overlays m device (s.askMeshCore rearm) ((s.overlaid m).askMeshCore rearm) := by
  cases ha : s.askable? with
  | none =>
    rw [askMeshCore_of_none ha, askMeshCore_of_none (s := s.overlaid m) ha]
    exact .moveTo h _
  | some address =>
    rw [askMeshCore_of_some ha, askMeshCore_of_some (s := s.overlaid m) ha]
    cases rearm <;> exact ⟨rfl, ⟨h.mode, h.device⟩, rfl, rfl, .alike rfl⟩

theorem Plain.enterReadAppInfo :
    Turn.Overlays m device s.enterReadAppInfo (s.overlaid m).enterReadAppInfo := by
  unfold Session.enterReadAppInfo
  rw [variant_overlaid, device_overlaid]
  split
  · next v d hv hd =>
    by_cases hc : v.has .appInfo = true
    · rw [if_pos hc, if_pos hc]
      exact .ask (s := { s with wait := .appInfo }) ⟨h.mode, h.device⟩ d rfl
    · rw [if_neg hc, if_neg hc]
      exact h.askMeshCore false
  · exact h.askMeshCore false

theorem Plain.sendCommand (d : Device) {c : Command} (hc : c.opcode ≠ .prepareDownload) :
    Turn.Overlays m device (s.sendCommand d c) ((s.overlaid m).sendCommand d c) :=
  .ask (s := { s with wait := .write }) ⟨h.mode, h.device⟩ d (DeviceCall.overlaid_command hc)

/-- The one command that tells the modes apart. A driver may break down over one form of it and not
over the other. -/
theorem Plain.sendPrepare {d : Device} (hd : s.device = some d) :
    Turn.Overlays m device (s.sendCommand d s.mode.prepareCommand)
      ((s.overlaid m).sendCommand d (s.overlaid m).mode.prepareCommand) := by
  have hd := h.device d hd
  rw [h.mode]
  refine ⟨rfl, ⟨h.mode, h.device⟩, ?_, rfl, ?_⟩
  · exact congrArg (fun c => [Effect.call c]) DeviceCall.overlaid_prepare.symm
  · by_cases hp : DeviceCall.command .prepare ∈ d.breaksOn
    · by_cases hq : DeviceCall.command (.prepareDfu m.companyId m.firmwareId) ∈ d.breaksOn
      · exact .alike ((if_pos hq).trans (if_pos hp).symm)
      · exact .directBreaks hd hp hq rfl (if_pos hp) (if_neg hq)
    · by_cases hq : DeviceCall.command (.prepareDfu m.companyId m.firmwareId) ∈ d.breaksOn
      · exact .dfuBreaks hd hp hq rfl (if_neg hp) (if_pos hq)
      · exact .alike ((if_neg hq).trans (if_neg hp).symm)

theorem Plain.enterVerify :
    Turn.Overlays m device s.enterVerify (s.overlaid m).enterVerify := by
  unfold Session.enterVerify
  rw [transfer_overlaid]
  cases s.transfer.crc.final with
  | none => exact .failTo h _ _
  | some crc => exact h.withDevice fun d _ => h.sendCommand d nofun

theorem Plain.enterAbort :
    Turn.Overlays m device s.enterAbort (s.overlaid m).enterAbort := by
  unfold Session.enterAbort
  rw [connected_overlaid, device_overlaid]
  by_cases hc : s.connected = true
  · rw [if_pos hc, if_pos hc]
    refine .after ?_ rfl rfl
    cases s.device with
    | none => exact .moveTo h _
    | some d => exact h.sendCommand d nofun
  · rw [if_neg hc, if_neg hc]
    exact .moveTo h _

theorem Plain.sendNextChunk :
    Turn.Overlays m device s.sendNextChunk (s.overlaid m).sendNextChunk := by
  unfold Session.sendNextChunk
  rw [transfer_overlaid, image_overlaid, device_overlaid]
  split
  · exact .failTo h _ _
  · next start stop hn =>
    split
    · exact .failTo h _ _
    · exact .failTo h _ _
    · next image d hi hd =>
      by_cases hin : image.size < stop
      · rw [if_pos hin, if_pos hin]
        exact .crashed h _
      · rw [if_neg hin, if_neg hin]
        dsimp only
        split
        · exact .crashed h _
        · next crc hcrc =>
          by_cases hw : s.transfer.chunksSent + 1 < wordLimit
          · rw [if_pos hw, if_pos hw]
            exact .ask (s := { s with
              transfer := s.transfer.sent crc start stop
              wait := .chunkAck }) ⟨h.mode, h.device⟩ d (DeviceCall.overlaid_of_ne nofun)
          · rw [if_neg hw, if_neg hw]
            exact .crashed h _

theorem Plain.arrive (p : Phase) : (s.arrive p).Plain device :=
  ⟨h.mode, h.device⟩

theorem Plain.recordError (cause : Cause) : (s.recordError cause).Plain device := by
  refine ⟨?_, ?_⟩
  · rw [mode_recordError]
    exact h.mode
  · rw [device_recordError]
    exact h.device

omit h in
theorem overlaid_recordError (cause : Cause) :
    (s.overlaid m).recordError cause = (s.recordError cause).overlaid m := by
  rw [recordError_eq, recordError_eq]
  rfl

omit h in
theorem unsignalled_closingSignals : Trace.unsignalled s.closingSignals = [] := by
  unfold closingSignals
  split
  · rfl
  · split
    · split <;> rfl
    · rfl

/-- Only an upload for mesh DFU signals its end. -/
theorem Plain.enter_complete :
    Turn.Overlays m device (s.enter .complete) ((s.overlaid m).enter .complete) := by
  cases hf : s.finished with
  | true =>
    rw [enter_complete_of_finished hf, enter_complete_of_finished (s := s.overlaid m) hf]
    exact .stay (h.arrive _)
  | false =>
    rw [Session.enter_complete hf, Session.enter_complete (s := s.overlaid m) hf]
    have partings : Trace.unsignalled (s.parting.map .call)
        = (s.parting.map .call).map (Effect.overlaid m) ∧
          Trace.signals (s.parting.map .call) = [] := by
      unfold parting
      split <;> exact ⟨rfl, rfl⟩
    cases hb : s.breaksOnParting with
    | true =>
      rw [if_pos rfl, if_pos (show (s.overlaid m).breaksOnParting = true from hb)]
      exact ⟨rfl, h.arrive _, partings.1, partings.2, .alike rfl⟩
    | false =>
      have hb' : (s.overlaid m).breaksOnParting = false := hb
      rw [hb', if_neg Bool.false_ne_true, if_neg Bool.false_ne_true]
      have mute : s.closed.closingSignals = [] := by
        rw [closingSignals, show s.closed.mode = .direct from h.mode]
        rfl
      have release (b : Bool) :
          Trace.unsignalled (if b then [.release] else [])
            = (if b then [Effect.release] else []).map (Effect.overlaid m) ∧
          Trace.signals (if b then [.release] else []) = [] := by
        cases b <;> exact ⟨rfl, rfl⟩
      have told (r : Report) (es : List Effect) :
          Trace.unsignalled (.report r :: es) = .report r :: Trace.unsignalled es := rfl
      refine ⟨rfl, ⟨h.mode, nofun⟩, ?_, ?_, .alike rfl⟩
      · show Trace.unsignalled (s.parting.map Effect.call ++ (s.overlaid m).farewell)
          = (s.parting.map Effect.call ++ s.farewell).map (Effect.overlaid m)
        rw [farewell, farewell, mute, device_overlaid, Trace.unsignalled_append,
          Trace.unsignalled_append, List.map_append, List.map_append, partings.1,
          (release _).1, told, unsignalled_closingSignals]
        rfl
      · show Trace.signals (s.parting.map Effect.call ++ s.farewell) = []
        rw [farewell, mute, Trace.signals_append, Trace.signals_append, partings.2, (release _).2]
        rfl

theorem Plain.entryAction {p : Phase} (hp : p ≠ .complete) :
    Turn.Overlays m device (s.entryAction p) ((s.overlaid m).entryAction p) := by
  cases p with
  | idle => exact .stay h
  | connect => exact h.enterConnect
  | serviceDiscover => exact h.withDevice fun d _ => .ask h d rfl
  | readAppInfo => exact h.enterReadAppInfo
  | enableNotification => exact h.withDevice fun d _ => .ask h d rfl
  | prepareForDownload => exact h.withDevice fun d hd => h.sendPrepare hd
  | startDownload => exact h.withDevice fun d _ => h.sendCommand d nofun
  | dataTransfer => exact h.sendNextChunk
  | verify => exact h.enterVerify
  | abort => exact h.enterAbort
  | complete => exact absurd rfl hp

theorem Plain.enter (p : Phase) :
    Turn.Overlays m device (s.enter p) ((s.overlaid m).enter p) := by
  by_cases hp : p = .complete
  · subst hp
    exact h.enter_complete
  · rw [enter_eq hp rfl, enter_eq hp rfl]
    exact .after ((h.arrive p).entryAction hp) rfl rfl

end plain

end Session

namespace Turn.Overlays

open Session

variable {a b : Turn}

theorem follow (h : Overlays m device a b) (depth : Nat) :
    Overlays m device (follow depth a) (follow depth b) := by
  -- on the depth: a phase is entered alike, and a breakdown of one of the two is not followed
  induction depth generalizing a b with
  | zero => exact h
  | succ depth ih =>
    unfold Session.follow
    cases h.reacts with
    | directBreaks _ _ _ _ hra hrb | dfuBreaks _ _ _ _ hra hrb =>
      rw [hra, hrb]
      exact h
    | alike hr =>
      rw [hr]
      cases a.reaction with
      | stay | crash => exact h
      | enter next =>
        dsimp only
        rw [h.session]
        exact ih ((h.plain.enter next).after h.effects h.silent)
      | fail cause next =>
        dsimp only
        rw [h.session, overlaid_recordError]
        exact ih (((h.plain.recordError cause).enter next).after h.effects h.silent)

theorem settle (h : Overlays m device a b) :
    Overlays m device (settle a) (settle b) := by
  have hreach : b.reaction.reach = a.reaction.reach := by
    cases h.reacts with
    | directBreaks _ _ _ _ hra hrb | dfuBreaks _ _ _ _ hra hrb =>
      rw [hra, hrb]
      rfl
    | alike hr => rw [hr]
  unfold Session.settle
  rw [hreach]
  exact h.follow _

end Turn.Overlays

namespace Session

variable {s : Session} (h : s.Plain device)

include h

/-! ## Handling an event -/

theorem Plain.onStart : Turn.Overlays m device s.onStart (s.overlaid m).onStart := by
  unfold Session.onStart
  rw [phase_overlaid, running_overlaid]
  by_cases hp : (s.phase = .idle && !s.running) = true
  · rw [if_pos hp, if_pos hp]
    exact .moveTo (s := { s with running := true }) ⟨h.mode, h.device⟩ _
  · rw [if_neg hp, if_neg hp]
    exact .stay h

theorem Plain.onConnected : Turn.Overlays m device s.onConnected (s.overlaid m).onConnected := by
  by_cases hp : s.phase = .connect
  · cases hd : s.device with
    | none =>
      unfold Session.onConnected
      rw [if_pos hp, if_pos (show (s.overlaid m).phase = .connect from hp)]
      exact Plain.withDevice (s := { s.cancelTimer with connected := true }) ⟨h.mode, h.device⟩
        fun d hd' => absurd (hd.symm.trans hd') nofun
    | some d =>
      rw [onConnected_eq hp hd, onConnected_eq (s := s.overlaid m) hp hd, config_overlaid]
      split
      · exact .crashed (s := { s.cancelTimer with connected := true }) ⟨h.mode, h.device⟩ _
      · exact .failTo (s := { s.cancelTimer with connected := true }) ⟨h.mode, h.device⟩ _ _
      · next size _ _ =>
        exact .moveTo (s := { s.cancelTimer with
          connected := true
          transfer := { s.transfer with chunkSize := size } }) ⟨h.mode, h.device⟩ _
  · unfold Session.onConnected
    rw [if_neg hp, if_neg (show ¬ (s.overlaid m).phase = .connect from hp)]
    exact .stay h

theorem Plain.onDisconnected (error : Option LinkError) :
    Turn.Overlays m device (s.onDisconnected error) ((s.overlaid m).onDisconnected error) := by
  unfold Session.onDisconnected
  dsimp only
  have hc : ({ s with connected := false } : Session).cancelTimer.Plain device :=
    ⟨h.mode, h.device⟩
  by_cases hv : ({ s with connected := false } : Session).verifyAccepted = true
  · rw [if_pos hv, if_pos (show
      ({ s.overlaid m with connected := false } : Session).verifyAccepted = true from hv)]
    exact .after (.moveTo hc _) rfl rfl
  · rw [if_neg hv, if_neg (show
      ¬ ({ s.overlaid m with connected := false } : Session).verifyAccepted = true from hv),
      phase_overlaid]
    split
    · exact .stay (s := { s with connected := false }) ⟨h.mode, h.device⟩
    · exact .stay (s := { s with connected := false }) ⟨h.mode, h.device⟩
    · exact .failTo hc _ _
    · exact .moveTo hc _
    · exact .failTo hc _ _

theorem Plain.onService (variant : Option Variant) (error : Option LinkError) :
    Turn.Overlays m device (s.onService variant error)
      ((s.overlaid m).onService variant error) := by
  unfold Session.onService
  rw [phase_overlaid]
  by_cases hp : s.phase = .serviceDiscover
  · rw [if_pos hp, if_pos hp]
    dsimp only
    split
    · next v =>
      exact .moveTo (s := { s.cancelTimer with variant := some v }) ⟨h.mode, h.device⟩ _
    · exact .failTo (s := s.cancelTimer) ⟨h.mode, h.device⟩ _ _
  · rw [if_neg hp, if_neg hp]
    exact .stay h

theorem Plain.onConnection (connected : Bool) (error : Option LinkError) :
    Turn.Overlays m device (s.onConnection connected error)
      ((s.overlaid m).onConnection connected error) := by
  have hn : ({ s with guard := s.guard.finish .connection } : Session).Plain device :=
    ⟨h.mode, h.device⟩
  cases connected with
  | true => exact hn.onConnected
  | false => exact hn.onDisconnected error

theorem Plain.close :
    Turn.Overlays m device
      (match s.device with
        | some d => s.ask d .disconnect
        | none => s.moveTo .complete)
      (match (s.overlaid m).device with
        | some d => (s.overlaid m).ask d .disconnect
        | none => (s.overlaid m).moveTo .complete) := by
  rw [device_overlaid]
  split
  · next d _ => exact .ask (c := .disconnect) h d rfl
  · exact .moveTo h _

theorem Plain.onAbort (dfu : Bool) :
    Turn.Overlays m device (s.onAbort dfu) ((s.overlaid m).onAbort dfu) := by
  have hn : ({ s with stopRequested := s.stopRequested || dfu } : Session).Plain device :=
    ⟨h.mode, h.device⟩
  unfold Session.onAbort
  rw [phase_overlaid]
  dsimp only
  split
  · exact .failTo hn _ _
  · exact .stay hn
  · exact .stay hn
  · by_cases hc : s.phase.canAbort = true
    · rw [if_pos hc, if_pos hc]
      exact .failTo hn _ _
    · rw [if_neg hc, if_neg hc]
      have closes := (hn.recordError (if dfu then .abortedForDfu else .aborted)).close (m := m)
      rw [← overlaid_recordError] at closes
      exact closes

theorem Plain.onAppInfo (value : Option Bytes) :
    Turn.Overlays m device (s.onAppInfo value) ((s.overlaid m).onAppInfo value) := by
  unfold Session.onAppInfo
  rw [phase_overlaid, wait_overlaid]
  by_cases hp : (s.phase = .readAppInfo && s.wait = .appInfo) = true
  · rw [if_pos hp, if_pos hp]
    dsimp only
    split
    · next info _ =>
      exact .moveTo (s := { s.cancelTimer with identity := some (.appInfo info) })
        ⟨h.mode, h.device⟩ _
    · exact Plain.askMeshCore (s := s.cancelTimer) ⟨h.mode, h.device⟩ true
  · rw [if_neg hp, if_neg hp]
    exact .stay h

theorem Plain.onMeshMetadata (metadata : Option ComponentMetadata) :
    Turn.Overlays m device (s.onMeshMetadata metadata)
      ((s.overlaid m).onMeshMetadata metadata) := by
  have hn : ({ s with guard := s.guard.finish .componentMetadata } : Session).Plain device :=
    ⟨h.mode, h.device⟩
  unfold Session.onMeshMetadata
  dsimp only
  rw [phase_overlaid, wait_overlaid, guard_overlaid]
  by_cases hp : (s.guard.has .componentMetadata && s.phase = .readAppInfo
      && s.wait = .meshMetadata) = true
  · rw [if_pos hp, if_pos hp]
    split
    · next data =>
      exact .moveTo
        (s := { s.cancelTimer with
          guard := s.guard.finish .componentMetadata
          identity := some (.mesh data) }) ⟨h.mode, h.device⟩ _
    · exact .moveTo (s := { s.cancelTimer with guard := s.guard.finish .componentMetadata })
        ⟨h.mode, h.device⟩ _
  · rw [if_neg hp, if_neg hp]
    exact .stay hn

theorem Plain.onNotifications (enabled : Bool) (error : Option LinkError) :
    Turn.Overlays m device (s.onNotifications enabled error)
      ((s.overlaid m).onNotifications enabled error) := by
  have hn : s.cancelTimer.Plain device := ⟨h.mode, h.device⟩
  unfold Session.onNotifications
  rw [phase_overlaid]
  by_cases hp : s.phase = .enableNotification
  · rw [if_pos hp, if_pos hp]
    dsimp only
    by_cases he : (enabled && error.isNone) = true
    · rw [if_pos he, if_pos he]
      exact .moveTo hn _
    · rw [if_neg he, if_neg he]
      exact .failTo hn _ _
  · rw [if_neg hp, if_neg hp]
    exact .stay h

theorem Plain.onStatus (command : Opcode) (status : Status) :
    Turn.Overlays m device (s.onStatus command status)
      ((s.overlaid m).onStatus command status) := by
  have hn : s.cancelTimer.Plain device := ⟨h.mode, h.device⟩
  have either (cause : Cause) (p q : Phase) : Turn.Overlays m device
      (if (status == .success) = true then s.cancelTimer.moveTo p
        else s.cancelTimer.failTo cause q)
      (if (status == .success) = true then (s.cancelTimer.overlaid m).moveTo p
        else (s.cancelTimer.overlaid m).failTo cause q) := by
    by_cases ha : (status == .success) = true
    · rw [if_pos ha, if_pos ha]
      exact .moveTo hn _
    · rw [if_neg ha, if_neg ha]
      exact .failTo hn _ _
  unfold Session.onStatus
  dsimp only
  rw [show (s.overlaid m).cancelTimer = s.cancelTimer.overlaid m from rfl, phase_overlaid]
  split
  · exact either _ _ _
  · exact either _ _ _
  · exact either _ _ _
  · exact .moveTo hn _

theorem Plain.onCommandWritten (result : WriteResult) :
    Turn.Overlays m device (s.onCommandWritten result)
      ((s.overlaid m).onCommandWritten result) := by
  have hn : s.cancelTimer.Plain device := ⟨h.mode, h.device⟩
  unfold Session.onCommandWritten
  rw [show (s.overlaid m).commandInHand? = s.commandInHand? from rfl]
  split
  · exact .stay h
  · split
    · exact h.onStatus _ _
    · exact .stay (s := { s with wait := .response }) ⟨h.mode, h.device⟩
    · next command _ _ e =>
      dsimp only
      by_cases ha : command = .abort
      · rw [if_pos ha, if_pos ha]
        exact .moveTo hn _
      · rw [if_neg ha, if_neg ha]
        by_cases ht : e.isTimeout = true
        · rw [if_pos ht, if_pos ht]
          exact .failTo hn _ _
        · rw [if_neg ht, if_neg ht]
          exact .failTo hn _ _

theorem Plain.onIndication (value : Option Bytes) :
    Turn.Overlays m device (s.onIndication value) ((s.overlaid m).onIndication value) := by
  unfold Session.onIndication
  rw [show (s.overlaid m).commandInHand? = s.commandInHand? from rfl]
  split
  · exact .stay h
  · exact h.onStatus _ _

omit h in
/-- What a direct upgrade says when a chunk is acknowledged, and an upload for mesh DFU does not. -/
def acknowledgement (s : Session) (e : Event) : List Effect :=
  if s.phase = .dataTransfer ∧ e.acknowledges = true then
    [.report (.progress s.acknowledged.progress)]
  else []

omit h in
theorem acknowledgement_of_not {e : Event} (he : e.acknowledges = false) :
    s.acknowledgement e = [] :=
  if_neg fun hx => Bool.false_ne_true (he.symm.trans hx.2)

omit h in
theorem acknowledgement_of_phase {e : Event} (hp : s.phase ≠ .dataTransfer) :
    s.acknowledgement e = [] :=
  if_neg fun hx => hp hx.1

omit h in
theorem Sound.overlaid (hs : s.Sound) (m : DfuMetadata) : (s.overlaid m).Sound :=
  ⟨hs.awaits, hs.finished_iff, hs.idle, hs.imaged, hs.equipped, hs.stands, hs.abort⟩

theorem Plain.chunkReport {e : Event} (hp : s.phase = .dataTransfer)
    (he : e.acknowledges = true) : s.chunkReport = s.acknowledgement e := by
  rw [acknowledgement, if_pos ⟨hp, he⟩, Session.chunkReport, h.mode]
  rfl

theorem Plain.onChunkWritten (hs : s.Sound) (result : WriteResult) :
    ∃ t, s.onChunkWritten result = t.after (s.acknowledgement (.written .data result)) ∧
      Turn.Overlays m device t ((s.overlaid m).onChunkWritten result) := by
  by_cases hp : s.phase = .dataTransfer
  · cases result with
    | failed error =>
      refine ⟨s.onChunkWritten (.failed error), ?_, ?_⟩
      · rw [acknowledgement_of_not rfl, Turn.after_nil]
      · have hw : (s.phase = .dataTransfer && s.wait = .chunkAck) = true := by
          simp [hp, hs.chunkAck_iff.mpr hp]
        unfold Session.onChunkWritten
        rw [phase_overlaid, wait_overlaid, if_pos hw, if_pos hw]
        exact .failTo (s := s.cancelTimer) ⟨h.mode, h.device⟩ _ _
    | ok response =>
      refine ⟨if s.acknowledged.transfer.isDone = true then s.acknowledged.moveTo .verify
        else s.acknowledged.armTimer.sendNextChunk, ?_, ?_⟩
      · rw [hs.onChunkWritten_ok hp, h.chunkReport hp (e := .written .data (.ok response)) rfl]
      · have hack : s.acknowledged.Plain device := ⟨h.mode, h.device⟩
        rw [(hs.overlaid m).onChunkWritten_ok hp response]
        show Turn.Overlays m device _
          (if s.acknowledged.transfer.isDone = true then (s.acknowledged.overlaid m).moveTo .verify
            else ((s.acknowledged.armTimer).overlaid m).sendNextChunk)
        by_cases hall : s.acknowledged.transfer.isDone = true
        · rw [if_pos hall, if_pos hall]
          exact .moveTo hack _
        · rw [if_neg hall, if_neg hall]
          exact Plain.sendNextChunk (s := s.acknowledged.armTimer) ⟨h.mode, h.device⟩
  · refine ⟨s.stay, ?_, ?_⟩
    · rw [acknowledgement_of_phase hp, Session.onChunkWritten, if_neg (by simp [hp])]
      rfl
    · rw [Session.onChunkWritten, if_neg (by simp [hp])]
      exact .stay h

/-- But for the acknowledgement of a chunk both modes respond alike. -/
theorem Plain.respond (hs : s.Sound) (e : Event) :
    ∃ t, s.respond e = t.after (s.acknowledgement e) ∧
      Turn.Overlays m device t ((s.overlaid m).respond e) := by
  -- only a chunk that was written can be acknowledged
  have alike (he : e.acknowledges = false)
      (ho : Turn.Overlays m device (s.respond e) ((s.overlaid m).respond e)) :
      ∃ t, s.respond e = t.after (s.acknowledgement e) ∧
        Turn.Overlays m device t ((s.overlaid m).respond e) := by
    refine ⟨_, ?_, ho⟩
    rw [acknowledgement_of_not he, Turn.after_nil]
  cases e with
  | start => exact alike rfl h.onStart
  | connection connected error => exact alike rfl (h.onConnection connected error)
  | service variant error => exact alike rfl (h.onService variant error)
  | notifications enabled error => exact alike rfl (h.onNotifications enabled error)
  | written channel result =>
    cases channel with
    | controlPoint => exact alike rfl (h.onCommandWritten result)
    | data => exact h.onChunkWritten hs result
    | appInfo => exact alike rfl (.stay h)
  | value channel value error =>
    cases channel with
    | controlPoint => exact alike rfl (h.onIndication value)
    | data => exact alike rfl (.stay h)
    | appInfo => exact alike rfl (h.onAppInfo value)
  | meshMetadata metadata => exact alike rfl (h.onMeshMetadata metadata)
  | timeout id => exact alike rfl (.stay h)
  | abort dfu => exact alike rfl (h.onAbort dfu)

theorem Plain.onTimeout (hs : s.Sound) (id : Nat) :
    Turn.Overlays m device (s.onTimeout id) ((s.overlaid m).onTimeout id) := by
  unfold Session.onTimeout
  rw [timer_overlaid]
  cases hd : s.timer.due? id with
  | none => exact .stay h
  | some timeout =>
    have hfired : ({ s with timer := s.timer.fire } : Session).Plain device :=
      ⟨h.mode, h.device⟩
    have hsound := hs.withTimer (hs.not_idle_of_due hd) s.timer.fire
    refine .after ?_ rfl rfl
    rw [show ({ s.overlaid m with timer := s.timer.fire } : Session).failureEvent?
      = ({ s with timer := s.timer.fire } : Session).failureEvent? from rfl]
    split
    · exact .stay hfired
    · next e he =>
      obtain ⟨t, ht, ho⟩ := hfired.respond (m := m) hsound e
      have ha := (failureEvent?_fails he).2.1
      rw [acknowledgement_of_not ha, Turn.after_nil] at ht
      rw [ht]
      exact ho

/-- But for the acknowledgement of a chunk both modes handle an event alike. -/
theorem Plain.handle (hs : s.Sound) (e : Event) :
    ∃ t, s.handle e = t.after (s.acknowledgement e) ∧
      Turn.Overlays m device t ((s.overlaid m).handle e) := by
  cases hf : s.finished with
  | true =>
    rw [handle_of_finished hf, handle_of_finished (s := s.overlaid m) hf]
    have hp : s.phase ≠ .dataTransfer := by
      rw [hs.finished_iff.mp hf]
      nofun
    refine ⟨s.stay, ?_, .stay h⟩
    rw [acknowledgement_of_phase hp, Turn.after_nil]
  | false =>
    by_cases hn : ∀ id, e ≠ .timeout id
    · obtain ⟨t, ht, ho⟩ := h.respond (m := m) hs e
      refine ⟨settle t, ?_, ?_⟩
      · rw [handle_of_unfinished hf hn, ht, settle_after]
      · rw [handle_of_unfinished (s := s.overlaid m) hf hn]
        exact ho.settle
    · obtain ⟨id, rfl⟩ : ∃ id, e = .timeout id := by simpa using hn
      have hd : s.dispatch (.timeout id) = s.onTimeout id := if_neg (by simp [hf])
      have hd' : (s.overlaid m).dispatch (.timeout id) = (s.overlaid m).onTimeout id :=
        if_neg (by simp [hf])
      refine ⟨s.handle (.timeout id), ?_, ?_⟩
      · rw [acknowledgement_of_not rfl, Turn.after_nil]
      · unfold Session.handle
        rw [hd, hd']
        exact (h.onTimeout hs id).settle

end Session
end OtaUpgrade
