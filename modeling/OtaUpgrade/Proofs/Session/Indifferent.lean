import Mathlib
import OtaUpgrade.Proofs.Session.Advancing

/-!
What the turns of a session do not depend on. A response looks at the timer in one place only, to
see whether a timeout is armed, and at the identity of the device nowhere; apart from that it gives
the timeout up or arms another. So two sessions whose timers and identities are related by an
`Indifference` respond to any event alike, and are so related again
(`Indifference.Sessions.respond`). Only a timeout tells more, by its number.
-/
namespace OtaUpgrade

/-- Timers and identities between which no response tells a difference. -/
structure Indifference where
  timers : Timer → Timer → Prop
  identities : Option Identity → Option Identity → Prop
  armed : ∀ {t t' : Timer}, timers t t' → t'.armed.isSome = t.armed.isSome
  arm : ∀ {t t' : Timer}, timers t t' → ∀ (timeouts : Timeouts) (p : Phase),
    timers (t.arm timeouts p) (t'.arm timeouts p)
  same : ∀ i, identities i i

namespace Session

/-- The session with another timer and another identity. -/
def recast (s : Session) (timer : Timer) (identity : Option Identity) : Session :=
  { s with timer, identity }

section recast

variable (s : Session) (t : Timer) (i : Option Identity)

@[simp] theorem image_recast : (s.recast t i).image = s.image := rfl
@[simp] theorem device_recast : (s.recast t i).device = s.device := rfl
@[simp] theorem phase_recast : (s.recast t i).phase = s.phase := rfl
@[simp] theorem wait_recast : (s.recast t i).wait = s.wait := rfl
@[simp] theorem timer_recast : (s.recast t i).timer = t := rfl
@[simp] theorem transfer_recast : (s.recast t i).transfer = s.transfer := rfl
@[simp] theorem guard_recast : (s.recast t i).guard = s.guard := rfl
@[simp] theorem running_recast : (s.recast t i).running = s.running := rfl
@[simp] theorem connected_recast : (s.recast t i).connected = s.connected := rfl
@[simp] theorem variant_recast : (s.recast t i).variant = s.variant := rfl

end recast

end Session

namespace Indifference

variable (R : Indifference)

theorem cancel {t t' : Timer} (h : R.timers t t') : R.timers t.cancel t'.cancel := by
  have hend := R.arm h {} .complete
  rwa [Timer.arm_complete, Timer.arm_complete] at hend

/-- The sessions differ in timer and identity at most, and there indifferently. -/
inductive Sessions (s : Session) : Session → Prop where
  | recast {t : Timer} {i : Option Identity} (ht : R.timers s.timer t)
      (hi : R.identities s.identity i) : Sessions s (s.recast t i)

/-- The turns do the same and go on alike. -/
structure Turns (a b : Turn) : Prop where
  session : R.Sessions a.session b.session
  effects : b.effects = a.effects
  reaction : b.reaction = a.reaction

variable {R} {s s' : Session} {a b : Turn}

namespace Turns

theorem crash? (h : R.Turns a b) : b.crash? = a.crash? := by
  unfold Turn.crash?
  rw [h.reaction]

theorem after (h : R.Turns a b) (es : List Effect) : R.Turns (a.after es) (b.after es) :=
  ⟨h.session, congrArg (es ++ ·) h.effects, h.reaction⟩

variable (h : R.Sessions s s')

include h

theorem stay (es : List Effect) : R.Turns (s.stay es) (s'.stay es) := ⟨h, rfl, rfl⟩

theorem moveTo (p : Phase) : R.Turns (s.moveTo p) (s'.moveTo p) := ⟨h, rfl, rfl⟩

theorem failTo (cause : Cause) (p : Phase) : R.Turns (s.failTo cause p) (s'.failTo cause p) :=
  ⟨h, rfl, rfl⟩

theorem crashed (c : Crash) : R.Turns (s.crashed c) (s'.crashed c) := ⟨h, rfl, rfl⟩

theorem ask (d : Device) (c : DeviceCall) : R.Turns (s.ask d c) (s'.ask d c) := ⟨h, rfl, rfl⟩

end Turns

namespace Sessions

section

variable (h : R.Sessions s s')

include h

theorem eq_recast : s' = s.recast s'.timer s'.identity := by
  cases h
  rfl

theorem timers : R.timers s.timer s'.timer := by
  obtain ⟨ht, -⟩ := h
  exact ht

theorem phase : s'.phase = s.phase := by
  cases h
  rfl

theorem finished : s'.finished = s.finished := by
  cases h
  rfl

theorem status : s'.status = s.status := by
  cases h
  rfl

theorem cancelTimer : R.Sessions s.cancelTimer s'.cancelTimer := by
  obtain ⟨ht, hi⟩ := h
  exact .recast (R.cancel ht) hi

theorem armTimer : R.Sessions s.armTimer s'.armTimer := by
  obtain ⟨ht, hi⟩ := h
  exact .recast (R.arm ht _ _) hi

theorem awaiting (w : Wait) :
    R.Sessions ({ s with wait := w } : Session) ({ s' with wait := w } : Session) := by
  obtain ⟨ht, hi⟩ := h
  exact .recast ht hi

theorem arrive (p : Phase) : R.Sessions (s.arrive p) (s'.arrive p) := by
  obtain ⟨ht, hi⟩ := h
  exact .recast (R.arm (R.cancel ht) _ _) hi

theorem recordError (cause : Cause) :
    R.Sessions (s.recordError cause) (s'.recordError cause) := by
  obtain ⟨ht, hi⟩ := h
  rw [Session.recordError_eq, Session.recordError_eq]
  exact .recast ht hi

/-! ## Entering a phase -/

theorem withDevice {f g : Device → Turn} (hfg : ∀ d, R.Turns (f d) (g d)) :
    R.Turns (s.withDevice f) (s'.withDevice g) := by
  have hd : s'.device = s.device := by
    cases h
    rfl
  unfold Session.withDevice
  rw [hd]
  split
  · exact hfg _
  · exact .failTo h _ _

theorem sendCommand (d : Device) (c : Command) :
    R.Turns (s.sendCommand d c) (s'.sendCommand d c) :=
  .ask (h.awaiting _) d _

theorem enterConnect : R.Turns s.enterConnect s'.enterConnect := by
  obtain ⟨ht, hi⟩ := h
  unfold Session.enterConnect
  rw [Session.image_recast, Session.guard_recast]
  split
  · exact .failTo (.recast ht hi) _ _
  · refine withDevice (.recast ht hi) fun d => ?_
    split
    · exact .stay (.recast ht hi) _
    · refine .after (.ask ?_ d _) _
      exact .recast ht hi

theorem askMeshCore (rearm : Bool) : R.Turns (s.askMeshCore rearm) (s'.askMeshCore rearm) := by
  obtain @⟨t, i, ht, hi⟩ := h
  cases ha : s.askable? with
  | none =>
    rw [Session.askMeshCore_of_none ha, Session.askMeshCore_of_none (s := s.recast t i) ha]
    exact .moveTo (.recast ht hi) _
  | some address =>
    rw [Session.askMeshCore_of_some ha, Session.askMeshCore_of_some (s := s.recast t i) ha]
    refine .stay ?_ _
    cases rearm with
    | false => exact .recast ht hi
    | true => exact .recast (R.arm ht _ _) hi

theorem enterReadAppInfo : R.Turns s.enterReadAppInfo s'.enterReadAppInfo := by
  have hmesh := h.askMeshCore false
  have hread := h.awaiting .appInfo
  obtain ⟨ht, hi⟩ := h
  unfold Session.enterReadAppInfo
  rw [Session.variant_recast, Session.device_recast]
  split
  · split
    · exact .ask hread _ _
    · exact hmesh
  · exact hmesh

theorem enterVerify : R.Turns s.enterVerify s'.enterVerify := by
  have hsend (d : Device) (c : Command) := h.sendCommand d c
  obtain ⟨ht, hi⟩ := h
  unfold Session.enterVerify
  rw [Session.transfer_recast]
  split
  · exact .failTo (.recast ht hi) _ _
  · exact withDevice (.recast ht hi) fun d => hsend d _

theorem enterAbort : R.Turns s.enterAbort s'.enterAbort := by
  have hsend (d : Device) (c : Command) := h.sendCommand d c
  obtain ⟨ht, hi⟩ := h
  unfold Session.enterAbort
  rw [Session.connected_recast, Session.device_recast]
  split
  · refine .after ?_ _
    split
    · exact hsend _ _
    · exact .moveTo (.recast ht hi) _
  · exact .moveTo (.recast ht hi) _

theorem failTransfer (reason : String) :
    R.Turns (s.failTransfer reason) (s'.failTransfer reason) := by
  obtain ⟨ht, hi⟩ := h
  exact .failTo (.recast ht hi) _ _

theorem sendNextChunk : R.Turns s.sendNextChunk s'.sendNextChunk := by
  have hfail (reason : String) := h.failTransfer reason
  obtain ⟨ht, hi⟩ := h
  unfold Session.sendNextChunk
  rw [Session.transfer_recast, Session.image_recast, Session.device_recast]
  split
  · exact hfail _
  · split
    · exact hfail _
    · exact hfail _
    · split
      · exact .crashed (.recast ht hi) _
      · dsimp only
        split
        · exact .crashed (.recast ht hi) _
        · split
          · refine .ask ?_ _ _
            exact .recast ht hi
          · exact .crashed (.recast ht hi) _

theorem enter_complete : R.Turns (s.enter .complete) (s'.enter .complete) := by
  obtain @⟨t, i, ht, hi⟩ := h
  cases hf : s.finished with
  | true =>
    rw [Session.enter_complete_of_finished hf,
      Session.enter_complete_of_finished (s := s.recast t i) hf]
    exact .stay (arrive (.recast ht hi) _) _
  | false =>
    rw [Session.enter_complete hf, Session.enter_complete (s := s.recast t i) hf]
    show R.Turns _ (if s.breaksOnParting = true then _ else _)
    split
    · exact ⟨arrive (.recast ht hi) _, rfl, rfl⟩
    · refine .stay ?_ _
      exact .recast (R.arm (R.cancel ht) s.config.timeouts .complete) hi

theorem entryAction {p : Phase} (hp : p ≠ .complete) :
    R.Turns (s.entryAction p) (s'.entryAction p) := by
  cases p with
  | idle => exact .stay h _
  | connect => exact h.enterConnect
  | serviceDiscover => exact h.withDevice fun d => .ask h d _
  | readAppInfo => exact h.enterReadAppInfo
  | enableNotification => exact h.withDevice fun d => .ask h d _
  | prepareForDownload =>
    have hm : s'.mode = s.mode := by
      cases h
      rfl
    unfold Session.entryAction
    rw [hm]
    exact h.withDevice fun d => h.sendCommand d _
  | startDownload =>
    have hx : s'.transfer = s.transfer := by
      cases h
      rfl
    unfold Session.entryAction
    rw [hx]
    exact h.withDevice fun d => h.sendCommand d _
  | dataTransfer => exact h.sendNextChunk
  | verify => exact h.enterVerify
  | abort => exact h.enterAbort
  | complete => exact absurd rfl hp

theorem enter (p : Phase) : R.Turns (s.enter p) (s'.enter p) := by
  by_cases hp : p = .complete
  · rw [hp]
    exact h.enter_complete
  · have hreport : (s'.arrive p).arrival = (s.arrive p).arrival := by
      cases h
      rfl
    rw [Session.enter_eq hp rfl, Session.enter_eq hp rfl, hreport]
    exact .after ((h.arrive p).entryAction hp) _

end

end Sessions

/-! ## Following a turn -/

theorem Turns.follow (depth : Nat) (h : R.Turns a b) :
    R.Turns (Session.follow depth a) (Session.follow depth b) := by
  -- on the depth: the turns enter the same phases
  induction depth generalizing a b with
  | zero => exact h
  | succ depth ih =>
    unfold Session.follow
    rw [h.reaction, h.effects]
    split
    · exact h
    · exact h
    · exact ih (.after (h.session.enter _) _)
    · exact ih (.after ((h.session.recordError _).enter _) _)

theorem Turns.settle (h : R.Turns a b) : R.Turns (Session.settle a) (Session.settle b) := by
  unfold Session.settle
  rw [h.reaction]
  exact h.follow _

/-! ## Responses -/

namespace Sessions

variable (h : R.Sessions s s')

include h

theorem onStart : R.Turns s.onStart s'.onStart := by
  obtain ⟨ht, hi⟩ := h
  unfold Session.onStart
  rw [Session.phase_recast, Session.running_recast]
  split
  · refine .moveTo ?_ _
    exact .recast ht hi
  · exact .stay (.recast ht hi) _

theorem onConnected : R.Turns s.onConnected s'.onConnected := by
  obtain @⟨t, i, ht, hi⟩ := h
  unfold Session.onConnected
  rw [Session.phase_recast]
  split
  · have hup : R.Sessions ({ s.cancelTimer with connected := true } : Session)
        ({ (s.recast t i).cancelTimer with connected := true } : Session) :=
      .recast (R.cancel ht) hi
    refine hup.withDevice fun d => ?_
    dsimp only [Session.cancelTimer, Session.recast]
    split
    · exact .crashed hup _
    · exact .failTo hup _ _
    · refine .moveTo ?_ _
      exact .recast (R.cancel ht) hi
  · exact .stay (.recast ht hi) _

theorem verifyAccepted : s'.verifyAccepted = s.verifyAccepted := by
  obtain ⟨ht, -⟩ := h
  unfold Session.verifyAccepted
  rw [Session.phase_recast, Session.wait_recast, Session.timer_recast, R.armed ht]

theorem onDisconnected (error : Option LinkError) :
    R.Turns (s.onDisconnected error) (s'.onDisconnected error) := by
  obtain @⟨t, i, ht, hi⟩ := h
  have hdown : R.Sessions ({ s with connected := false } : Session)
      ({ s.recast t i with connected := false } : Session) := .recast ht hi
  unfold Session.onDisconnected
  dsimp only
  rw [hdown.verifyAccepted, Session.phase_recast]
  split
  · exact .after (.moveTo hdown.cancelTimer _) _
  · split
    · exact .stay hdown _
    · exact .stay hdown _
    · exact .failTo hdown.cancelTimer _ _
    · exact .moveTo hdown.cancelTimer _
    · exact .failTo hdown.cancelTimer _ _

theorem onConnection (connected : Bool) (error : Option LinkError) :
    R.Turns (s.onConnection connected error) (s'.onConnection connected error) := by
  have hanswered : R.Sessions ({ s with guard := s.guard.finish .connection } : Session)
      ({ s' with guard := s'.guard.finish .connection } : Session) := by
    obtain ⟨ht, hi⟩ := h
    exact .recast ht hi
  cases connected with
  | true => exact hanswered.onConnected
  | false => exact hanswered.onDisconnected error

theorem close :
    R.Turns
      (match s.device with
        | some d => s.ask d .disconnect
        | none => s.moveTo .complete)
      (match s'.device with
        | some d => s'.ask d .disconnect
        | none => s'.moveTo .complete) := by
  obtain ⟨ht, hi⟩ := h
  rw [Session.device_recast]
  split
  · exact .ask (.recast ht hi) _ _
  · exact .moveTo (.recast ht hi) _

theorem onAbort (dfu : Bool) : R.Turns (s.onAbort dfu) (s'.onAbort dfu) := by
  obtain @⟨t, i, ht, hi⟩ := h
  have hmarked : R.Sessions ({ s with stopRequested := s.stopRequested || dfu } : Session)
      ({ s.recast t i with stopRequested := s.stopRequested || dfu } : Session) := .recast ht hi
  unfold Session.onAbort
  dsimp only
  rw [Session.phase_recast]
  split
  · exact .failTo hmarked _ _
  · exact .stay hmarked _
  · exact .stay hmarked _
  · split
    · exact .failTo hmarked _ _
    · exact (hmarked.recordError _).close

theorem onService (variant : Option Variant) (error : Option LinkError) :
    R.Turns (s.onService variant error) (s'.onService variant error) := by
  obtain ⟨ht, hi⟩ := h
  unfold Session.onService
  rw [Session.phase_recast]
  split
  · dsimp only
    split
    · refine .moveTo ?_ _
      exact .recast (R.cancel ht) hi
    · exact .failTo (cancelTimer (.recast ht hi)) _ _
  · exact .stay (.recast ht hi) _

theorem onAppInfo (value : Option Bytes) : R.Turns (s.onAppInfo value) (s'.onAppInfo value) := by
  obtain ⟨ht, hi⟩ := h
  unfold Session.onAppInfo
  rw [Session.phase_recast, Session.wait_recast]
  split
  · dsimp only
    split
    · refine .moveTo ?_ _
      exact .recast (R.cancel ht) (R.same _)
    · exact askMeshCore (cancelTimer (.recast ht hi)) true
  · exact .stay (.recast ht hi) _

theorem onMeshMetadata (metadata : Option ComponentMetadata) :
    R.Turns (s.onMeshMetadata metadata) (s'.onMeshMetadata metadata) := by
  obtain ⟨ht, hi⟩ := h
  unfold Session.onMeshMetadata
  dsimp only
  rw [Session.phase_recast, Session.wait_recast, Session.guard_recast]
  split
  · split
    · refine .moveTo ?_ _
      exact .recast (R.cancel ht) (R.same _)
    · refine .moveTo ?_ _
      exact .recast (R.cancel ht) hi
  · refine .stay ?_ _
    exact .recast ht hi

theorem onNotifications (enabled : Bool) (error : Option LinkError) :
    R.Turns (s.onNotifications enabled error) (s'.onNotifications enabled error) := by
  unfold Session.onNotifications
  rw [h.phase]
  split
  · dsimp only
    split
    · exact .moveTo h.cancelTimer _
    · exact .failTo h.cancelTimer _ _
  · exact .stay h _

theorem onStatus (command : Opcode) (status : Status) :
    R.Turns (s.onStatus command status) (s'.onStatus command status) := by
  unfold Session.onStatus
  dsimp only
  rw [h.cancelTimer.phase]
  split
  · split
    · exact .moveTo h.cancelTimer _
    · exact .failTo h.cancelTimer _ _
  · split
    · exact .moveTo h.cancelTimer _
    · exact .failTo h.cancelTimer _ _
  · split
    · exact .moveTo h.cancelTimer _
    · exact .failTo h.cancelTimer _ _
  · exact .moveTo h.cancelTimer _

theorem commandInHand? : s'.commandInHand? = s.commandInHand? := by
  cases h
  rfl

theorem onCommandWritten (result : WriteResult) :
    R.Turns (s.onCommandWritten result) (s'.onCommandWritten result) := by
  unfold Session.onCommandWritten
  rw [h.commandInHand?]
  split
  · exact .stay h _
  · split
    · exact h.onStatus _ _
    · exact .stay (h.awaiting _) _
    · dsimp only
      split
      · exact .moveTo h.cancelTimer _
      · split
        · exact .failTo h.cancelTimer _ _
        · exact .failTo h.cancelTimer _ _

theorem onIndication (value : Option Bytes) :
    R.Turns (s.onIndication value) (s'.onIndication value) := by
  unfold Session.onIndication
  rw [h.commandInHand?]
  split
  · exact .stay h _
  · exact h.onStatus _ _

theorem onChunkWritten (result : WriteResult) :
    R.Turns (s.onChunkWritten result) (s'.onChunkWritten result) := by
  have hfail (reason : String) := h.cancelTimer.failTransfer reason
  obtain @⟨t, i, ht, hi⟩ := h
  have hacknowledged : R.Sessions s.acknowledged (s.recast t i).acknowledged :=
    .recast (R.cancel ht) hi
  unfold Session.onChunkWritten
  rw [Session.phase_recast, Session.wait_recast]
  split
  · split
    · exact hfail _
    · show R.Turns
        (if s.transfer.offset + s.transfer.inFlight < wordLimit then
          (if s.acknowledged.transfer.isDone = true then s.acknowledged.moveTo .verify
            else s.acknowledged.armTimer.sendNextChunk).after s.chunkReport
          else s.cancelTimer.crashed .sizeOverflow)
        (if s.transfer.offset + s.transfer.inFlight < wordLimit then
          (if s.acknowledged.transfer.isDone = true then (s.recast t i).acknowledged.moveTo .verify
            else (s.recast t i).acknowledged.armTimer.sendNextChunk).after s.chunkReport
          else (s.recast t i).cancelTimer.crashed .sizeOverflow)
      split
      · refine .after ?_ _
        split
        · exact .moveTo hacknowledged _
        · exact hacknowledged.armTimer.sendNextChunk
      · exact .crashed (cancelTimer (.recast ht hi)) _
  · exact .stay (.recast ht hi) _

/-- Only a timeout tells the difference. -/
theorem respond (e : Event) : R.Turns (s.respond e) (s'.respond e) := by
  cases e with
  | start => exact h.onStart
  | connection connected error => exact h.onConnection connected error
  | service variant error => exact h.onService variant error
  | notifications enabled error => exact h.onNotifications enabled error
  | written channel result =>
    cases channel with
    | controlPoint => exact h.onCommandWritten result
    | data => exact h.onChunkWritten result
    | appInfo => exact .stay h _
  | value channel value error =>
    cases channel with
    | controlPoint => exact h.onIndication value
    | data => exact .stay h _
    | appInfo => exact h.onAppInfo value
  | meshMetadata metadata => exact h.onMeshMetadata metadata
  | timeout id => exact .stay h _
  | abort dfu => exact h.onAbort dfu

/-- So an event that is not a timeout is handled alike. -/
theorem handle {e : Event} (hn : ∀ id, e ≠ .timeout id) :
    R.Turns (s.handle e) (s'.handle e) := by
  cases hf : s.finished with
  | true =>
    rw [Session.handle_of_finished hf, Session.handle_of_finished (h.finished.trans hf)]
    exact .stay h _
  | false =>
    rw [Session.handle_of_unfinished hf hn, Session.handle_of_unfinished (h.finished.trans hf) hn]
    exact (h.respond e).settle

end Sessions
end Indifference
end OtaUpgrade
