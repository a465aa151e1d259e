import Mathlib
import OtaUpgrade.Proofs.Session.SoundStep

/-!
What an event that takes an upgrade on leads to, as an equation: where `step_complete` says that
nothing but a step comes of an event, `Advance.handle` says that an advance does come of its event.
-/
namespace OtaUpgrade

/-- Success comes with the write of a command or as an indication. -/
theorem Event.eq_of_grants {e : Event} (h : e.grants = true) :
    e = .written .controlPoint (.ok (some [0])) ∨
      ∃ error, e = .value .controlPoint (some [0]) error := by
  simp only [grants, beq_iff_eq] at h
  unfold answer? at h
  split at h
  · exact .inl (by simpa using h)
  · next error => exact .inr ⟨error, by simpa using h⟩
  · cases h

namespace Session

theorem dispatch_of_unfinished {s : Session} (hf : s.finished = false) {e : Event}
    (hn : ∀ id, e ≠ .timeout id) : s.dispatch e = s.respond e := by
  rw [dispatch, if_neg (by simp [hf])]
  exact hn

theorem handle_of_unfinished {s : Session} (hf : s.finished = false) {e : Event}
    (hn : ∀ id, e ≠ .timeout id) : s.handle e = settle (s.respond e) := by
  rw [Session.handle, dispatch_of_unfinished hf hn]

/-- The timeout outstanding is handled as the failure that it stands for. -/
theorem handle_timeout {s : Session} (hf : s.finished = false) {id : Nat} {timeout : Timeout}
    (hd : s.timer.due? id = some timeout) {e : Event}
    (he : s.failureEvent? (.timeout timeout.ms) = some e) (hn : ∀ id, e ≠ .timeout id) :
    s.handle (.timeout id)
      = (({ s with timer := s.timer.fire } : Session).handle e).after
          [.report (.log .warn s!"{timeout.phase.name} timed out after {timeout.ms}ms")] := by
  have hdispatch : s.dispatch (.timeout id) = s.onTimeout id := if_neg (by simp [hf])
  have hfired : ({ s with timer := s.timer.fire } : Session).finished = false := hf
  rw [handle_of_unfinished hfired hn, ← settle_after, handle, hdispatch, onTimeout_of_due hd he]

theorem Advance.ne_timeout {s s' : Session} {e : Event} {es : List Effect} {p : Phase}
    (ha : Advance s e s' es p) (id : Nat) : e ≠ .timeout id := by
  rintro rfl
  cases ha with
  | prepared _ hg | started _ hg | verified _ hg => cases hg
  | gaveUp _ he => simp [Event.answer?] at he

section

variable {s : Session} (h : s.Sound)

include h

/-- An answer to the command in hand is taken for its status. -/
theorem Sound.respond_of_answer {command : Opcode} (hc : commandOf? s.phase = some command)
    {e : Event} {answer : Option Bytes} (he : e.answer? = some answer) :
    s.respond e = s.onStatus command (Status.decode answer) := by
  have hin : s.commandInHand? = some command := h.commandInHand?_eq.trans hc
  unfold Event.answer? at he
  split at he
  · obtain rfl := Option.some.inj he
    simp only [respond, onCommandWritten, hin]
  · obtain rfl := Option.some.inj he
    simp only [respond, onIndication, hin]
  · cases he

theorem Sound.respond_of_grants {command : Opcode} (hc : commandOf? s.phase = some command)
    {e : Event} (hg : e.grants = true) : s.respond e = s.onStatus command .success := by
  have hd : Status.decode (some [0]) = .success := Status.decode_eq_success_iff.mpr rfl
  obtain rfl | ⟨error, rfl⟩ := e.eq_of_grants hg
  · rw [h.respond_of_answer hc rfl, hd]
  · rw [h.respond_of_answer hc rfl, hd]

/-- An acknowledgement is followed by verification or by the next chunk. -/
theorem Sound.reply_acknowledged {response : Option Bytes} {t : Turn} (hp : s.phase = .dataTransfer)
    (hr : Reply s (.written .data (.ok response)) t) :
    (s.acknowledged.transfer.isDone = true ∧
        t = (s.acknowledged.proceed .verify).after s.chunkReport) ∨
      ∃ image d size count, s.image = some image ∧ s.device = some d ∧
        s.transfer = .after image size count (count + 1) ∧ (count + 1) * size < image.size ∧
        t = ((s.acknowledged.armTimer.sending image size (count + 1)).ask d
          (.write .data (image.chunk size (count + 1)))).after s.chunkReport := by
  cases hr with
  | rest hx => simp [expects, h.chunkAck_iff.mpr hp] at hx
  | advance ha =>
    cases ha with
    | transferred _ hall => exact .inl ⟨hall, rfl⟩
    | prepared hq | started hq | verified hq | gaveUp hq =>
      rw [hp] at hq
      cases hq
  | failure ha =>
    cases ha with
    | unprepared hq | unstarted hq | unverified hq =>
      rw [hp] at hq
      cases hq
  | next _ hi hd _ ht lt => exact .inr ⟨_, _, _, _, hi, hd, ht, lt, rfl⟩

omit h in
/-- Everything is acknowledged exactly if no chunk is left to send. -/
theorem isDone_acknowledged {image : Image} {size count : Nat} (lt : count * size < image.size)
    (ht : s.transfer = .after image size count (count + 1)) :
    s.acknowledged.transfer.isDone = true ↔ image.size ≤ (count + 1) * size := by
  rw [transfer_acknowledged lt ht, Transfer.isDone_after_self, Image.covered]
  omega

/-- The answer to an event that takes an upgrade on is to enter the next phase. -/
theorem Advance.respond {e : Event} {s' : Session} {es : List Effect} {p : Phase}
    (ha : Advance s e s' es p) : s.respond e = (s'.moveTo p).after es := by
  -- but for the transfer and a device that has rebooted there are no effects before the phase's
  cases ha with
  | start hp =>
    show s.onStart = _
    rw [onStart, if_pos (by simp [hp, (h.idle hp).1])]
    rfl
  | @connected d size error hp hd hs pos =>
    show (s.noting (.connection true error)).onConnected = _
    rw [onConnected_eq (s := s.noting (.connection true error)) hp hd]
    obtain ⟨n, rfl⟩ : ∃ n, size = n + 1 := ⟨size - 1, by omega⟩
    rw [config_noting, hs]
    rfl
  | @discovered v hp =>
    show s.onService (some v) none = _
    rw [onService, if_pos hp]
    rfl
  | @informed value error info hw hv =>
    show s.onAppInfo value = _
    rw [onAppInfo, if_pos (by simp [h.phase_of_appInfo hw, hw])]
    simp only [hv]
    rfl
  | @uninformed value error hw hv hask =>
    show s.onAppInfo value = _
    rw [onAppInfo, if_pos (by simp [h.phase_of_appInfo hw, hw])]
    simp only [hv]
    exact askMeshCore_of_none (s := s.cancelTimer) hask true
  | @identified metadata hw hg =>
    show s.onMeshMetadata metadata = _
    rw [onMeshMetadata]
    dsimp only
    rw [if_pos (by simp [hg, h.phase_of_meshMetadata hw, hw])]
    cases metadata <;> rfl
  | notifying hp =>
    show s.onNotifications true none = _
    rw [onNotifications, if_pos hp]
    rfl
  | prepared hp hg | started hp hg | verified hp hg =>
    rw [h.respond_of_grants (by rw [hp]; rfl) hg, Turn.after_nil]
    simp [onStatus, cancelTimer, hp]
  | @transferred response hp hall =>
    show s.onChunkWritten (.ok response) = _
    rw [h.onChunkWritten_ok hp, if_pos hall]
  | @rebooted error hp hw ht =>
    show (s.noting (.connection false error)).onDisconnected error = _
    rw [onDisconnected]
    dsimp only
    rw [if_pos (by simp [verifyAccepted, hp, hw, ht])]
    rfl
  | gaveUp hp he =>
    have hc : commandOf? s.phase = some .abort := by
      rw [hp]
      rfl
    rw [Turn.after_nil]
    obtain he | ⟨error, rfl⟩ | ⟨error, rfl⟩ := he
    · obtain ⟨answer, he⟩ := Option.isSome_iff_exists.mp he
      rw [h.respond_of_answer hc he, noting_of_answer he]
      simp [onStatus, cancelTimer, hp]
    · show (s.noting (.connection false error)).onDisconnected error = _
      rw [onDisconnected]
      dsimp only
      rw [if_neg (by simp [verifyAccepted, hp])]
      simp [noting, cancelTimer, hp]
    · show s.onCommandWritten (.failed error) = _
      simp only [onCommandWritten, h.commandInHand?_eq, hc]
      rfl

/-- An event that takes an upgrade on does so. -/
theorem Advance.handle (hf : s.finished = false) {e : Event} {s' : Session} {es : List Effect}
    {p : Phase} (ha : Advance s e s' es p) : s.handle e = (s'.proceed p).after es := by
  rw [handle_of_unfinished hf ha.ne_timeout, ha.respond h, settle_after, settle_moveTo]

/-! ## Going on within a phase -/

/-- A command without an answer along with its write is waited for. -/
theorem Sound.handle_written (hf : s.finished = false)
    (hc : (commandOf? s.phase).isSome = true) :
    s.handle (.written .controlPoint (.ok none))
      = ({ s with wait := .response } : Session).stay := by
  obtain ⟨command, hc⟩ := Option.isSome_iff_exists.mp hc
  refine (handle_of_unfinished hf (by nofun)).trans ?_
  show settle (s.onCommandWritten (.ok none)) = _
  simp only [onCommandWritten, h.commandInHand?_eq, hc]
  exact settle_of_stay rfl

/-- Where the application info cannot be had from the device, the mesh core is asked. -/
theorem Sound.handle_asks (hf : s.finished = false) {value : Option Bytes}
    {error : Option LinkError} {address : UInt16} (hw : s.wait = .appInfo)
    (hv : value.bind AppInfo.decode? = none) (ha : s.askable? = some address) :
    s.handle (.value .appInfo value error)
      = ({ s.cancelTimer.armTimer with
            guard := s.guard.begin .componentMetadata
            wait := .meshMetadata } : Session).stay [.askMesh address] := by
  refine (handle_of_unfinished hf (by nofun)).trans ?_
  show settle (s.onAppInfo value) = _
  rw [onAppInfo, if_pos (by simp [h.phase_of_appInfo hw, hw])]
  simp only [hv]
  exact settle_askMeshCore_some (s := s.cancelTimer) ha true

/-- An acknowledgement that is not the last one is followed by the next chunk. -/
theorem Sound.handle_next (hf : s.finished = false) (hp : s.phase = .dataTransfer) {image : Image}
    {d : Device} {size count : Nat} {response : Option Bytes} (hi : s.image = some image)
    (hd : s.device = some d) (ht : s.transfer = .after image size count (count + 1))
    (lt : (count + 1) * size < image.size) :
    s.handle (.written .data (.ok response))
      = ((s.acknowledged.armTimer.sending image size (count + 1)).ask d
          (.write .data (image.chunk size (count + 1)))).after s.chunkReport := by
  refine (handle_of_unfinished hf (by nofun)).trans ?_
  rcases h.reply_acknowledged hp (response_chunkWritten h (.ok response)).reply with
    ⟨hall, -⟩ | ⟨image', d', size', count', hi', hd', ht', -, hturn⟩
  · rw [isDone_acknowledged (Nat.lt_of_le_of_lt (Nat.mul_le_mul_right _ (Nat.le_succ _)) lt) ht]
      at hall
    omega
  · -- the books tell the chunk
    obtain rfl : image = image' := Option.some.inj (hi.symm.trans hi')
    obtain rfl : d = d' := Option.some.inj (hd.symm.trans hd')
    have hbooks := ht.symm.trans ht'
    obtain rfl : size = size' := congrArg Transfer.chunkSize hbooks
    obtain rfl : count = count' := Nat.succ.inj (congrArg Transfer.chunksSent hbooks)
    exact hturn

end

/-- The request to begin is passed over once the upgrade has begun. -/
theorem handle_start_again {s : Session} (hf : s.finished = false) (hp : s.phase ≠ .idle) :
    s.handle .start = s.stay := by
  refine (handle_of_unfinished hf (by nofun)).trans ?_
  show settle s.onStart = _
  rw [onStart, if_neg (by simp [hp])]
  exact settle_of_stay rfl

/-- An answer of the mesh core that is not waited for is only taken off the guard. -/
theorem handle_meshMetadata_late {s : Session} (hf : s.finished = false)
    (metadata : Option ComponentMetadata) (hw : s.wait ≠ .meshMetadata) :
    s.handle (.meshMetadata metadata) = (s.noting (.meshMetadata metadata)).stay := by
  refine (handle_of_unfinished hf (by nofun)).trans ?_
  show settle (s.onMeshMetadata metadata) = _
  rw [onMeshMetadata]
  dsimp only
  rw [if_neg (by simp [hw])]
  exact settle_of_stay rfl

end Session
end OtaUpgrade
