import Mathlib
import OtaUpgrade.Proofs.Session.Reply

/-!
Nothing but a `Dispatch` is the first answer to an event, so nothing but a `Step` comes of it
(`dispatch_complete`, `step_complete`). The cases follow the handlers of the events; a handler that
does not wait for its event leads to `Answer.rest`.
-/
namespace OtaUpgrade.Session

theorem phase_abort_of_command {p : Phase} {command : Opcode} (h : commandOf? p = some command)
    (h1 : p ≠ .prepareForDownload) (h2 : p ≠ .startDownload) (h3 : p ≠ .verify) : p = .abort := by
  cases p <;> simp_all [commandOf?]

theorem onTimeout_of_stale {s : Session} {id : Nat} (hd : s.timer.due? id = none) :
    s.onTimeout id = s.stay := by
  unfold onTimeout
  rw [hd]

theorem onTimeout_of_due {s : Session} {id : Nat} {timeout : Timeout} {e : Event}
    (hd : s.timer.due? id = some timeout)
    (he : s.failureEvent? (.timeout timeout.ms) = some e) :
    s.onTimeout id = (({ s with timer := s.timer.fire } : Session).respond e).after
      [.report (.log .warn s!"{timeout.phase.name} timed out after {timeout.ms}ms")] := by
  have hfired : ({ s with timer := s.timer.fire } : Session).failureEvent? (.timeout timeout.ms)
      = some e := he
  simp only [onTimeout, hd, hfired]

theorem onTimeout_of_unfailing {s : Session} {id : Nat} {timeout : Timeout}
    (hd : s.timer.due? id = some timeout)
    (he : s.failureEvent? (.timeout timeout.ms) = none) :
    s.onTimeout id = (({ s with timer := s.timer.fire } : Session).stay).after
      [.report (.log .warn s!"{timeout.phase.name} timed out after {timeout.ms}ms")] := by
  have hfired : ({ s with timer := s.timer.fire } : Session).failureEvent? (.timeout timeout.ms)
      = none := he
  simp only [onTimeout, hd, hfired]

section complete

variable {s : Session} (h : s.Sound)

theorem response_status {e : Event} {command : Opcode} {answer : Option Bytes}
    (hc : commandOf? s.phase = some command) (he : e.answer? = some answer) :
    Response s e (s.onStatus command (Status.decode answer)) := by
  have hg := Event.grants_iff he
  -- an upgrade that is given up ends with any answer
  have ends (hp : s.phase = .abort) :=
    Response.advance (Advance.gaveUp hp (.inl (Option.isSome_iff_exists.mpr ⟨answer, he⟩)))
  rw [noting_of_answer he] at ends
  unfold onStatus
  dsimp only
  by_cases ha : Status.decode answer = .success
  · have hg := hg.mpr ha
    simp only [ha, BEq.rfl, if_true]
    split
    · rename_i hp
      have hp : s.phase = .prepareForDownload := hp
      exact .advance (.prepared hp hg)
    · rename_i hp
      have hp : s.phase = .startDownload := hp
      exact .advance (.started hp hg)
    · rename_i hp
      have hp : s.phase = .verify := hp
      exact .advance (.verified hp hg)
    · rename_i h1 h2 h3
      exact ends (phase_abort_of_command hc h1 h2 h3)
  · have hg : e.grants = false := Bool.eq_false_iff.mpr fun h => ha (hg.mp h)
    have hb : (Status.decode answer == .success) = false := by simpa using ha
    simp only [hb, Bool.false_eq_true, if_false]
    split
    · rename_i hp
      obtain rfl : Opcode.prepareDownload = command := by
        have hp : s.phase = .prepareForDownload := hp
        rw [hp] at hc
        exact Option.some.inj hc
      exact .failure (.unprepared hp he hg)
    · rename_i hp
      obtain rfl : Opcode.startDownload = command := by
        have hp : s.phase = .startDownload := hp
        rw [hp] at hc
        exact Option.some.inj hc
      exact .failure (.unstarted hp he hg)
    · rename_i hp
      exact .failure (.unverified hp he hg)
    · rename_i h1 h2 h3
      exact ends (phase_abort_of_command hc h1 h2 h3)

theorem onConnected_eq {d : Device} (hp : s.phase = .connect) (hd : s.device = some d) :
    s.onConnected =
      match s.config.chunkSizeFor? d.mtu d.overhead with
      | none => ({ s.cancelTimer with connected := true } : Session).crashed .sizeOverflow
      | some 0 =>
        ({ s.cancelTimer with connected := true } : Session).failTo (.invalidMtu d.mtu) .complete
      | some size =>
        ({ s.cancelTimer with
            connected := true
            transfer := { s.transfer with chunkSize := size } } : Session).moveTo
          .serviceDiscover := by
  unfold onConnected
  rw [if_pos hp]
  exact withDevice_some (s := { s.cancelTimer with connected := true }) hd _

theorem response_service (variant : Option Variant) (error : Option LinkError) :
    Response s (.service variant error) (s.onService variant error) := by
  unfold onService
  dsimp only
  by_cases hp : s.phase = .serviceDiscover
  · rw [if_pos hp]
    split
    · exact .advance (.discovered hp)
    · rename_i hn
      refine .failure (.unsupported hp ?_)
      cases variant with
      | none => exact .inl rfl
      | some v => exact .inr fun he => hn v rfl he
  · rw [if_neg hp]
    exact .answer (.rest (by simpa [expects] using hp))

theorem response_notifications (enabled : Bool) (error : Option LinkError) :
    Response s (.notifications enabled error) (s.onNotifications enabled error) := by
  unfold onNotifications
  dsimp only
  by_cases hp : s.phase = .enableNotification
  · rw [if_pos hp]
    by_cases hn : (enabled && error.isNone) = true
    · rw [if_pos hn]
      simp only [Bool.and_eq_true, Option.isNone_iff_eq_none] at hn
      obtain ⟨rfl, rfl⟩ := hn
      exact .advance (.notifying hp)
    · rw [if_neg hn]
      refine .failure (.silent hp ?_)
      cases enabled with
      | false => exact .inl rfl
      | true => exact .inr (by simpa using hn)
  · rw [if_neg hp]
    exact .answer (.rest (by simpa [expects] using hp))

include h

theorem response_start : Response s .start s.onStart := by
  unfold onStart
  by_cases hp : s.phase = .idle
  · have hr := (h.idle hp).1
    rw [if_pos (by simp [hp, hr])]
    exact .advance (.start hp)
  · rw [if_neg (by simp [hp])]
    exact .answer (.rest (by simpa [expects] using hp))

theorem response_connected (error : Option LinkError) :
    Response s (.connection true error) (s.onConnection true error) := by
  show Response s _ (s.noting (.connection true error)).onConnected
  by_cases hp : s.phase = .connect
  · obtain ⟨d, hd⟩ := h.equipped (by rw [hp]; rfl)
    rw [onConnected_eq (s := s.noting (.connection true error)) hp hd]
    split
    · rename_i hs
      exact .answer (.overflow hp hd hs)
    · rename_i hs
      exact .failure (.mtu hp hd hs)
    · rename_i size hz hs
      exact .advance (.connected hp hd hs (Nat.pos_of_ne_zero hz))
  · have hn : (s.noting (.connection true error)).onConnected
        = (s.noting (.connection true error)).stay := if_neg hp
    rw [hn]
    exact .answer (.rest (by simpa [expects] using hp))

theorem response_disconnected (hf : s.finished = false) (error : Option LinkError) :
    Response s (.connection false error) (s.onConnection false error) := by
  show Response s _ ((s.noting (.connection false error)).onDisconnected error)
  unfold onDisconnected
  dsimp only
  -- a peripheral that has taken the command to verify may reboot instead of answering
  split
  · rename_i ha
    have ha : s.verifyAccepted = true := ha
    simp only [verifyAccepted, Bool.and_eq_true, beq_iff_eq] at ha
    exact .advance (.rebooted ha.1.1 ha.1.2 ha.2)
  · rename_i ha
    have ha : s.verifyAccepted = false := Bool.eq_false_iff.mpr ha
    split
    · rename_i hp
      have hp : s.phase = .idle := hp
      exact .answer (.rest (by simp [expects, hp, Phase.underWay]))
    · rename_i hp
      exact absurd hp (h.not_complete hf)
    · rename_i hp
      exact .failure (.unconnected hp)
    · rename_i hp
      have hp : s.phase = .abort := hp
      exact .advance (.gaveUp hp (.inr (.inl ⟨error, rfl⟩)))
    · rename_i hi hc hn hb
      exact .failure (.disconnected (Phase.underWay_of_ne hi hc) hn hb ha)

theorem response_appInfo (value : Option Bytes) (error : Option LinkError) :
    Response s (.value .appInfo value error) (s.onAppInfo value) := by
  unfold onAppInfo
  dsimp only
  by_cases hw : s.wait = .appInfo
  · have hp := h.phase_of_appInfo hw
    rw [if_pos (by simp [hp, hw])]
    split
    · rename_i info hv
      exact .advance (.informed hw hv)
    · rename_i hv
      cases ha : s.askable? with
      | none =>
        rw [askMeshCore_of_none (s := s.cancelTimer) ha]
        exact .advance (.uninformed hw hv ha)
      | some address =>
        rw [askMeshCore_of_some (s := s.cancelTimer) ha]
        exact .answer (.asks hw hv ha)
  · rw [if_neg (by simp [hw])]
    exact .answer (.rest (by simpa [expects] using hw))

theorem response_meshMetadata (metadata : Option ComponentMetadata) :
    Response s (.meshMetadata metadata) (s.onMeshMetadata metadata) := by
  unfold onMeshMetadata
  dsimp only
  by_cases ha : s.expects (.meshMetadata metadata) = true
  · simp only [expects, Bool.and_eq_true, beq_iff_eq] at ha
    obtain ⟨hg, hw⟩ := ha
    have hp := h.phase_of_meshMetadata hw
    rw [if_pos (by simp [hg, hp, hw])]
    have identified : Advance s (.meshMetadata metadata) _ _ _ := .identified hw hg
    have advances := Response.advance identified
    cases metadata with
    | none =>
      exact advances
    | some m =>
      exact advances
  · rw [Bool.not_eq_true] at ha
    rw [if_neg ?_]
    · exact .answer (.rest ha)
    · intro hc
      simp only [Bool.and_eq_true, decide_eq_true_eq] at hc
      simp [expects, hc.1.1, hc.2] at ha

theorem response_abort (hf : s.finished = false) (dfu : Bool) :
    Response s (.abort dfu) (s.onAbort dfu) := by
  have hc := h.not_complete hf
  unfold onAbort
  dsimp only
  split
  · rename_i hp
    exact .failure (.stopped hp)
  · rename_i hp
    exact .answer (.rest (by simp [expects, hp]))
  · rename_i hp
    exact absurd hp hc
  · rename_i hi ha _
    have hu : s.phase.underWay = true := Phase.underWay_of_ne hi hc
    split
    · rename_i hd
      exact .failure (.stoppedDownload hd)
    · rename_i hn
      -- before a download the link is closed, and the report of that ends the upgrade
      obtain ⟨d, hd⟩ := h.equipped hu
      have hb := Phase.isBeforeDownload_of_not_canAbort hu ha (Bool.eq_false_iff.mpr hn)
      have hdev : ((s.noting (.abort dfu)).recordError (abortCause dfu)).device = some d := by
        rw [device_recordError]
        exact hd
      split
      · rename_i d' hd'
        obtain rfl : d = d' := Option.some.inj (hdev.symm.trans hd')
        exact .answer (.closing hu hb hd)
      · rename_i hnone
        exact absurd (hdev.symm.trans hnone) nofun

theorem response_commandWritten (result : WriteResult) :
    Response s (.written .controlPoint result) (s.onCommandWritten result) := by
  unfold onCommandWritten
  rw [h.commandInHand?_eq]
  cases hc : commandOf? s.phase with
  | none =>
    dsimp only
    exact .answer (.rest (by simp [expects, hc]))
  | some command =>
    dsimp only
    split
    · exact response_status hc rfl
    · exact .answer (.written (by rw [hc]; rfl))
    · rename_i error
      split
      · rename_i ha
        have hp : s.phase = .abort := by
          subst ha
          cases hp : s.phase <;> simp_all [commandOf?]
        exact .advance (.gaveUp hp (.inr (.inr ⟨error, rfl⟩)))
      · rename_i ha
        have hp : s.phase ≠ .abort := by
          intro hp
          rw [hp] at hc
          exact ha (Option.some.inj hc).symm
        have unwritten : Failure s (.written .controlPoint (.failed error)) _ _ _ :=
          .unwritten hc hp
        have fails := Response.failure unwritten
        unfold writeCause at fails
        split
        · rename_i ht
          rwa [if_pos ht] at fails
        · rename_i ht
          rwa [if_neg ht] at fails

theorem response_indication (value : Option Bytes) (error : Option LinkError) :
    Response s (.value .controlPoint value error) (s.onIndication value) := by
  unfold onIndication
  rw [h.commandInHand?_eq]
  cases hc : commandOf? s.phase with
  | none =>
    dsimp only
    exact .answer (.rest (by simp [expects, hc]))
  | some command => exact response_status hc rfl

/-- The bytes acknowledged, with the chunk in flight, stay within the image, which is smaller than a
word. -/
theorem Sound.reach_lt (hp : s.phase = .dataTransfer) :
    s.transfer.offset + s.transfer.inFlight < wordLimit := by
  obtain ⟨image, hi⟩ := h.imaged (by rw [hp]; rfl)
  obtain ⟨size, count, pos, lt, ht⟩ := h.flying hp hi
  have ho : s.transfer.offset + s.transfer.inFlight ≤ image.size := by
    rw [ht, Transfer.Books.reach (.flying pos lt)]
    exact image.covered_le _ _
  have hsize := image.size_lt
  simp only [Image.size] at ho
  simp only [wordLimit]
  omega

/-- An acknowledged chunk is followed by verification or by the next chunk. -/
theorem Sound.onChunkWritten_ok (hp : s.phase = .dataTransfer) (response : Option Bytes) :
    s.onChunkWritten (.ok response)
      = (if s.acknowledged.transfer.isDone = true then s.acknowledged.moveTo .verify
          else s.acknowledged.armTimer.sendNextChunk).after s.chunkReport := by
  unfold onChunkWritten
  rw [if_pos (by simp [hp, h.chunkAck_iff.mpr hp])]
  show (if s.transfer.offset + s.transfer.inFlight < wordLimit then
    Turn.after (if s.acknowledged.transfer.isDone = true then s.acknowledged.moveTo .verify
      else s.acknowledged.armTimer.sendNextChunk) s.chunkReport
    else _) = _
  rw [if_pos (h.reach_lt hp)]

theorem response_chunkWritten (result : WriteResult) :
    Response s (.written .data result) (s.onChunkWritten result) := by
  by_cases hp : s.phase = .dataTransfer
  · have hw := h.chunkAck_iff.mpr hp
    have hu : s.phase.underWay = true := by rw [hp]; rfl
    obtain ⟨image, hi⟩ := h.imaged hu
    obtain ⟨d, hd⟩ := h.equipped hu
    obtain ⟨size, count, pos, lt, ht⟩ := h.flying hp hi
    cases result with
    | failed error =>
      unfold onChunkWritten
      rw [if_pos (by simp [hp, hw])]
      dsimp only [failTransfer]
      exact .failure (.chunk hp)
    | ok response =>
      have hack := transfer_acknowledged lt ht
      rw [h.onChunkWritten_ok hp]
      by_cases hall : s.acknowledged.transfer.isDone = true
      · rw [if_pos hall]
        exact .advance (.transferred hp hall)
      · rw [if_neg hall]
        have hlt : (count + 1) * size < image.size := by
          rw [hack, Transfer.isDone_after_self, Image.covered] at hall
          omega
        rw [sendNextChunk_eq (s := s.acknowledged.armTimer) hi hd hack pos hlt]
        exact .answer (.next hp hi hd pos ht hlt)
  · unfold onChunkWritten
    rw [if_neg (by simp [hp])]
    exact .answer (.rest (by simpa [expects, h.chunkAck_iff] using hp))

/-- Nothing else is the first answer to an event other than a timeout. -/
theorem response_complete (hf : s.finished = false) (e : Event) (hn : ∀ id, e ≠ .timeout id) :
    Response s e (s.respond e) := by
  cases e with
  | start => exact response_start h
  | connection connected error =>
    cases connected with
    | true => exact response_connected h error
    | false => exact response_disconnected h hf error
  | service variant error => exact response_service variant error
  | notifications enabled error => exact response_notifications enabled error
  | written channel result =>
    cases channel with
    | controlPoint => exact response_commandWritten h result
    | data => exact response_chunkWritten h result
    | appInfo => exact .answer (.rest rfl)
  | value channel value error =>
    cases channel with
    | controlPoint => exact response_indication h value error
    | data => exact .answer (.rest rfl)
    | appInfo => exact response_appInfo h value error
  | meshMetadata metadata => exact response_meshMetadata h metadata
  | timeout id => exact absurd rfl (hn id)
  | abort dfu => exact response_abort h hf dfu

/-- The timer does not matter to what holds between events once an upgrade is under way. -/
theorem Sound.withTimer (hi : s.phase ≠ .idle) (timer : Timer) :
    ({ s with timer } : Session).Sound :=
  ⟨h.awaits, h.finished_iff, fun hp => absurd hp hi, h.imaged, h.equipped, h.stands, h.abort⟩

/-- A session that has not begun has no timeout outstanding. -/
theorem Sound.not_idle_of_due {id : Nat} {timeout : Timeout}
    (hd : s.timer.due? id = some timeout) : s.phase ≠ .idle := by
  intro hp
  rw [Timer.due?, (h.idle hp).2.2] at hd
  cases hd

/-- A session that is not over first answers an event in one of these ways. -/
theorem dispatch_complete (hf : s.finished = false) (e : Event) :
    Dispatch s e (s.dispatch e) := by
  have hc := h.not_complete hf
  -- a timeout is not responded to itself, but by way of the failure it stands for
  by_cases hn : ∀ id, e ≠ .timeout id
  · have hd : s.dispatch e = s.respond e := by
      unfold dispatch
      rw [if_neg (by simp [hf])]
      cases e <;> first | rfl | exact absurd rfl (hn _)
    rw [hd]
    exact .response hn (response_complete h hf e hn)
  · obtain ⟨id, rfl⟩ : ∃ id, e = .timeout id := by simpa using hn
    have hd : s.dispatch (.timeout id) = s.onTimeout id := if_neg (by simp [hf])
    rw [hd]
    cases hd : s.timer.due? id with
    | none =>
      rw [onTimeout_of_stale hd]
      exact .stale hd
    | some timeout =>
      have hi := h.not_idle_of_due hd
      obtain ⟨e, he⟩ : ∃ e, s.failureEvent? (.timeout timeout.ms) = some e := by
        unfold failureEvent?
        cases hp : s.phase <;> simp_all
        split <;> simp
      have hne : ∀ id, e ≠ .timeout id := by
        rintro id rfl
        unfold failureEvent? at he
        cases hp : s.phase <;> simp_all
        split at he <;> simp at he
      rw [onTimeout_of_due hd he]
      exact .expired hd he (response_complete (h.withTimer hi s.timer.fire) hf e hne)

/-- A session that is not over answers an event in one of these ways. -/
theorem step_complete (hf : s.finished = false) (e : Event) : Step s e (s.handle e) :=
  (dispatch_complete h hf e).step

end complete

end OtaUpgrade.Session
