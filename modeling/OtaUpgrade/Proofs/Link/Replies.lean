import Mathlib
import OtaUpgrade.Link.Peripheral
import OtaUpgrade.Proofs.Link.Forecast
import OtaUpgrade.Proofs.Protocol.Codec

/-!
How a simulated peripheral replies. Only writes touch what it knows of a download: any other call is
completed by one event and leaves the download alone (`answered_link`), a command is obeyed or
refused and its status comes in one of a few ways (`Commanded`), and a chunk is appended or refused.
-/
namespace OtaUpgrade.Peripheral

/-- Nothing but the link has changed. -/
structure SameDownload (p p' : Peripheral) : Prop where
  setup : p'.setup = p.setup
  received : p'.log.received = p.log.received
  announced : p'.log.announcedSize = p.log.announcedSize
  verified : p'.log.verifiedCrc = p.log.verifiedCrc

theorem SameDownload.refl (p : Peripheral) : SameDownload p p := ⟨rfl, rfl, rfl, rfl⟩

instance : SteadyLink Peripheral where
  completes p call := by
    cases call with
    | connect =>
      simp only [Carriage.perform, Link.connect]
      split <;> rfl
    | disconnect => rfl
    | discover =>
      simp only [Carriage.perform, Link.discover]
      split <;> rfl
    | enableNotifications enabled =>
      simp only [Carriage.perform, Link.setNotify]
      split <;> rfl
    | write channel data =>
      simp only [Carriage.perform, Carriage.outgoing, Link.write]
      cases p.refusal? channel with
      | some error => rfl
      | none =>
        cases channel with
        | controlPoint =>
          simp only [writeCommand]
          obtain ⟨status, p'⟩ := p.execute data
          cases status with
          | none => rfl
          | some status =>
            dsimp only
            split
            · rfl
            · split <;> rfl
        | data =>
          simp only [writeData]
          split
          · rfl
          · split <;> rfl
        | appInfo => rfl
    | read channel =>
      simp only [Carriage.perform, Link.read]
      cases p.refusal? channel with
      | some error => rfl
      | none =>
        cases channel with
        | appInfo => cases p.setup.appInfo <;> rfl
        | controlPoint | data => rfl

/-! ## Calls on the link itself -/

/-- A call that writes nothing is completed by one event and leaves the download alone. -/
theorem answered_link {p : Peripheral} (hn : p.notices = []) {c : DeviceCall}
    (hc : ∀ channel data, c ≠ .write channel data) :
    (∃ e, (Link.answered p c).1 = [e]) ∧ SameDownload p (Link.answered p c).2 ∧
      (Link.answered p c).2.notices = [] := by
  obtain ⟨setup, log, notices⟩ := p
  obtain rfl : notices = [] := hn
  simp only [Link.answered]
  cases c with
  | connect =>
    simp only [Carriage.perform, Link.connect]
    split <;> exact ⟨⟨_, rfl⟩, ⟨rfl, rfl, rfl, rfl⟩, rfl⟩
  | disconnect =>
    refine ⟨⟨_, rfl⟩, ?_, rfl⟩
    constructor <;>
      simp only [Carriage.perform, Link.disconnect, Link.takeNotices] <;>
      split <;> rfl
  | discover =>
    simp only [Carriage.perform, Link.discover]
    split <;> exact ⟨⟨_, rfl⟩, ⟨rfl, rfl, rfl, rfl⟩, rfl⟩
  | enableNotifications enabled =>
    simp only [Carriage.perform, Link.setNotify]
    split <;> exact ⟨⟨_, rfl⟩, ⟨rfl, rfl, rfl, rfl⟩, rfl⟩
  | write channel data => exact absurd rfl (hc channel data)
  | read channel =>
    simp only [Carriage.perform, Link.read]
    split
    · exact ⟨⟨_, rfl⟩, ⟨rfl, rfl, rfl, rfl⟩, rfl⟩
    · split <;> exact ⟨⟨_, rfl⟩, ⟨rfl, rfl, rfl, rfl⟩, rfl⟩

/-- What is read is told of the channel that was read. -/
theorem answered_read {p : Peripheral} (hn : p.notices = []) (channel : Characteristic) :
    ∃ value error, (Link.answered p (.read channel)).1 = [.value channel value error] := by
  obtain ⟨setup, log, notices⟩ := p
  obtain rfl : notices = [] := hn
  simp only [Link.answered, Carriage.perform, Link.read]
  split
  · exact ⟨_, _, rfl⟩
  · split <;> exact ⟨_, _, rfl⟩

/-! ## Commands -/

/-- All that can come of a write to the control point. -/
inductive Commanded (p : Peripheral) (payload : Bytes) : List Event × Peripheral → Prop where
  | refused (error : LinkError) :
      Commanded p payload ([.written .controlPoint (.failed error)], p)
  /-- A peripheral that reboots says nothing, but is gone. -/
  | silent {p' : Peripheral} (h : p.execute payload = (none, p')) :
      Commanded p payload
        (.written .controlPoint (.ok none) :: p'.notices.map Carriage.plain.noticed,
          { p' with notices := [] })
  | inline {status : Status} {p' : Peripheral} (h : p.execute payload = (some status, p')) :
      Commanded p payload ([.written .controlPoint (.ok (some [status.byte]))], p')
  | indicated {status : Status} {p' : Peripheral} (h : p.execute payload = (some status, p')) :
      Commanded p payload
        ([.written .controlPoint (.ok none), .value .controlPoint (some [status.byte]) none], p')
  /-- Nobody listens to the indication. -/
  | lost {status : Status} {p' : Peripheral} (h : p.execute payload = (some status, p')) :
      Commanded p payload ([.written .controlPoint (.ok none)], p')

/-- A command that is obeyed with a status raises no notice. -/
theorem notices_obey {p p' : Peripheral} {c : Command} {status : Status}
    (h : p.obey c = (some status, p')) : p'.notices = p.notices := by
  unfold obey at h
  split at h <;> try (cases h; rfl)
  unfold verify at h
  split at h
  · dsimp only at h
    split at h
    · cases h
    · cases h
      rfl
  · cases h
    rfl

theorem notices_execute {p p' : Peripheral} {payload : Bytes} {status : Status}
    (h : p.execute payload = (some status, p')) : p'.notices = p.notices := by
  unfold execute at h
  split at h
  · cases h
    rfl
  · dsimp only at h
    split at h
    · split at h
      · cases h
        rfl
      · exact (notices_obey h).trans rfl
    · exact (notices_obey h).trans rfl

theorem commanded {p : Peripheral} (hn : p.notices = []) (payload : Bytes) :
    Commanded p payload (Link.answered p (.write .controlPoint payload)) := by
  -- where there are no notices, taking them changes nothing
  have quiet {p' : Peripheral} (hp : p'.notices = []) :
      ({ p' with notices := [] } : Peripheral) = p' := by rw [← hp]
  simp only [Link.answered, Carriage.perform, Carriage.outgoing, Link.write]
  cases p.refusal? .controlPoint with
  | some error =>
    simp only [Link.takeNotices, hn, quiet hn]
    exact .refused error
  | none =>
    simp only [writeCommand]
    cases hx : p.execute payload with
    | mk status p' =>
      cases status with
      | none => exact .silent hx
      | some status =>
        have hp' : p'.notices = [] := (notices_execute hx).trans hn
        dsimp only
        split
        · simp only [Link.takeNotices, hp', quiet hp']
          exact .inline hx
        · split
          · simp only [Link.takeNotices, hp', quiet hp']
            exact .indicated hx
          · simp only [Link.takeNotices, hp', quiet hp']
            exact .lost hx

/-- The peripheral has taken down a command. -/
def heard (p : Peripheral) (c : Command) : Peripheral :=
  p.withLog { p.log with commands := p.log.commands.push c }

/-- A command of a proper shape is rejected as set up, or obeyed. -/
theorem execute_encode {c : Command} (hc : c.WellShaped) (p : Peripheral) :
    (∃ status, p.setup.rejects = some (c.opcode, status) ∧
        p.execute c.encode = (some status, p.heard c)) ∨
      (∀ status, p.setup.rejects ≠ some (c.opcode, status)) ∧
        p.execute c.encode = (p.heard c).obey c := by
  have hd := Command.decode_encode hc
  cases hr : p.setup.rejects with
  | none =>
    refine .inr ⟨nofun, ?_⟩
    simp [execute, hd, hr, heard, withLog]
  | some r =>
    obtain ⟨opcode, status⟩ := r
    by_cases ho : opcode = c.opcode
    · subst ho
      refine .inl ⟨status, rfl, ?_⟩
      simp [execute, hd, hr, heard, withLog]
    · refine .inr ⟨fun status hs => ho (congrArg (fun r => r.1) (Option.some.inj hs)), ?_⟩
      simp [execute, hd, hr, heard, withLog, ho]

/-! ## Chunks -/

/-- A chunk is refused, or appended to what a download announced before has brought. -/
theorem answered_data {p : Peripheral} (hn : p.notices = []) (chunk : Bytes) :
    (∃ error, Link.answered p (.write .data chunk) = ([.written .data (.failed error)], p)) ∨
      ∃ p', Link.answered p (.write .data chunk) = ([.written .data (.ok none)], p') ∧
        p'.setup = p.setup ∧ p'.notices = [] ∧ p'.log.received = p.log.received ++ chunk ∧
        p'.log.announcedSize = p.log.announcedSize ∧ p.log.announcedSize.isSome = true := by
  have quiet : ({ p with notices := [] } : Peripheral) = p := by rw [← hn]
  simp only [Link.answered, Carriage.perform, Carriage.outgoing, Link.write]
  cases p.refusal? .data with
  | some error =>
    refine .inl ⟨error, ?_⟩
    simp only [Link.takeNotices, hn, quiet]
    rfl
  | none =>
    simp only [writeData]
    split
    · refine .inl ⟨.writeFailed "download not started", ?_⟩
      simp only [Link.takeNotices, hn, quiet]
      rfl
    · next ha =>
      split
      · refine .inl ⟨.writeFailed s!"chunk {p.log.dataWrites.size} rejected", ?_⟩
        simp only [Link.takeNotices, hn, quiet]
        rfl
      · refine .inr
          ⟨p.withLog
            { p.log with
              dataWrites := p.log.dataWrites.push chunk.length
              received := p.log.received ++ chunk }, ?_, rfl, hn, rfl, rfl, ?_⟩
        · simp only [Link.takeNotices, withLog, hn]
          rfl
        · exact Option.isSome_iff_ne_none.mpr (by simpa using ha)

end OtaUpgrade.Peripheral
