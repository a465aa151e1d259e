import Mathlib
import OtaUpgrade.Proofs.Link.Replies
import OtaUpgrade.Proofs.Link.SideBySide

/-!
What a simulated peripheral verifies. Everything is told from its dealings, the calls made on it with
what it said to them: whether the link is up, which commands were executed, which chunks were taken
since the last PREPARE, and which size was announced (`Tallies`). The peripheral's log agrees with
that after any calls, so a chunk is taken, and a verification succeeds, exactly when the dealings say
so (`verifies_what_was_sent`).
-/
namespace OtaUpgrade

/-! ## Dealings -/

/-- What a link says to a call. -/
inductive LinkReply where
  | done (answer : Answer Unit)
  | service (answer : Answer (Option Variant))
  | notifying (answer : Answer Bool)
  | response (answer : Answer (Option Bytes))
  | value (answer : Answer Bytes)
  | notices (taken : List Notice)
  deriving DecidableEq, Repr

/-- Makes a call. -/
def Link.make {σ : Type} [Link σ] (link : σ) : LinkCall → LinkReply × σ
  | .connect => (Link.connect link).map .done id
  | .disconnect => (Link.disconnect link).map .done id
  | .discover => (Link.discover link).map .service id
  | .setNotify channel enabled => (Link.setNotify link channel enabled).map .notifying id
  | .write channel value => (Link.write link channel value).map .response id
  | .read channel => (Link.read link channel).map .value id
  | .takeNotices => (Link.takeNotices link).map .notices id

/-- A call made on a peripheral, what it said, and the notices that it raised within the call. -/
structure Dealing where
  call : LinkCall
  reply : LinkReply
  raised : List Notice := []
  deriving DecidableEq, Repr

namespace Peripheral

/-- Makes a call on a peripheral. -/
def deal (p : Peripheral) (call : LinkCall) : Dealing × Peripheral :=
  let made := Link.make p call
  ({ call, reply := made.1, raised := made.2.notices.drop p.notices.length }, made.2)

/-- Makes calls on a peripheral, one after the other, after these dealings, the newest first. -/
def dealAll (past : List Dealing) (p : Peripheral) : List LinkCall → List Dealing × Peripheral
  | [] => (past, p)
  | call :: calls => dealAll ((p.deal call).1 :: past) (p.deal call).2 calls

end Peripheral

/-! ## What dealings tell -/

namespace Command

/-- The command begins a download anew. -/
def prepares (c : Command) : Bool :=
  c.opcode = .prepareDownload

/-- The size that the command announces. -/
def announces? (c : Command) : Option UInt32 :=
  match c.opcode, c.params with
  | .startDownload, .long size => some size
  | _, _ => none

end Command

namespace Dealing

/-- The chunk of a data write that was accepted. -/
def chunk? (d : Dealing) : Option Bytes :=
  match d.call, d.reply with
  | .write .data chunk, .response (.ok _) => some chunk
  | _, _ => none

/-- The link is up after a dealing, if it was up or down before. -/
def leavesUp (d : Dealing) (before : Bool) : Bool :=
  if .disconnected ∈ d.raised then false
  else
    match d.call, d.reply with
    | .connect, .done (.ok _) => true
    | .disconnect, _ => false
    | _, _ => before

/-- The dealing tells a status, at once or by an indication, which comes to nothing unless somebody
listens. Instead of a status the link may drop. -/
def Tells (d : Dealing) (setup : PeripheralSetup) (notifying : Bool) : Option Status → Prop
  | none => d.reply = .response (.ok none) ∧ d.raised = [.disconnected]
  | some status =>
    if setup.indicates then
      d.reply = .response (.ok none) ∧
        d.raised = if notifying then [.indication .controlPoint [status.byte]] else []
    else d.reply = .response (.ok (some [status.byte])) ∧ d.raised = []

/-- A write by which a status is told leaves the link up. Otherwise the link drops. -/
theorem Tells.leavesUp {d : Dealing} {setup : PeripheralSetup} {notifying : Bool}
    {status : Option Status} (h : d.Tells setup notifying status) {channel : Characteristic}
    {payload : Bytes} (hd : d.call = .write channel payload) (before : Bool) :
    d.leavesUp before = (before && status.isSome) := by
  cases status with
  | none => simp [Dealing.leavesUp, h.2]
  | some status =>
    have hraised : .disconnected ∉ d.raised := by
      simp only [Tells] at h
      split at h
      · rw [h.2]
        cases notifying <;> simp
      · simp [h.2]
    simp [Dealing.leavesUp, hraised, hd]

end Dealing

namespace Dealings

/-- The link is up. -/
def up : List Dealing → Bool
  | [] => false
  | d :: past => d.leavesUp (up past)

/-- How many chunks were accepted in all. -/
def chunks (past : List Dealing) : Nat :=
  (past.filterMap Dealing.chunk?).length

variable (setup : PeripheralSetup)

/-- The command that a call brings to execution: one that can be read, written to the control point
of a service whose link is up. -/
def executed? (past : List Dealing) : LinkCall → Option Command
  | .write .controlPoint payload =>
    if up past ∧ setup.variant.isSome then (Command.decode payload).toOption else none
  | _ => none

/-- The dealings since the last PREPARE was executed. -/
def sincePrepare : List Dealing → List Dealing
  | [] => []
  | d :: past =>
    if (executed? setup past d.call).any Command.prepares then [] else d :: sincePrepare past

/-- The chunks accepted since then, in order. -/
def received (past : List Dealing) : Bytes :=
  ((sincePrepare setup past).reverse.filterMap Dealing.chunk?).flatten

/-- The size that was announced last since then. -/
def announced : List Dealing → Option UInt32
  | [] => none
  | d :: past =>
    match executed? setup past d.call with
    | none => announced past
    | some c => if c.prepares then none else c.announces?.or (announced past)

/-- The dealings bear a checksum out: a size was announced, so many bytes were received, and they
have the checksum. -/
def Bears (past : List Dealing) (crc : UInt32) : Prop :=
  ∃ size, announced setup past = some size ∧ (received setup past).length = size.toNat ∧
    Crc32.ofBytes (received setup past) = crc

variable {setup}

theorem received_cons (d : Dealing) (past : List Dealing) :
    received setup (d :: past)
      = if (executed? setup past d.call).any Command.prepares then []
        else received setup past ++ d.chunk?.getD [] := by
  simp only [received, sincePrepare]
  split
  · rfl
  · cases hd : d.chunk? <;> simp [hd]

theorem chunks_cons (d : Dealing) (past : List Dealing) :
    chunks (d :: past) = chunks past + if d.chunk?.isSome then 1 else 0 := by
  cases hd : d.chunk? <;> simp [chunks, hd]

end Dealings

/-! ## The log agrees -/

namespace Peripheral

/-- The peripheral's log says what its dealings tell. -/
structure Tallies (setup : PeripheralSetup) (past : List Dealing) (p : Peripheral) : Prop where
  same : p.setup = setup
  connected : p.log.connected = Dealings.up past
  received : p.log.received.toList = Dealings.received setup past
  announced : p.log.announcedSize = Dealings.announced setup past
  chunks : p.log.dataWrites.size = Dealings.chunks past

/-- What a command leaves of a peripheral. Only a peripheral that gives no status is gone, and it
says so by one notice. -/
structure Obeyed (p : Peripheral) (c : Command) (status : Option Status) (p' : Peripheral) :
    Prop where
  setup : p'.setup = p.setup
  connected : p'.log.connected = (p.log.connected && status.isSome)
  notifying : p'.log.notifying = p.log.notifying
  received : p'.log.received = if c.prepares then #[] else p.log.received
  announced : p'.log.announcedSize
    = if c.prepares then none else c.announces?.or p.log.announcedSize
  dataWrites : p'.log.dataWrites = p.log.dataWrites
  notices : p'.notices = p.notices ++ if status.isSome then [] else [.disconnected]

theorem verify_obeyed (p : Peripheral) (crc : UInt32) :
    Obeyed p (.verify crc) (p.verify crc).1 (p.verify crc).2 := by
  simp only [verify]
  split
  · split
    · exact ⟨rfl, (Bool.and_false _).symm, rfl, rfl, rfl, rfl, rfl⟩
    · exact ⟨rfl, (Bool.and_true _).symm, rfl, rfl, rfl, rfl, (List.append_nil _).symm⟩
  · exact ⟨rfl, (Bool.and_true _).symm, rfl, rfl, rfl, rfl, (List.append_nil _).symm⟩

theorem obey_obeyed (p : Peripheral) (c : Command) : Obeyed p c (p.obey c).1 (p.obey c).2 := by
  obtain ⟨opcode, params⟩ := c
  have quiet {p' : Peripheral} (h : p'.notices = p.notices) : p'.notices = p.notices ++ [] :=
    h.trans (List.append_nil _).symm
  cases opcode with
  | startDownload | verify =>
    cases params with
    | long value =>
      first
        | exact p.verify_obeyed value
        | exact ⟨rfl, (Bool.and_true _).symm, rfl, rfl, rfl, rfl, quiet rfl⟩
    | _ => exact ⟨rfl, (Bool.and_true _).symm, rfl, rfl, rfl, rfl, quiet rfl⟩
  | _ => exact ⟨rfl, (Bool.and_true _).symm, rfl, rfl, rfl, rfl, quiet rfl⟩

/-- What is read of a payload is taken down and obeyed, where nothing is set up to be rejected. -/
theorem execute_of_decode {p : Peripheral} (hr : p.setup.rejects = none) {payload : Bytes}
    {c : Command} (h : Command.decode payload = .ok c) : p.execute payload = (p.heard c).obey c := by
  simp [execute, h, hr, heard, withLog]

theorem execute_of_error (p : Peripheral) {payload : Bytes} {e : CodecError}
    (h : Command.decode payload = .error e) :
    p.execute payload = (some .invalidParameter, p) := by
  simp [execute, h]

/-- What is executed changes neither the setup nor who listens, and a peripheral that gives no status
says by one notice that it is gone. -/
theorem execute_kept {p : Peripheral} (hr : p.setup.rejects = none) (payload : Bytes) :
    (p.execute payload).2.setup = p.setup ∧
      (p.execute payload).2.log.notifying = p.log.notifying ∧
      (p.execute payload).2.notices
        = p.notices ++ if (p.execute payload).1.isSome then [] else [.disconnected] := by
  cases hd : Command.decode payload with
  | error e =>
    rw [execute_of_error p hd]
    exact ⟨rfl, rfl, (List.append_nil _).symm⟩
  | ok c =>
    rw [execute_of_decode hr hd]
    have h := (p.heard c).obey_obeyed c
    exact ⟨h.setup, h.notifying, h.notices⟩

/-- A channel of the upgrade service can be reached exactly if the link is up and there is such a
service. -/
theorem refusal?_eq_none (p : Peripheral) (channel : Characteristic) (hc : channel ≠ .appInfo) :
    p.refusal? channel = none ↔ p.log.connected = true ∧ p.setup.variant.isSome = true := by
  have hvariant : (p.setup.variant.any fun v => v.has channel) = p.setup.variant.isSome := by
    cases p.setup.variant with
    | none => rfl
    | some v => cases v <;> cases channel <;> first | rfl | exact absurd rfl hc
  rw [refusal?, hvariant]
  cases p.log.connected <;> cases p.setup.variant.isSome <;> simp

/-- A command that gets through is executed, and its status is told. -/
theorem deal_command {p : Peripheral} (hr : p.setup.rejects = none)
    (h : p.refusal? .controlPoint = none) (payload : Bytes) :
    (p.deal (.write .controlPoint payload)).1.Tells p.setup p.log.notifying
        (p.execute payload).1 ∧
      (p.deal (.write .controlPoint payload)).2.setup = p.setup ∧
      (p.deal (.write .controlPoint payload)).2.log = (p.execute payload).2.log := by
  obtain ⟨hsetup, hnotifying, hnotices⟩ := execute_kept hr payload
  simp only [deal, Link.make, Link.write, h, writeCommand]
  generalize p.execute payload = made at hsetup hnotifying hnotices ⊢
  obtain ⟨status, p'⟩ := made
  simp only at hsetup hnotifying hnotices
  cases status with
  | none => exact ⟨⟨rfl, by simp [hnotices]⟩, hsetup, rfl⟩
  | some status =>
    have hquiet : p'.notices = p.notices := by simpa using hnotices
    simp only [Dealing.Tells, ← hsetup, ← hnotifying]
    cases p'.setup.indicates <;> cases p'.log.notifying <;>
      simp [hquiet]

/-! ## Each call -/

section step

variable {setup : PeripheralSetup} {past : List Dealing} {p : Peripheral}

open Dealings

/-- A dealing that executes no command and brings no chunk leaves the download as it was. -/
theorem Tallies.aside (h : Tallies setup past p) {d : Dealing} {p' : Peripheral}
    (hx : executed? setup past d.call = none) (hc : d.chunk? = none) (hd : SameDownload p p')
    (hw : p'.log.dataWrites = p.log.dataWrites)
    (hu : p'.log.connected = d.leavesUp p.log.connected) : Tallies setup (d :: past) p' where
  same := hd.setup.trans h.same
  connected := by rw [hu, h.connected, up]
  received := by rw [hd.received, h.received, received_cons, hx, hc]; simp
  announced := by rw [hd.announced, h.announced, Dealings.announced, hx]
  chunks := by rw [hw, h.chunks, chunks_cons, hc]; simp

/-- A call that is no write is such a dealing. -/
theorem Tallies.link (h : Tallies setup past p) {call : LinkCall}
    (hc : ∀ channel payload, call ≠ .write channel payload) :
    Tallies setup ((p.deal call).1 :: past) (p.deal call).2 := by
  cases call with
  | write channel payload => exact absurd rfl (hc channel payload)
  | connect =>
    simp only [deal, Link.make, Link.connect]
    split
    · exact h.aside rfl rfl (.refl p) rfl (by simp [Dealing.leavesUp])
    · exact h.aside rfl rfl ⟨rfl, rfl, rfl, rfl⟩ rfl (by simp [Dealing.leavesUp, withLog])
  | disconnect =>
    simp only [deal, Link.make, Link.disconnect]
    split
    · exact h.aside rfl rfl ⟨rfl, rfl, rfl, rfl⟩ rfl
        (by simp [Dealing.leavesUp, withLog, PeripheralLog.dropped])
    · exact h.aside rfl rfl ⟨rfl, rfl, rfl, rfl⟩ rfl
        (by simp_all [Dealing.leavesUp, withLog])
  | discover =>
    simp only [deal, Link.make, Link.discover]
    split <;> exact h.aside rfl rfl (.refl p) rfl (by simp [Dealing.leavesUp])
  | setNotify channel enabled =>
    simp only [deal, Link.make, Link.setNotify]
    split <;> exact h.aside rfl rfl ⟨rfl, rfl, rfl, rfl⟩ rfl (by simp [Dealing.leavesUp, withLog])
  | read channel =>
    simp only [deal, Link.make, Link.read]
    split
    · exact h.aside rfl rfl (.refl p) rfl (by simp [Dealing.leavesUp])
    · split <;> exact h.aside rfl rfl (.refl p) rfl (by simp [Dealing.leavesUp])
  | takeNotices =>
    exact h.aside rfl rfl ⟨rfl, rfl, rfl, rfl⟩ rfl
      (by simp [deal, Link.make, Link.takeNotices, Dealing.leavesUp])

/-- So is a write that does not get through. -/
theorem Tallies.refused (h : Tallies setup past p) {channel : Characteristic} (payload : Bytes)
    {e : LinkError} (hr : p.refusal? channel = some e) :
    Tallies setup ((p.deal (.write channel payload)).1 :: past)
      (p.deal (.write channel payload)).2 := by
  have hx : executed? setup past (.write channel payload) = none := by
    cases channel with
    | controlPoint =>
      have hp : ¬(up past = true ∧ setup.variant.isSome = true) := by
        rw [← h.connected, ← h.same, ← p.refusal?_eq_none .controlPoint nofun, hr]
        nofun
      simp [executed?, hp]
    | data | appInfo => rfl
  simp only [deal, Link.make, Link.write, hr]
  refine h.aside hx ?_ (.refl p) rfl (by simp [Dealing.leavesUp])
  cases channel <;> rfl

/-- A command that gets through is obeyed, if it can be read. -/
theorem Tallies.command (h : Tallies setup past p) (hr : setup.rejects = none)
    (hp : p.refusal? .controlPoint = none) (payload : Bytes) :
    Tallies setup ((p.deal (.write .controlPoint payload)).1 :: past)
      (p.deal (.write .controlPoint payload)).2 := by
  have hrp : p.setup.rejects = none := h.same ▸ hr
  obtain ⟨htells, hsetup, hlog⟩ := deal_command hrp hp payload
  have hup : up past = true ∧ setup.variant.isSome = true := by
    rw [← h.connected, ← h.same]
    exact (p.refusal?_eq_none .controlPoint nofun).mp hp
  have hx : executed? setup past (.write .controlPoint payload)
      = (Command.decode payload).toOption := if_pos hup
  have hu := htells.leavesUp rfl p.log.connected
  cases hd : Command.decode payload with
  | error e =>
    rw [execute_of_error p hd] at hu hlog
    rw [hd] at hx
    refine h.aside hx rfl ⟨hsetup, ?_, ?_, ?_⟩ ?_ (.trans ?_ hu.symm) <;> simp [hlog]
  | ok c =>
    have hc := (p.heard c).obey_obeyed c
    rw [execute_of_decode hrp hd] at hu hlog
    rw [hd] at hx
    have hexec : executed? setup past (p.deal (.write .controlPoint payload)).1.call = some c := hx
    have hchunk : (p.deal (.write .controlPoint payload)).1.chunk? = none := rfl
    exact {
      same := hsetup.trans h.same
      connected := by rw [hlog, hc.connected, up, ← h.connected, hu]; rfl
      received := by
        rw [hlog, hc.received, received_cons, hexec, hchunk, ← h.received]
        cases hprepares : c.prepares <;> simp [heard, withLog, hprepares]
      announced := by
        rw [hlog, hc.announced, Dealings.announced, hexec, ← h.announced]
        rfl
      chunks := by
        rw [hlog, hc.dataWrites, chunks_cons, hchunk, ← h.chunks]
        rfl }

/-- A chunk that gets through is taken or refused. -/
theorem Tallies.data (h : Tallies setup past p) (hp : p.refusal? .data = none) (chunk : Bytes) :
    Tallies setup ((p.deal (.write .data chunk)).1 :: past) (p.deal (.write .data chunk)).2 := by
  simp only [deal, Link.make, Link.write, hp, writeData]
  split
  · exact h.aside rfl rfl (.refl p) rfl (by simp [Dealing.leavesUp])
  · split
    · exact h.aside rfl rfl (.refl p) rfl (by simp [Dealing.leavesUp])
    · exact {
        same := h.same
        connected := h.connected.trans (by simp [up, Dealing.leavesUp, withLog])
        received := by
          rw [received_cons, ← h.received]
          simp [withLog, executed?, Dealing.chunk?]
        announced := h.announced
        chunks := by
          rw [chunks_cons, ← h.chunks]
          simp [withLog, Dealing.chunk?] }

/-- After any call the log says what the dealings tell. -/
theorem Tallies.deal (h : Tallies setup past p) (hr : setup.rejects = none) (call : LinkCall) :
    Tallies setup ((p.deal call).1 :: past) (p.deal call).2 := by
  cases call with
  | write channel payload =>
    cases hp : p.refusal? channel with
    | some e => exact h.refused payload hp
    | none =>
      cases channel with
      | controlPoint => exact h.command hr hp payload
      | data => exact h.data hp payload
      | appInfo =>
        simp only [Peripheral.deal, Link.make, Link.write, hp]
        exact h.aside rfl rfl (.refl p) rfl (by simp [Dealing.leavesUp])
  | _ => exact h.link nofun

theorem Tallies.dealAll (h : Tallies setup past p) (hr : setup.rejects = none)
    (calls : List LinkCall) :
    Tallies setup (dealAll past p calls).1 (dealAll past p calls).2 := by
  induction calls generalizing past p with
  | nil => exact h
  | cons call calls ih => exact ih (h.deal hr call)

end step

/-- A peripheral with which nobody has dealt. -/
theorem tallies_fresh (setup : PeripheralSetup) : Tallies setup [] { setup } where
  same := rfl
  connected := rfl
  received := rfl
  announced := rfl
  chunks := rfl

/-! ## What is accepted and what is verified -/

/-- When a chunk is accepted. -/
theorem write_data_ok_iff (p : Peripheral) (chunk : Bytes) :
    (∃ response, (Link.write p .data chunk).1 = .ok response) ↔
      p.log.connected = true ∧ p.setup.variant.isSome = true ∧
        p.log.announcedSize.isSome = true ∧
        p.setup.failsDataWrite ≠ some p.log.dataWrites.size := by
  rw [← and_assoc, ← p.refusal?_eq_none .data nofun]
  cases hp : p.refusal? .data with
  | some e => simp [Link.write, hp]
  | none =>
    simp only [Link.write, hp, writeData]
    cases p.log.announcedSize with
    | none => simp
    | some size =>
      by_cases hf : p.setup.failsDataWrite = some p.log.dataWrites.size <;> simp [hf]

theorem verdict_eq_success_iff (log : PeripheralLog) (crc : UInt32) :
    log.verdict crc = .success ↔
      ∃ size, log.announcedSize = some size ∧ log.received.toList.length = size.toNat ∧
        Crc32.ofBytes log.received.toList = crc := by
  rw [PeripheralLog.verdict]
  cases log.announcedSize with
  | none => simp
  | some size =>
    by_cases hsize : log.received.size = size.toNat <;>
      by_cases hcrc : Crc32.ofBytes log.received.toList = crc <;> simp [hsize, hcrc]

/-- The status of a verification that succeeds: none, if the peripheral reboots instead. -/
theorem verify_status (p : Peripheral) (crc : UInt32) :
    ((p.verify crc).1 = (if p.setup.rebootsOnVerify then none else some .success) ↔
        p.log.verdict crc = .success) ∧
      (p.verify crc).1 ≠ if p.setup.rebootsOnVerify then some .success else none := by
  cases hv : p.log.verdict crc <;> cases hb : p.setup.rebootsOnVerify <;> simp [verify, hv, hb]

/-- A simulated peripheral verifies what it was sent. After any calls, what it received are the
chunks that it accepted since the last PREPARE; it accepts a chunk exactly if the link is up, there is
an upgrade service, a size was announced since then, and the write is not the one it is set up to
refuse; and a VERIFY that is executed tells a status which is success, or the silence of a peripheral
that reboots, exactly if so many bytes were received as were announced last and the checksum is
theirs. -/
theorem verifies_what_was_sent (setup : PeripheralSetup) (hr : setup.rejects = none)
    (calls : List LinkCall) :
    let past := (dealAll [] { setup } calls).1
    let p := (dealAll [] { setup } calls).2
    p.log.received.toList = Dealings.received setup past ∧
      (∀ chunk, (∃ response, (p.deal (.write .data chunk)).1.reply = .response (.ok response)) ↔
        Dealings.up past = true ∧ setup.variant.isSome = true ∧
          (Dealings.announced setup past).isSome = true ∧
          setup.failsDataWrite ≠ some (Dealings.chunks past)) ∧
      ∀ payload crc,
        Dealings.executed? setup past (.write .controlPoint payload) = some (.verify crc) →
        (p.deal (.write .controlPoint payload)).1.Tells setup p.log.notifying
            (p.execute payload).1 ∧
          ((p.execute payload).1 = (if setup.rebootsOnVerify then none else some .success) ↔
            Dealings.Bears setup past crc) ∧
          (p.execute payload).1 ≠ if setup.rebootsOnVerify then some .success else none := by
  intro past p
  have h : Tallies setup past p := (tallies_fresh setup).dealAll hr calls
  refine ⟨h.received, fun chunk => ?_, fun payload crc hx => ?_⟩
  · rw [← h.connected, ← h.announced, ← h.chunks, ← h.same, ← write_data_ok_iff p chunk]
    simp [deal, Link.make]
  · have hrp : p.setup.rejects = none := h.same ▸ hr
    rw [Dealings.executed?] at hx
    split at hx
    · next hup =>
      have hd : Command.decode payload = .ok (.verify crc) := by
        cases hd : Command.decode payload with
        | error e => simp [hd, Except.toOption] at hx
        | ok c => simpa [hd, Except.toOption] using hx
      have hp : p.refusal? .controlPoint = none := by
        rw [p.refusal?_eq_none .controlPoint nofun, h.connected, h.same]
        exact hup
      have hstatus : (p.execute payload).1 = ((p.heard (.verify crc)).verify crc).1 := by
        rw [execute_of_decode hrp hd]
        rfl
      obtain ⟨hsuccess, hother⟩ := (p.heard (.verify crc)).verify_status crc
      have hsetup : (p.heard (.verify crc)).setup = setup := h.same
      rw [hsetup, verdict_eq_success_iff] at hsuccess
      rw [hsetup] at hother
      refine ⟨h.same ▸ (deal_command hrp hp payload).1, ?_, hstatus ▸ hother⟩
      rw [hstatus, hsuccess, Dealings.Bears, ← h.received, ← h.announced]
      rfl
    · cases hx

/-- A download begun twice. Of the first one no byte counts. -/
def begunTwice : List LinkCall :=
  [.connect, .write .controlPoint Command.prepare.encode,
    .write .controlPoint (Command.start 4).encode, .write .data [9, 9, 9, 9],
    .write .controlPoint Command.prepare.encode, .write .controlPoint (Command.start 3).encode,
    .write .data [1, 2], .disconnect, .write .data [7], .connect, .write .data [3]]

/-- The second download is verified by what was accepted of it. -/
theorem begunTwice_verified :
    ({} : PeripheralSetup).rejects = none ∧
      (((dealAll [] {} begunTwice).2).execute
        (Command.verify (Crc32.ofBytes [1, 2, 3])).encode).1 = some .success := by
  refine ⟨rfl, ?_⟩
  obtain ⟨-, -, hverify⟩ := verifies_what_was_sent {} rfl begunTwice
  have hup : Dealings.up (dealAll [] {} begunTwice).1 = true := by decide
  have hannounced : Dealings.announced {} (dealAll [] {} begunTwice).1 = some 3 := by decide
  have hreceived : Dealings.received {} (dealAll [] {} begunTwice).1 = [1, 2, 3] := by decide
  have hx : Dealings.executed? {} (dealAll [] {} begunTwice).1
      (.write .controlPoint (Command.verify (Crc32.ofBytes [1, 2, 3])).encode)
        = some (.verify (Crc32.ofBytes [1, 2, 3])) := by
    simp [Dealings.executed?, hup, Command.decode_encode (c := .verify _) rfl, Except.toOption]
  refine (hverify _ _ hx).2.1.mpr ⟨3, hannounced, ?_, ?_⟩
  · rw [hreceived]
    rfl
  · rw [hreceived]

end Peripheral
end OtaUpgrade
