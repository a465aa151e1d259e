import Mathlib
import OtaUpgrade.Proofs.Link.Willing

/-!
The faults that a simulated peripheral can be set up with, one at a time, and what an upgrade is to
make of each: the error with the phase it arises in, the commands the peripheral gets, and the bytes
it has taken in. A peripheral with one fault answers every call as if it had none
(`PeripheralSetup.Suffers.spares`), up to the call in which the fault shows (`Defect.replies`).
-/
namespace OtaUpgrade

/-- Something that a peripheral does wrong, and that an upgrade runs into. -/
inductive Defect where
  | refusesConnection
  | lacksService
  | rejectsPrepare (status : Status)
  | rejectsStart (status : Status)
  | rejectsVerify (status : Status)
  /-- The chunk with this number, counted from zero, is not taken. -/
  | failsDataWrite (index : Nat)
  deriving DecidableEq, Repr

namespace Defect

/-- The command that is rejected, with the status it gets. -/
def rejects? : Defect → Option (Opcode × Status)
  | rejectsPrepare status => some (.prepareDownload, status)
  | rejectsStart status => some (.startDownload, status)
  | rejectsVerify status => some (.verify, status)
  | refusesConnection | lacksService | failsDataWrite _ => none

/-- The number of the chunk that is not taken. -/
def failsDataWrite? : Defect → Option Nat
  | failsDataWrite index => some index
  | _ => none

/-- The fault shows in the upgrade of an image with chunks of at most `size` bytes: what is rejected
is not rejected by success, and there is a chunk with the number. -/
def Shows (image : Image) (size : Nat) : Defect → Prop
  | rejectsPrepare status | rejectsStart status | rejectsVerify status => status ≠ .success
  | failsDataWrite index => index < (image.size + size - 1) / size
  | refusesConnection | lacksService => True

/-- The phase in which the fault shows. -/
def phase : Defect → Phase
  | refusesConnection => .connect
  | lacksService => .serviceDiscover
  | rejectsPrepare _ => .prepareForDownload
  | rejectsStart _ => .startDownload
  | rejectsVerify _ => .verify
  | failsDataWrite _ => .dataTransfer

/-- What a session is to make of the defect. -/
def cause (image : Image) (size : Nat) : Defect → Cause
  | refusesConnection => .connectFailed (LinkError.connectFailed "peer refused").message
  | lacksService => .upgradeNotSupported
  | rejectsPrepare status => .commandRejected .prepareDownload status
  | rejectsStart status => .commandRejected .startDownload status
  | rejectsVerify status => .verificationFailed status
  | failsDataWrite index =>
    .transferFailed image.size (index * size)
      (LinkError.writeFailed s!"chunk {index} rejected").message

/-- The commands that the peripheral gets, the rejected one included. A download that has begun is
given up by command. -/
def commands (mode : Mode) (image : Image) : Defect → List Command
  | refusesConnection | lacksService => []
  | rejectsPrepare _ => [mode.prepareCommand]
  | rejectsStart _ | failsDataWrite _ =>
    [mode.prepareCommand, .start (UInt32.ofNat image.size), .abort]
  | rejectsVerify _ =>
    [mode.prepareCommand, .start (UInt32.ofNat image.size), .verify image.crc, .abort]

/-- How many bytes of the image the peripheral takes in. -/
def takenIn (image : Image) (size : Nat) : Defect → Nat
  | refusesConnection | lacksService | rejectsPrepare _ | rejectsStart _ => 0
  | failsDataWrite index => index * size
  | rejectsVerify _ => image.size

/-- A session has ended by the error that the fault calls for, and its peripheral saw what came
before the fault, and that the download was given up. -/
structure Diagnosed (defect : Defect) (mode : Mode) (image : Image) (size : Nat) (s : Session)
    (log : PeripheralLog) : Prop where
  error : s.error = some ⟨defect.phase, defect.cause image size⟩
  commands : log.commands.toList = defect.commands mode image
  received : log.received.toList = image.bytes.take (defect.takenIn image size)

end Defect

namespace PeripheralSetup

/-- The peripheral has this fault and no other. -/
structure Suffers (setup : PeripheralSetup) (defect : Defect) : Prop where
  variant : setup.variant = none ↔ defect = .lacksService
  rejects : setup.rejects = defect.rejects?
  failsDataWrite : setup.failsDataWrite = defect.failsDataWrite?
  refusesConnection : setup.refusesConnection = true ↔ defect = .refusesConnection

/-- The same peripheral without a defect. -/
def healed (setup : PeripheralSetup) : PeripheralSetup :=
  { setup with
    variant := some (setup.variant.getD .current)
    rejects := none
    failsDataWrite := none
    refusesConnection := false }

theorem willing_healed (setup : PeripheralSetup) :
    setup.healed.Willing (setup.variant.getD .current) :=
  ⟨rfl, rfl, rfl, rfl⟩

end PeripheralSetup

/-! ## Answers as if there were no fault -/

namespace Peripheral

/-- The peripheral with another setup. -/
def under (p : Peripheral) (setup : PeripheralSetup) : Peripheral :=
  { p with setup }

variable {p : Peripheral} {setup : PeripheralSetup}

theorem refusal?_under (hv : setup.variant = p.setup.variant) (channel : Characteristic) :
    (p.under setup).refusal? channel = p.refusal? channel := by
  simp only [refusal?, under, hv]

theorem verify_under (hr : setup.rebootsOnVerify = p.setup.rebootsOnVerify) (crc : UInt32) :
    (p.under setup).verify crc = ((p.verify crc).1, (p.verify crc).2.under setup) := by
  simp only [verify, under, hr]
  cases p.log.verdict crc with
  | success => cases p.setup.rebootsOnVerify <;> rfl
  | _ => rfl

theorem obey_under (hr : setup.rebootsOnVerify = p.setup.rebootsOnVerify) (c : Command) :
    (p.under setup).obey c = ((p.obey c).1, (p.obey c).2.under setup) := by
  unfold obey
  split <;> first | rfl | exact verify_under hr _

theorem setup_execute {c : Command} (hc : c.WellShaped) (p : Peripheral) :
    (p.execute c.encode).2.setup = p.setup := by
  rcases execute_encode hc p with ⟨status, -, hx⟩ | ⟨-, hx⟩
  · rw [hx]
    rfl
  · rw [hx]
    exact setup_obey (p.heard c) c

/-- What is not rejected is executed alike. -/
theorem execute_under (hr : setup.rebootsOnVerify = p.setup.rebootsOnVerify)
    (hp : p.setup.rejects = none) {c : Command} (hc : c.WellShaped)
    (hn : ∀ status, setup.rejects ≠ some (c.opcode, status)) :
    (p.under setup).execute c.encode
      = ((p.execute c.encode).1, (p.execute c.encode).2.under setup) := by
  have hunder : (p.under setup).execute c.encode = ((p.under setup).heard c).obey c := by
    rcases execute_encode hc (p.under setup) with ⟨status, hrejects, -⟩ | ⟨-, hobeys⟩
    · exact absurd hrejects (hn status)
    · exact hobeys
  have hplain : p.execute c.encode = (p.heard c).obey c := by
    rcases execute_encode hc p with ⟨status, hrejects, -⟩ | ⟨-, hobeys⟩
    · exact absurd (hp.symm.trans hrejects) nofun
    · exact hobeys
  rw [hunder, hplain]
  exact obey_under (p := p.heard c) hr c

/-- Nor is it answered otherwise. -/
theorem writeCommand_under (p : Peripheral) (setup : PeripheralSetup)
    (hr : setup.rebootsOnVerify = p.setup.rebootsOnVerify)
    (hi : setup.indicates = p.setup.indicates) (hp : p.setup.rejects = none) {c : Command}
    (hc : c.WellShaped) (hn : ∀ status, setup.rejects ≠ some (c.opcode, status)) :
    (p.under setup).writeCommand c.encode
      = ((p.writeCommand c.encode).1, (p.writeCommand c.encode).2.under setup) := by
  have hx := execute_under hr hp hc hn
  have hsetup := setup_execute hc p
  unfold writeCommand
  rw [hx]
  generalize p.execute c.encode = x at hsetup ⊢
  obtain ⟨status, p'⟩ := x
  cases status with
  | none => rfl
  | some status =>
    have hi' : (p'.under setup).setup.indicates = p'.setup.indicates := by
      rw [show p'.setup = p.setup from hsetup]
      exact hi
    have hn : (p'.under setup).log.notifying = p'.log.notifying := rfl
    simp only [hi', hn]
    cases p'.setup.indicates with
    | false => rfl
    | true => cases p'.log.notifying <;> rfl

end Peripheral

/-- What a session asks of its device in each phase, as long as it meets no error. -/
inductive Phase.Asks : Phase → DeviceCall → Prop where
  | connect : Asks .connect .connect
  | discover : Asks .serviceDiscover .discover
  | read : Asks .readAppInfo (.read .appInfo)
  | notify : Asks .enableNotification (.enableNotifications true)
  | command {p : Phase} {c : Command} (hp : p < .abort) (hw : c.WellShaped)
      (hc : Session.commandOf? p = some c.opcode) : Asks p (.command c)
  | data (bytes : Bytes) : Asks .dataTransfer (.write .data bytes)

/-- The fault has not shown in a session that has come to this phase, with these books. -/
def Defect.Ahead (p : Phase) (t : Transfer) : Defect → Prop
  | .failsDataWrite index => p ≤ .dataTransfer ∧ t.chunksSent ≤ index
  | defect => p < defect.phase

/-- No two phases have one command. -/
theorem Session.commandOf?_inj {p q : Phase} {o : Opcode} (hp : commandOf? p = some o)
    (hq : commandOf? q = some o) : p = q := by
  cases p <;> cases hp <;> cases q <;> first | rfl | cases hq

/-- What is rejected is the command of the phase in which that shows. -/
theorem Defect.commandOf?_phase {defect : Defect} {o : Opcode} {status : Status}
    (h : defect.rejects? = some (o, status)) : Session.commandOf? defect.phase = some o := by
  cases defect <;> cases h <;> rfl

/-- No fault shows before the upgrade begins. -/
theorem Defect.ahead_idle (defect : Defect) {t : Transfer} (ht : t.chunksSent = 0) :
    defect.Ahead .idle t := by
  cases defect <;> simp +decide [Defect.Ahead, Defect.phase, ht]

section ahead

variable {defect : Defect} {p : Phase} {t : Transfer} (ha : defect.Ahead p t)

include ha

/-- A lack of the service shows when the service is looked for. -/
theorem Defect.Ahead.ne_lacksService (hp : .serviceDiscover ≤ p) : defect ≠ .lacksService := by
  rintro rfl
  exact absurd ha (Nat.not_lt.mpr hp)

/-- Every fault has shown when the upgrade succeeds. -/
theorem Defect.Ahead.phase_ne_verify : p ≠ .verify := by
  rintro rfl
  cases defect <;> simp +decide [Defect.Ahead, Defect.phase] at ha

/-- The rejection of a command shows in the phase of the command. -/
theorem Defect.Ahead.phase_ne {o : Opcode} (hc : Session.commandOf? p = some o) :
    defect.phase ≠ p := by
  rintro rfl
  cases defect with
  | failsDataWrite => cases hc
  | _ => exact Nat.lt_irrefl _ ha

end ahead

namespace PeripheralSetup

variable {setup : PeripheralSetup} {defect : Defect} {log : PeripheralLog}

/-- The call is answered as it would be without a defect. -/
def Spares (setup : PeripheralSetup) (log : PeripheralLog) (c : DeviceCall) : Prop :=
  Link.answered ({ setup, log } : Peripheral) c
    = ((Link.answered ({ setup := setup.healed, log } : Peripheral) c).1,
        (Link.answered ({ setup := setup.healed, log } : Peripheral) c).2.under setup)

theorem spares_connect (h : setup.refusesConnection = false) : setup.Spares log .connect := by
  simp only [Spares, Link.answered, Carriage.perform, Link.connect, h, healed]
  rfl

theorem spares_discover (hv : setup.variant = setup.healed.variant) :
    setup.Spares log .discover := by
  simp only [Spares, Link.answered, Carriage.perform, Link.discover, hv]
  cases log.connected <;> rfl

theorem refusal?_healed (hv : setup.variant = setup.healed.variant) (channel : Characteristic) :
    ({ setup, log } : Peripheral).refusal? channel
      = ({ setup := setup.healed, log } : Peripheral).refusal? channel :=
  Peripheral.refusal?_under (p := { setup := setup.healed, log }) hv channel

theorem spares_notify (hv : setup.variant = setup.healed.variant) (enabled : Bool) :
    setup.Spares log (.enableNotifications enabled) := by
  simp only [Spares, Link.answered, Carriage.perform, Link.setNotify, refusal?_healed hv]
  cases ({ setup := setup.healed, log } : Peripheral).refusal? .controlPoint <;> rfl

theorem spares_read (hv : setup.variant = setup.healed.variant) (channel : Characteristic) :
    setup.Spares log (.read channel) := by
  simp only [Spares, Link.answered, Carriage.perform, Link.read, refusal?_healed hv]
  cases ({ setup := setup.healed, log } : Peripheral).refusal? channel with
  | some error => rfl
  | none =>
    cases channel with
    | appInfo =>
      simp only [healed]
      cases setup.appInfo <;> rfl
    | controlPoint | data => rfl

theorem spares_command (hv : setup.variant = setup.healed.variant) {c : Command}
    (hc : c.WellShaped) (hn : ∀ status, setup.rejects ≠ some (c.opcode, status)) :
    setup.Spares log (.command c) := by
  let p : Peripheral := { setup := setup.healed, log }
  have hw : (p.under setup).writeCommand c.encode
      = ((p.writeCommand c.encode).1, (p.writeCommand c.encode).2.under setup) :=
    p.writeCommand_under setup rfl rfl rfl hc hn
  have hp : p.under setup = { setup, log } := rfl
  simp only [Spares, DeviceCall.command, Link.answered, Carriage.perform, Carriage.outgoing,
    Link.write, refusal?_healed hv]
  cases ({ setup := setup.healed, log } : Peripheral).refusal? .controlPoint with
  | some error => rfl
  | none =>
    simp only [← hp, hw]
    cases (p.writeCommand c.encode).1 <;> rfl

theorem spares_data (hv : setup.variant = setup.healed.variant)
    (hn : setup.failsDataWrite ≠ some log.dataWrites.size) (bytes : Bytes) :
    setup.Spares log (.write .data bytes) := by
  simp only [Spares, Link.answered, Carriage.perform, Carriage.outgoing, Link.write,
    refusal?_healed hv]
  cases ({ setup := setup.healed, log } : Peripheral).refusal? .data with
  | some error => rfl
  | none =>
    simp only [Peripheral.writeData, if_neg hn, healed]
    cases log.announcedSize <;> rfl

section suffers

variable (hs : setup.Suffers defect)

include hs

theorem Suffers.refusesConnection_eq (hd : defect ≠ .refusesConnection) :
    setup.refusesConnection = false := by
  rw [← Bool.not_eq_true, hs.refusesConnection]
  exact hd

theorem Suffers.variant_eq (hd : defect ≠ .lacksService) :
    setup.variant = setup.healed.variant := by
  cases hv : setup.variant with
  | none => exact absurd (hs.variant.mp hv) hd
  | some v => rw [healed, hv, Option.getD_some]

/-- A command is rejected by the fault of its phase only. -/
theorem Suffers.rejects_ne {p : Phase} {o : Opcode} (ho : Session.commandOf? p = some o)
    (hd : defect.phase ≠ p) (status : Status) : setup.rejects ≠ some (o, status) := by
  rw [hs.rejects]
  exact fun hr => hd (Session.commandOf?_inj (Defect.commandOf?_phase hr) ho)

/-- Until the fault shows, every call is answered as it would be without it. -/
theorem Suffers.spares {p : Phase} {t : Transfer} {c : DeviceCall} (hc : p.Asks c)
    (ha : defect.Ahead p t) (hdata : p = .dataTransfer → log.dataWrites.size < t.chunksSent) :
    setup.Spares log c := by
  cases hc with
  | connect =>
    refine spares_connect (hs.refusesConnection_eq ?_)
    rintro rfl
    exact Nat.lt_irrefl _ ha
  | discover => exact spares_discover (hs.variant_eq (ha.ne_lacksService (by decide)))
  | read => exact spares_read (hs.variant_eq (ha.ne_lacksService (by decide))) _
  | notify => exact spares_notify (hs.variant_eq (ha.ne_lacksService (by decide))) _
  | command hp hw hc =>
    have hlate : .serviceDiscover ≤ p := by
      cases p <;> first | decide | cases hc
    exact spares_command (hs.variant_eq (ha.ne_lacksService hlate)) hw
      (hs.rejects_ne hc (ha.phase_ne hc))
  | data bytes =>
    refine spares_data (hs.variant_eq (ha.ne_lacksService (by decide))) ?_ bytes
    rw [hs.failsDataWrite]
    cases defect with
    | failsDataWrite index =>
      intro hn
      have hlt := hdata rfl
      have hle : t.chunksSent ≤ index := ha.2
      have heq : index = log.dataWrites.size := Option.some.inj hn
      omega
    | _ => nofun

end suffers

/-! ## Answers in which the fault shows -/

theorem cons_suffix_singleton {e x : Event} {rest : List Event} (h : e :: rest <:+ [x]) :
    e = x ∧ rest = [] := by
  rcases List.suffix_cons_iff.mp h with h | h
  · exact List.cons.inj h
  · cases List.suffix_nil.mp h

/-- A command's status comes along with its write, or behind it as an indication. -/
def statusReplies (setup : PeripheralSetup) (status : Status) : List Event :=
  if setup.indicates then
    [.written .controlPoint (.ok none), .value .controlPoint (some [status.byte]) none]
  else [.written .controlPoint (.ok (some [status.byte]))]

end PeripheralSetup

/-- What comes of the call in which the fault shows. -/
def Defect.replies (setup : PeripheralSetup) : Defect → List Event
  | refusesConnection => [.connection false (some (.connectFailed "peer refused"))]
  | lacksService => [.service none none]
  | rejectsPrepare status | rejectsStart status | rejectsVerify status => setup.statusReplies status
  | failsDataWrite index => [.written .data (.failed (.writeFailed s!"chunk {index} rejected"))]

theorem Defect.replies_of_rejects? {defect : Defect} {setup : PeripheralSetup} {o : Opcode}
    {status : Status} (h : defect.rejects? = some (o, status)) :
    defect.replies setup = setup.statusReplies status := by
  cases defect <;> cases h <;> rfl

namespace PeripheralSetup

variable {setup : PeripheralSetup} {defect : Defect} {log : PeripheralLog} {status : Status}

/-- The status is the last of what comes of a command, and what comes before only says that the
command was written. -/
theorem cons_suffix_statusReplies {e : Event} {rest : List Event}
    (h : e :: rest <:+ setup.statusReplies status) :
    rest = [] ∧ e.answer? = some (some [status.byte]) ∨
      e = .written .controlPoint (.ok none) ∧ rest ≠ [] := by
  unfold statusReplies at h
  split at h
  · rcases List.suffix_cons_iff.mp h with h | h
    · obtain ⟨rfl, rfl⟩ := List.cons.inj h
      exact .inr ⟨rfl, List.cons_ne_nil _ _⟩
    · obtain ⟨rfl, rfl⟩ := cons_suffix_singleton h
      exact .inl ⟨rfl, rfl⟩
  · obtain ⟨rfl, rfl⟩ := cons_suffix_singleton h
    exact .inl ⟨rfl, rfl⟩

theorem length_statusReplies (setup : PeripheralSetup) (status : Status) :
    (setup.statusReplies status).length ≤ 2 := by
  unfold statusReplies
  split <;> simp

/-- A rejection brings no more events than success would. -/
theorem length_statusReplies_le (setup : PeripheralSetup) (status : Status) (p : Phase) :
    (setup.statusReplies status).length ≤ (setup.healed.commandReplies p).length := by
  have hi : setup.healed.indicates = setup.indicates := rfl
  unfold statusReplies commandReplies defers
  rw [hi]
  cases setup.indicates with
  | true => simp
  | false =>
    simp only [Bool.false_eq_true, if_false, Bool.false_or]
    split <;> simp

/-- A phase with a command waits for no more than the replies to that. -/
theorem length_replies_le_command (setup : PeripheralSetup) {p : Phase}
    (hp : (Session.commandOf? p).isSome = true) (w : Wait) :
    (setup.replies p w).length ≤ (setup.commandReplies p).length := by
  have hpos : 1 ≤ (setup.commandReplies p).length := by
    unfold commandReplies
    split <;> simp
  cases p <;> cases hp <;> cases w <;>
    first | exact Nat.le_refl _ | exact hpos | exact Nat.zero_le _

/-- A command that is answered at all is answered by its status. -/
theorem answered_command {v : Variant} (hv : setup.variant = some v) (hc : log.connected = true)
    {c : Command} {status : Status} {log' : PeripheralLog}
    (hx : ({ setup, log } : Peripheral).execute c.encode = (some status, { setup, log := log' }))
    (hn : log'.notifying = true) :
    Link.answered ({ setup, log } : Peripheral) (.command c)
      = (setup.statusReplies status, { setup, log := log' }) := by
  have hr : ({ setup, log } : Peripheral).refusal? .controlPoint = none := by
    simp [Peripheral.refusal?, hc, hv, show v.has .controlPoint = true by cases v <;> rfl]
  simp only [DeviceCall.command, Link.answered, Carriage.perform, Carriage.outgoing, Link.write, hr,
    Peripheral.writeCommand, hx, statusReplies]
  cases setup.indicates with
  | true =>
    simp only [Bool.not_true, Bool.false_eq_true, if_false, if_true, hn]
    rfl
  | false => rfl

section shown

variable (hs : setup.Suffers defect)

include hs

theorem Suffers.refused (hd : defect = .refusesConnection) :
    Link.answered ({ setup, log } : Peripheral) .connect
      = ([.connection false (some (.connectFailed "peer refused"))], { setup, log }) := by
  simp [Link.answered, Carriage.perform, Link.connect, hs.refusesConnection.mpr hd,
    Link.takeNotices, DeviceCall.completion?, DeviceCall.failure]

theorem Suffers.unserved (hd : defect = .lacksService) (hc : log.connected = true) :
    Link.answered ({ setup, log } : Peripheral) .discover
      = ([.service none none], { setup, log }) := by
  simp [Link.answered, Carriage.perform, Link.discover, hs.variant.mpr hd, hc,
    Link.takeNotices, DeviceCall.completion?]

theorem Suffers.variant_isSome (hd : defect ≠ .lacksService) : ∃ v, setup.variant = some v :=
  ⟨_, hs.variant_eq hd⟩

/-- The command is taken down, and nothing is done about it. -/
theorem Suffers.rejected {c : Command} (hw : c.WellShaped) {status : Status}
    (hr : defect.rejects? = some (c.opcode, status)) (hc : log.connected = true)
    (hn : log.notifying = true) :
    Link.answered ({ setup, log } : Peripheral) (.command c)
      = (setup.statusReplies status,
          { setup, log := { log with commands := log.commands.push c } }) := by
  have hd : defect ≠ .lacksService := by
    rintro rfl
    cases hr
  obtain ⟨v, hv⟩ := hs.variant_isSome hd
  refine answered_command hv hc ?_ hn
  rcases Peripheral.execute_encode hw { setup, log } with ⟨status', hrejects, hx⟩ | ⟨hno, -⟩
  · have heq := hrejects.symm.trans (hs.rejects.trans hr)
    obtain rfl : status' = status := congrArg (fun r => r.2) (Option.some.inj heq)
    exact hx
  · exact absurd (hs.rejects.trans hr) (hno status)

/-- The request to give up is obeyed, whatever else is not. -/
theorem Suffers.abandoned (hd : defect ≠ .lacksService) (hc : log.connected = true)
    (hn : log.notifying = true) :
    Link.answered ({ setup, log } : Peripheral) (.command .abort)
      = (setup.statusReplies .success,
          { setup
            log := { log with commands := log.commands.push .abort, aborted := true } }) := by
  obtain ⟨v, hv⟩ := hs.variant_isSome hd
  refine answered_command hv hc ?_ hn
  rcases Peripheral.execute_encode (c := .abort) rfl { setup, log } with ⟨status, hr, -⟩ | ⟨-, hx⟩
  · rw [hs.rejects] at hr
    cases defect <;> cases hr
  · exact hx

/-- A chunk that is not taken leaves everything as it was. -/
theorem Suffers.untaken {index : Nat} (hd : defect = .failsDataWrite index)
    (hc : log.connected = true) (ha : log.announcedSize.isSome = true)
    (hsize : log.dataWrites.size = index) (bytes : Bytes) :
    Link.answered ({ setup, log } : Peripheral) (.write .data bytes)
      = ([.written .data (.failed (.writeFailed s!"chunk {index} rejected"))],
          { setup, log }) := by
  obtain ⟨v, hv⟩ := hs.variant_isSome (by rw [hd]; nofun)
  have hr : ({ setup, log } : Peripheral).refusal? .data = none := by
    simp [Peripheral.refusal?, hc, hv, show v.has .data = true by cases v <;> rfl]
  have hf : setup.failsDataWrite = some log.dataWrites.size := by
    rw [hs.failsDataWrite, hd, hsize]
    rfl
  obtain ⟨size, ha⟩ := Option.isSome_iff_exists.mp ha
  simp only [Link.answered, Carriage.perform, Carriage.outgoing, Link.write, hr,
    Peripheral.writeData, ha, hf, ← hsize]
  rfl

end shown

end PeripheralSetup
end OtaUpgrade
