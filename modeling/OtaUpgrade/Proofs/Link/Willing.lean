import Mathlib
import OtaUpgrade.Proofs.Link.Agreement
import OtaUpgrade.Proofs.Session.Accounts

/-!
A simulated peripheral that was set up to refuse nothing. Every call of an upgrade is answered by
the reply it hopes for, and at any point of the upgrade what the peripheral has seen is what the
phase and the books of the transfer say (`Shows`). The answer to the call of a phase takes this on
from one phase to the next.
-/
namespace OtaUpgrade

namespace PeripheralSetup

/-- The peripheral offers the service and refuses nothing. -/
structure Willing (setup : PeripheralSetup) (v : Variant) : Prop where
  variant : setup.variant = some v
  rejects : setup.rejects = none
  failsDataWrite : setup.failsDataWrite = none
  refusesConnection : setup.refusesConnection = false

/-- The write of the phase's command is completed before the command is answered. -/
def defers (setup : PeripheralSetup) (p : Phase) : Bool :=
  setup.indicates || (p == .verify && setup.rebootsOnVerify)

/-- What comes behind the completion of a command's write. -/
def sequel (setup : PeripheralSetup) (p : Phase) : Event :=
  if p = .verify ∧ setup.rebootsOnVerify = true then .connection false (some .disconnected)
  else .value .controlPoint (some [Status.success.byte]) none

/-- What comes of the command of a phase. -/
def commandReplies (setup : PeripheralSetup) (p : Phase) : List Event :=
  if setup.defers p = true then [.written .controlPoint (.ok none), setup.sequel p]
  else [.written .controlPoint (.ok (some [Status.success.byte]))]

/-- What is read of the application info. -/
def appInfoReply (setup : PeripheralSetup) : Event :=
  match setup.appInfo with
  | some info => .value .appInfo (some info.encode) none
  | none => .value .appInfo none (some (.readFailed s!"{Characteristic.appInfo.name} not readable"))

/-- What is still to come when a session waits so. -/
def replies (setup : PeripheralSetup) : Phase → Wait → List Event
  | .connect, _ => [.connection true none]
  | .serviceDiscover, _ => [.service setup.variant none]
  | .readAppInfo, .appInfo => [setup.appInfoReply]
  | .enableNotification, _ => [.notifications true none]
  | .dataTransfer, _ => [.written .data (.ok none)]
  | p, .write => setup.commandReplies p
  | p, .response => [setup.sequel p]
  | _, _ => []

theorem length_replies_le (setup : PeripheralSetup) (p : Phase) (w : Wait) :
    (setup.replies p w).length ≤ 2 := by
  unfold replies
  split
  case h_6 =>
    unfold commandReplies
    split <;> simp
  all_goals simp

/-- While an upgrade is under way without error, something is to come unless the mesh core is
asked. -/
theorem replies_ne_nil (setup : PeripheralSetup) {p : Phase} {w : Wait} (ha : p.awaits w = true)
    (hu : p.underWay = true) (hp : p ≠ .abort) (hw : w ≠ .meshMetadata) :
    setup.replies p w ≠ [] := by
  have hcommand (p : Phase) : setup.commandReplies p ≠ [] := by
    unfold commandReplies
    split <;> simp
  cases p with
  | idle | complete => cases hu
  | abort => exact absurd rfl hp
  | connect | serviceDiscover | enableNotification | dataTransfer => exact List.cons_ne_nil _ _
  | readAppInfo =>
    cases w with
    | appInfo => exact List.cons_ne_nil _ _
    | meshMetadata => exact absurd rfl hw
    | nothing | write | response | chunkAck => cases ha
  | prepareForDownload | startDownload | verify =>
    cases w with
    | write => exact hcommand _
    | response => exact List.cons_ne_nil _ _
    | nothing | appInfo | meshMetadata | chunkAck => cases ha

end PeripheralSetup

/-- What a peripheral has seen of an upgrade that has come to a phase without fault, with all that
it was asked for answered. -/
structure PeripheralLog.Shows (log : PeripheralLog) (mode : Mode) (image : Image) (t : Transfer)
    (p : Phase) : Prop where
  commands : log.commands.toList = (mode.script image).take p.commandsIssued
  dataWrites : log.dataWrites.toList
    = (image.chunks t.chunkSize t.chunksSent).map List.length
  received : log.received.toList = image.bytes.take (image.covered t.chunkSize t.chunksSent)
  /-- The link may be gone once the peripheral has verified the image. -/
  connected : .connect ≤ p → p < .verify → log.connected = true
  notifying : .enableNotification ≤ p → log.notifying = true
  announced : .startDownload ≤ p → log.announcedSize = some (UInt32.ofNat image.size)
  verified : .verify ≤ p → log.verifiedCrc = some image.crc

section shows

variable {log : PeripheralLog} {mode : Mode} {image : Image} {t : Transfer} {p : Phase}

theorem PeripheralLog.Shows.fresh (ht : t.chunksSent = 0) :
    ({} : PeripheralLog).Shows mode image t .idle := by
  refine ⟨rfl, ?_, ?_, fun h => absurd h (by decide), fun h => absurd h (by decide),
    fun h => absurd h (by decide), fun h => absurd h (by decide)⟩
  · simp [ht]
  · simp [ht]

/-- Of the books only the chunks that went out matter. -/
theorem PeripheralLog.Shows.congr (h : log.Shows mode image t p) {t' : Transfer}
    (hsize : t'.chunkSize = t.chunkSize) (hsent : t'.chunksSent = t.chunksSent) :
    log.Shows mode image t' p :=
  ⟨h.commands, hsize ▸ hsent ▸ h.dataWrites, hsize ▸ hsent ▸ h.received, h.connected, h.notifying,
    h.announced, h.verified⟩

/-- Before anything is sent the chunk size does not matter. -/
theorem PeripheralLog.Shows.resize (h : log.Shows mode image t p) (ht : t.chunksSent = 0)
    {t' : Transfer} (ht' : t'.chunksSent = 0) : log.Shows mode image t' p := by
  refine ⟨h.commands, ?_, ?_, h.connected, h.notifying, h.announced, h.verified⟩
  · rw [h.dataWrites, ht, ht']
    simp
  · rw [h.received, ht, ht']
    simp

/-- Until notifications are switched on, nothing is seen of an upgrade but the link. -/
theorem PeripheralLog.Shows.early (h : log.Shows mode image t p) (hp : .connect ≤ p)
    (hp' : p ≤ .readAppInfo) {q : Phase} (hq : q ≤ .readAppInfo) : log.Shows mode image t q := by
  have none {r : Phase} (hr : r ≤ .readAppInfo) : r.commandsIssued = 0 := by
    cases r <;> first | rfl | exact absurd hr (by decide)
  have late {r : Phase} (hr : .enableNotification ≤ r) : ¬ r ≤ .readAppInfo :=
    fun hr' => absurd (Nat.le_trans hr hr') (by decide)
  refine ⟨?_, h.dataWrites, h.received, fun _ _ => h.connected hp ?_, fun hn => ?_, fun hn => ?_,
    fun hn => ?_⟩
  · rw [h.commands, none hp', none hq]
  · exact Nat.lt_of_le_of_lt hp' (by decide)
  · exact absurd hq (late hn)
  · exact absurd hq (late (Nat.le_trans (by decide) hn))
  · exact absurd hq (late (Nat.le_trans (by decide) hn))

/-- The log of a peripheral that was told to verify the image and found it right. -/
def PeripheralLog.passing (log : PeripheralLog) (crc : UInt32) : PeripheralLog :=
  { log with commands := log.commands.push (.verify crc), verifiedCrc := some crc }

theorem PeripheralLog.Shows.passing (h : log.Shows mode image t .dataTransfer) :
    (log.passing image.crc).Shows mode image t .verify := by
  refine ⟨?_, h.dataWrites, h.received, fun _ hn => absurd hn (by decide),
    fun _ => h.notifying (by decide), fun _ => h.announced (by decide), fun _ => rfl⟩
  simp [PeripheralLog.passing, h.commands, Phase.commandsIssued, Mode.script]

/-- After verification the link may go. -/
theorem PeripheralLog.Shows.dropped (h : log.Shows mode image t .verify) :
    log.dropped.Shows mode image t .verify :=
  ⟨h.commands, h.dataWrites, h.received, fun _ hn => absurd hn (by decide), h.notifying,
    h.announced, h.verified⟩

end shows

/-- A peripheral has taken part in an upgrade from its beginning to its end. -/
structure PeripheralLog.Upgraded (log : PeripheralLog) (mode : Mode) (image : Image) (size : Nat) :
    Prop where
  received : log.received.toList = image.bytes
  commands : log.commands.toList
    = [mode.prepareCommand, .start (UInt32.ofNat image.size), .verify image.crc]
  /-- As many chunks as the image takes. -/
  chunks : log.dataWrites.size = (image.size + size - 1) / size
  /-- All of them full but the last. -/
  full : ∃ last, 0 < last ∧ last ≤ size ∧
    log.dataWrites.toList = List.replicate (log.dataWrites.size - 1) size ++ [last]
  verified : log.verifiedCrc = some image.crc

theorem PeripheralLog.Shows.upgraded {log : PeripheralLog} {mode : Mode} {image : Image}
    {t : Transfer} {size count : Nat} (h : log.Shows mode image t .verify) (pos : 0 < size)
    (lt : count * size < image.size) (hall : image.covered size (count + 1) = image.size)
    (ht : t = .after image size (count + 1) (count + 1)) : log.Upgraded mode image size := by
  have hle : image.size ≤ (count + 1) * size := by
    unfold Image.covered at hall
    omega
  have hwrites : log.dataWrites.toList
      = List.replicate count size ++ [image.size - count * size] := by
    rw [h.dataWrites, ht]
    exact image.map_length_chunks lt hle
  have hsize : log.dataWrites.size = count + 1 := by
    rw [← Array.length_toList, hwrites]
    simp
  refine ⟨?_, h.commands, ?_, ⟨image.size - count * size, by omega, ?_, ?_⟩, h.verified (by decide)⟩
  · rw [h.received, ht]
    exact image.take_covered_all hall
  · rw [hsize]
    exact image.succ_eq_total pos lt hall
  · rw [Nat.succ_mul] at hle
    omega
  · rw [hsize]
    exact hwrites

/-- A call is answered by these events, and the log fits afterwards. -/
def PeripheralSetup.Replies (setup : PeripheralSetup) (log : PeripheralLog) (c : DeviceCall)
    (es : List Event) (fits : PeripheralLog → Prop) : Prop :=
  ∃ log', Link.answered ({ setup, log } : Peripheral) c = (es, { setup, log := log' }) ∧ fits log'

namespace PeripheralSetup.Willing

variable {setup : PeripheralSetup} {v : Variant} {log : PeripheralLog} {mode : Mode} {image : Image}
  {t : Transfer} {p : Phase} (hw : setup.Willing v)

include hw

theorem refusal?_of_has (hc : log.connected = true) (channel : Characteristic)
    (hv : v.has channel = true) : ({ setup, log } : Peripheral).refusal? channel = none := by
  simp [Peripheral.refusal?, hc, hw.variant, hv]

theorem connect (h : log.Shows mode image t .idle) :
    setup.Replies log .connect (setup.replies .connect .nothing)
      (·.Shows mode image t .connect) := by
  refine ⟨{ log with connected := true, connects := log.connects + 1 }, ?_, ?_⟩
  · simp [Link.answered, Carriage.perform, Link.connect, Link.takeNotices, hw.refusesConnection,
      DeviceCall.completion?, Peripheral.withLog, replies]
  · exact ⟨h.commands, h.dataWrites, h.received, fun _ _ => rfl,
      fun hn => absurd hn (by decide), fun hn => absurd hn (by decide),
      fun hn => absurd hn (by decide)⟩

omit hw in
theorem discover (h : log.Shows mode image t .connect) :
    setup.Replies log .discover (setup.replies .serviceDiscover .nothing)
      (·.Shows mode image t .serviceDiscover) := by
  refine ⟨log, ?_, h.early (by decide) (by decide) (by decide)⟩
  simp [Link.answered, Carriage.perform, Link.discover, Link.takeNotices,
    h.connected (by decide) (by decide), DeviceCall.completion?, replies]

theorem read (h : log.Shows mode image t .serviceDiscover) (hv : v.has .appInfo = true) :
    setup.Replies log (.read .appInfo) (setup.replies .readAppInfo .appInfo)
      (·.Shows mode image t .readAppInfo) := by
  have hr := hw.refusal?_of_has (h.connected (by decide) (by decide)) .appInfo hv
  refine ⟨log, ?_, h.early (by decide) (by decide) (by decide)⟩
  simp only [Link.answered, Carriage.perform, Link.read, hr, replies, appInfoReply]
  cases setup.appInfo <;> rfl

theorem notify (h : log.Shows mode image t .readAppInfo) :
    setup.Replies log (.enableNotifications true) (setup.replies .enableNotification .nothing)
      (·.Shows mode image t .enableNotification) := by
  have hc := h.connected (by decide) (by decide)
  have hr := hw.refusal?_of_has hc .controlPoint (by cases v <;> rfl)
  refine ⟨{ log with notifying := true }, ?_, ?_⟩
  · simp only [Link.answered, Carriage.perform, Link.setNotify, hr]
    rfl
  · exact ⟨h.commands, h.dataWrites, h.received, fun _ _ => hc, fun _ => rfl,
      fun hn => absurd hn (by decide), fun hn => absurd hn (by decide)⟩

/-- No command is rejected. -/
theorem execute_eq {c : Command} (hc : c.WellShaped) :
    ({ setup, log } : Peripheral).execute c.encode
      = (({ setup, log } : Peripheral).heard c).obey c := by
  rcases Peripheral.execute_encode hc { setup, log } with ⟨status, hrejects, -⟩ | ⟨-, hobeys⟩
  · exact absurd (hw.rejects.symm.trans hrejects) nofun
  · exact hobeys

/-- A command that is obeyed with success is answered as the phase expects. -/
theorem command (h : log.Shows mode image t p) (hp : .enableNotification ≤ p) (hp' : p < .verify)
    {c : Command} (hc : c.WellShaped) {log' : PeripheralLog}
    (ho : (({ setup, log } : Peripheral).heard c).obey c
      = (some .success, { setup, log := log' }))
    (hn : log'.notifying = log.notifying) {q : Phase}
    (hq : q = .verify → setup.rebootsOnVerify = false) {fits : PeripheralLog → Prop}
    (hf : fits log') :
    setup.Replies log (.command c) (setup.commandReplies q) fits := by
  have hr := hw.refusal?_of_has (h.connected (Nat.le_trans (by decide) hp) hp')
    .controlPoint (by cases v <;> rfl)
  have hx : ({ setup, log } : Peripheral).execute c.encode
      = (some .success, { setup, log := log' }) := (hw.execute_eq hc).trans ho
  have hnot : log'.notifying = true := hn.trans (h.notifying hp)
  have hdefers : setup.defers q = setup.indicates := by
    cases q <;> first | exact Bool.or_false _ | simp [defers, hq rfl]
  have hsequel : setup.sequel q = .value .controlPoint (some [Status.success.byte]) none :=
    if_neg fun hb => Bool.false_ne_true ((hq hb.1).symm.trans hb.2)
  refine ⟨log', ?_, hf⟩
  simp only [DeviceCall.command, Link.answered, Carriage.perform, Carriage.outgoing, Link.write, hr,
    Peripheral.writeCommand, hx, commandReplies, hdefers, hsequel]
  cases hi : setup.indicates with
  | true =>
    simp only [Bool.not_true, Bool.false_eq_true, if_false, if_true, hnot]
    rfl
  | false => rfl

theorem prepare (h : log.Shows mode image t .enableNotification) (ht : t.chunksSent = 0) :
    setup.Replies log (.command mode.prepareCommand)
      (setup.replies .prepareForDownload .write) (·.Shows mode image t .prepareForDownload) := by
  have hc : mode.prepareCommand.WellShaped := by cases mode <;> rfl
  have hop : mode.prepareCommand.opcode = .prepareDownload := by cases mode <;> rfl
  let log' : PeripheralLog := { log with commands := log.commands.push mode.prepareCommand }
  have ho : (({ setup, log } : Peripheral).heard mode.prepareCommand).obey mode.prepareCommand
      = (some .success, { setup, log := log'.prepared }) := by
    simp [Peripheral.obey, hop, Peripheral.heard, Peripheral.withLog, log']
  refine hw.command h (by decide) (by decide) hc ho rfl (q := .prepareForDownload)
    (by rintro ⟨⟩) ?_
  refine ⟨?_, h.dataWrites, ?_, fun _ _ => h.connected (by decide) (by decide),
    fun _ => h.notifying (by decide), fun hn => absurd hn (by decide),
    fun hn => absurd hn (by decide)⟩
  · simp [log', PeripheralLog.prepared, h.commands, Phase.commandsIssued, Mode.script]
  · simp [PeripheralLog.prepared, ht]

theorem start (h : log.Shows mode image t .prepareForDownload) :
    setup.Replies log (.command (.start (UInt32.ofNat image.size)))
      (setup.replies .startDownload .write) (·.Shows mode image t .startDownload) := by
  let log' : PeripheralLog :=
    { log with
      commands := log.commands.push (.start (UInt32.ofNat image.size))
      announcedSize := some (UInt32.ofNat image.size) }
  have ho : (({ setup, log } : Peripheral).heard (.start (UInt32.ofNat image.size))).obey
        (.start (UInt32.ofNat image.size))
      = (some .success, { setup, log := log' }) := rfl
  refine hw.command h (by decide) (by decide) (Command.wellShaped_start _) ho rfl
    (q := .startDownload) nofun ?_
  refine ⟨?_, h.dataWrites, h.received, fun _ _ => h.connected (by decide) (by decide),
    fun _ => h.notifying (by decide), fun _ => rfl, fun hn => absurd hn (by decide)⟩
  simp [log', h.commands, Phase.commandsIssued, Mode.script]

/-- A chunk is appended to those before. -/
theorem data (h : log.Shows mode image t p) (hp : .startDownload ≤ p) (hp' : p ≤ .dataTransfer)
    {size count : Nat} (hsize : t.chunkSize = size) (hcount : t.chunksSent = count)
    {t' : Transfer} (hsize' : t'.chunkSize = size) (hcount' : t'.chunksSent = count + 1) :
    setup.Replies log (.write .data (image.chunk size count))
      (setup.replies .dataTransfer .chunkAck) (·.Shows mode image t' .dataTransfer) := by
  have hlt : p < .verify := Nat.lt_of_le_of_lt hp' (by decide)
  have hc := h.connected (Nat.le_trans (by decide) hp) hlt
  have hr := hw.refusal?_of_has hc .data (by cases v <;> rfl)
  refine ⟨{ log with
      dataWrites := log.dataWrites.push (image.chunk size count).length
      received := log.received ++ image.chunk size count }, ?_, ?_⟩
  · simp [Link.answered, Carriage.perform, Carriage.outgoing, Link.write, hr, Peripheral.writeData,
      h.announced hp, hw.failsDataWrite, Peripheral.withLog, Link.takeNotices, replies, Answer.bind,
      Carriage.incomingResponse, DeviceCall.completion?]
  · have hcommands : p.commandsIssued = 2 := by
      cases p <;> first | rfl | exact absurd hp (by decide) | exact absurd hp' (by decide)
    refine ⟨?_, ?_, ?_, fun _ _ => hc, fun _ => h.notifying (Nat.le_trans (by decide) hp),
      fun _ => h.announced hp, fun hn => absurd hn (by decide)⟩
    · rw [h.commands, hcommands]
      rfl
    · simp [h.dataWrites, hsize, hcount, hsize', hcount', Image.chunks_succ]
    · simp [h.received, hsize, hcount, hsize', hcount', Image.take_covered_succ]

omit hw in
/-- What was received is the image that was announced. -/
theorem verdict_eq (h : log.Shows mode image t .dataTransfer)
    (hall : image.covered t.chunkSize t.chunksSent = image.size) :
    log.verdict image.crc = .success := by
  have hbytes : log.received.toList = image.bytes := by
    rw [h.received, Image.take_covered_all hall]
  have hsize : log.received.size = (UInt32.ofNat image.size).toNat := by
    have hlt : image.size < 2 ^ 32 := image.size_lt
    rw [← Array.length_toList, hbytes, Image.length_bytes, UInt32.toNat_ofNat_of_lt' hlt]
  simp [PeripheralLog.verdict, h.announced (by decide), hsize, hbytes, Image.crc]

omit hw in
/-- A peripheral that has the whole image verifies it, and is gone with that if it reboots. -/
theorem obey_verify (setup : PeripheralSetup) (h : log.Shows mode image t .dataTransfer)
    (hall : image.covered t.chunkSize t.chunksSent = image.size) :
    (({ setup, log } : Peripheral).heard (.verify image.crc)).obey (.verify image.crc)
      = if setup.rebootsOnVerify then
          (none, { setup, log := (log.passing image.crc).dropped, notices := [.disconnected] })
        else (some .success, { setup, log := log.passing image.crc }) := by
  have hv : ({ log with commands := log.commands.push (.verify image.crc) } :
      PeripheralLog).verdict image.crc = .success := (verdict_eq h hall :)
  show Peripheral.verify _ _ = _
  simp only [Peripheral.verify, Peripheral.heard, Peripheral.withLog, hv]
  rfl

theorem verify (h : log.Shows mode image t .dataTransfer)
    (hall : image.covered t.chunkSize t.chunksSent = image.size) :
    setup.Replies log (.command (.verify image.crc)) (setup.replies .verify .write)
      (·.Shows mode image t .verify) := by
  have hobey := obey_verify setup h hall
  cases hreboots : setup.rebootsOnVerify with
  | false =>
    rw [hreboots] at hobey
    exact hw.command h (by decide) (by decide) (Command.wellShaped_verify _) (q := .verify) hobey
      rfl (fun _ => hreboots) h.passing
  | true =>
    rw [hreboots, if_pos rfl] at hobey
    have hr := hw.refusal?_of_has (h.connected (by decide) (by decide)) .controlPoint
      (by cases v <;> rfl)
    have hx : ({ setup, log } : Peripheral).execute (Command.verify image.crc).encode
        = (none, { setup, log := (log.passing image.crc).dropped, notices := [.disconnected] }) :=
      (hw.execute_eq (Command.wellShaped_verify image.crc)).trans hobey
    -- the write is completed without an answer, and the notice of the lost link comes behind
    refine ⟨(log.passing image.crc).dropped, ?_, h.passing.dropped⟩
    simp only [DeviceCall.command, Link.answered, Carriage.perform, Carriage.outgoing, Link.write,
      hr, Peripheral.writeCommand, hx, replies, commandReplies, defers, sequel, hreboots]
    simp [Link.takeNotices, Answer.bind, Carriage.incomingResponse, DeviceCall.completion?,
      Carriage.noticed]

end PeripheralSetup.Willing
end OtaUpgrade
