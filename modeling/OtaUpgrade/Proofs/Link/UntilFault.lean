import Mathlib
import OtaUpgrade.Proofs.Link.Defect
import OtaUpgrade.Proofs.Link.Scenario
import OtaUpgrade.Proofs.Session.Failing

/-!
An upgrade of a peripheral with one fault, up to the call in which the fault shows. Until then the
peripheral answers as if it were healed, so the session goes on as it would without the fault
(`Setback.Nears`); the call in which the fault shows leaves the session to hear of it
(`Setback.Struck`).
-/
namespace OtaUpgrade

/-- What a session asks of its device as long as it meets no error is what its new phase asks. -/
theorem Session.Deed.asks {s s' : Session} {e : Event} {ds : List Effect} (h : Deed s e s' ds)
    (he : s'.error = none) (hf : s'.phase ≠ .complete) :
    Trace.calls ds = [] ∨ ∃ c, Trace.calls ds = [c] ∧ s'.phase.Asks c := by
  cases h with
  | stays _ _ _ hd => exact .inl (by rw [hd]; rfl)
  | connects _ hp _ _ hd =>
    rw [hp]
    rcases hd with hd | hd
    · exact .inl (by rw [hd]; rfl)
    · exact .inr ⟨_, by rw [hd]; rfl, .connect⟩
  | discovers _ _ hp _ _ hd =>
    rw [hp]
    exact .inr ⟨_, by rw [hd]; rfl, .discover⟩
  | reads _ _ hp _ _ hd =>
    rw [hp]
    rcases hd with hd | hd
    · exact .inl (by rw [hd]; rfl)
    · exact .inr ⟨_, by rw [hd]; rfl, .read⟩
  | notifies _ hp _ _ hd =>
    rw [hp]
    exact .inr ⟨_, by rw [hd]; rfl, .notify⟩
  | prepares _ _ hp _ _ hd =>
    rw [hp]
    exact .inr ⟨_, by rw [hd]; rfl, .command (by decide) (by cases s.mode <;> rfl)
      (by cases s.mode <;> rfl)⟩
  | starts _ _ _ hp _ _ hd =>
    rw [hp]
    exact .inr ⟨_, by rw [hd]; rfl, .command (by decide) (Command.wellShaped_start _) rfl⟩
  | transfers _ _ _ _ _ hp _ _ hd | next _ _ _ _ _ _ hp _ _ hd =>
    rw [hp]
    exact .inr ⟨_, by rw [hd]; rfl, .data _⟩
  | verifies _ _ _ _ _ _ _ hp _ _ _ hd =>
    rw [hp]
    exact .inr ⟨_, by rw [hd]; rfl, .command (by decide) (Command.wellShaped_verify _) rfl⟩
  | finishes _ _ hp => exact absurd hp hf
  | fails _ herr =>
    rw [he] at herr
    cases herr

/-- In the transfer every call sends a chunk. -/
theorem Session.Deed.sends {s s' : Session} {e : Event} {ds : List Effect} (h : Deed s e s' ds)
    (he : s'.error = none) (hp : s'.phase = .dataTransfer) (hc : Trace.calls ds ≠ []) :
    s'.transfer.chunksSent = s.transfer.chunksSent + 1 := by
  cases h with
  | stays _ _ _ hd => exact absurd (by rw [hd]; rfl) hc
  | transfers _ _ _ _ hst _ ht | next _ _ _ _ _ hst _ ht =>
    rw [hst, ht]
    rfl
  | fails _ herr =>
    rw [he] at herr
    cases herr
  | connects _ hq | discovers _ _ hq | reads _ _ hq | notifies _ hq | prepares _ _ hq
  | starts _ _ _ hq | verifies _ _ _ _ _ _ _ hq | finishes _ _ hq =>
    rw [hq] at hp
    cases hp

/-- An upgrade of a peripheral with one fault, with everything that it depends on. As an undertaking
it is the upgrade of the same peripheral healed. -/
structure Setback extends Undertaking where
  faulty : PeripheralSetup
  defect : Defect
  healed : setup = faulty.healed
  suffers : faulty.Suffers defect
  tells : defect.Shows image size

namespace Setback

/-- What the peripheral has seen once the fault has shown: everything before, and the command that
was rejected. -/
structure Saw (m : Setback) (log : PeripheralLog) : Prop where
  commands : log.commands.toList = (m.mode.script m.image).take m.defect.phase.commandsIssued
  received : log.received.toList = m.image.bytes.take (m.defect.takenIn m.image m.size)
  connected : .serviceDiscover ≤ m.defect.phase → log.connected = true
  notifying : .prepareForDownload ≤ m.defect.phase → log.notifying = true

/-- The fault has not shown. The session and its peripheral are abreast as if there were none. -/
structure Nears (m : Setback) (s : Session) (queue : List Event) (q : Peripheral) : Prop where
  pursued : m.Pursued s s.phase
  linked : s.Linked
  ahead : m.defect.Ahead s.phase s.transfer
  queue : queue = m.setup.replies s.phase s.wait
  peripheral : ∃ log, q = { setup := m.faulty, log } ∧
    log.Shows m.mode m.image s.transfer s.phase

/-- The fault has shown, and the session is still to hear of it. -/
structure Struck (m : Setback) (s : Session) (queue : List Event) (q : Peripheral) : Prop
    extends m.Carries s where
  linked : s.Linked
  phase : s.phase = m.defect.phase
  books : ∀ index, m.defect = .failsDataWrite index →
    s.transfer = .after m.image m.size index (index + 1)
  waiting : queue ≠ []
  queue : queue <:+ m.defect.replies m.faulty
  peripheral : ∃ log, q = { setup := m.faulty, log } ∧ m.Saw log

/-- The fault is on record, and the peripheral is told to give the download up. -/
structure Yields (m : Setback) (s : Session) (queue : List Event) (q : Peripheral) : Prop where
  device : s.device = some m.device
  unfinished : s.finished = false
  phase : s.phase = .abort
  waiting : queue ≠ []
  queue : queue <:+ m.faulty.statusReplies .success
  peripheral : ∃ log, q = { setup := m.faulty, log } ∧
    m.defect.Diagnosed m.mode m.image m.size s log

/-- The upgrade goes on until the fault shows, is given up if need be, and ends with the fault
diagnosed. -/
def course (m : Setback) : Scenario where
  Way s queue q := m.Nears s queue q ∨ m.Struck s queue q ∨ m.Yields s queue q
  Outcome := m.defect.Diagnosed m.mode m.image m.size

variable {m : Setback} {s : Session} {log : PeripheralLog} {n : Nat} {b : Bool}

/-- What no fault shows in leaves the faulty peripheral like the healed one. -/
theorem answeredAll_of_spares {calls : List DeviceCall}
    (h : calls = [] ∨ ∃ c, calls = [c] ∧ m.faulty.Spares log c) {log' : PeripheralLog}
    (hx : (Link.answeredAll ({ setup := m.setup, log } : Peripheral) calls).2
      = { setup := m.setup, log := log' }) :
    Link.answeredAll ({ setup := m.faulty, log } : Peripheral) calls
      = ((Link.answeredAll ({ setup := m.setup, log } : Peripheral) calls).1,
          { setup := m.faulty, log := log' }) := by
  rw [m.healed] at hx ⊢
  rcases h with rfl | ⟨c, rfl, hc⟩
  · have hlog : log = log' := congrArg Peripheral.log hx
    rw [hlog]
    rfl
  · simp only [Link.answeredAll] at hx ⊢
    rw [hc, hx]
    rfl

theorem toDo_le {q q' : Peripheral} {t : Turn}
    (h : (Link.answeredAll q (Trace.calls t.effects)).1.length
      ≤ (Link.answeredAll q' (Trace.calls t.effects)).1.length) :
    Undertaking.toDo q t ≤ Undertaking.toDo q' t := by
  unfold Undertaking.toDo
  omega

/-- The call in which the fault shows, as the peripheral answers it. -/
structure Strikes (m : Setback) (log : PeripheralLog) (p : Phase) (c : DeviceCall) : Prop where
  answered : ∃ log', Link.answered ({ setup := m.faulty, log } : Peripheral) c
    = (m.defect.replies m.faulty, { setup := m.faulty, log := log' }) ∧ m.Saw log'
  /-- No more comes of it than would without the fault. -/
  length_le : (m.defect.replies m.faulty).length
    ≤ (Link.answered ({ setup := m.setup, log } : Peripheral) c).1.length
  /-- Without the fault this would be all that the phase waits for. -/
  alone : ∀ w, (m.setup.replies p w).length
    ≤ (Link.answered ({ setup := m.setup, log } : Peripheral) c).1.length

theorem Strikes.of_single {c : DeviceCall} {p : Phase} {x : Event} {log' : PeripheralLog}
    (hreplies : m.defect.replies m.faulty = [x])
    (hx : Link.answered ({ setup := m.faulty, log } : Peripheral) c
      = ([x], { setup := m.faulty, log := log' }))
    (hsaw : m.Saw log') (hone : ∀ w, (m.setup.replies p w).length = 1) : m.Strikes log p c := by
  have hpos : 0 < (Link.answered ({ setup := m.setup, log } : Peripheral) c).1.length :=
    List.length_pos_iff.mpr (Link.answered_ne_nil _ c)
  refine ⟨⟨log', by rw [hreplies]; exact hx, hsaw⟩, ?_, fun w => ?_⟩
  · rw [hreplies]
    exact hpos
  · rw [hone w]
    exact hpos

/-- The chunk that is not taken has bytes. -/
theorem lt_of_failsDataWrite {index : Nat} (hd : m.defect = .failsDataWrite index) :
    index * m.size < m.image.size := by
  have htells := m.tells
  rw [hd] at htells
  exact Image.lt_of_lt_total m.pos htells

/-- Before the transfer nothing was taken in. -/
theorem received_nil {t : Transfer} {p : Phase} (hl : log.Shows m.mode m.image t p)
    (ht : t.Stands m.image p) (hp : p < .dataTransfer) : log.received.toList = [] := by
  have hsent : t.chunksSent = 0 := by
    cases p with
    | idle | connect => exact congrArg Transfer.chunksSent ht
    | serviceDiscover | readAppInfo | enableNotification | prepareForDownload | startDownload =>
      obtain ⟨size, -, rfl⟩ := ht
      rfl
    | dataTransfer | verify | abort | complete => exact absurd hp (by decide)
  rw [hl.received, hsent, Image.covered_zero, List.take_zero]

/-- A turn by which a session comes to the fault. -/
structure Meets (m : Setback) (log : PeripheralLog) (s' : Session) (calls : List DeviceCall) :
    Prop where
  phase : s'.phase = m.defect.phase
  books : ∀ index, m.defect = .failsDataWrite index →
    s'.transfer = .after m.image m.size index (index + 1)
  call : ∃ c, calls = [c] ∧ m.Strikes log s'.phase c

variable {s' : Session} {t : Transfer} {p : Phase}

theorem meets_connect (hd : m.defect = .refusesConnection) (hp : s'.phase = .connect)
    (hl : log.Shows m.mode m.image t .idle) (ht : t.Stands m.image .idle) :
    m.Meets log s' [.connect] := by
  refine ⟨by rw [hp, hd]; rfl, by rw [hd]; nofun, _, rfl, ?_⟩
  rw [hp]
  refine .of_single (by rw [hd]; rfl) (m.suffers.refused hd) ⟨?_, ?_, ?_, ?_⟩ fun _ => rfl
  · rw [hl.commands, hd]
    rfl
  · rw [received_nil hl ht (by decide), hd]
    rfl
  · intro hlate
    rw [hd] at hlate
    exact absurd hlate (by decide)
  · intro hlate
    rw [hd] at hlate
    exact absurd hlate (by decide)

theorem meets_discover (hd : m.defect = .lacksService) (hp : s'.phase = .serviceDiscover)
    (hl : log.Shows m.mode m.image t .connect) (ht : t.Stands m.image .connect) :
    m.Meets log s' [.discover] := by
  have hc := hl.connected (by decide) (by decide)
  refine ⟨by rw [hp, hd]; rfl, by rw [hd]; nofun, _, rfl, ?_⟩
  rw [hp]
  refine .of_single (by rw [hd]; rfl) (m.suffers.unserved hd hc) ⟨?_, ?_, fun _ => hc, ?_⟩
    fun _ => rfl
  · rw [hl.commands, hd]
    rfl
  · rw [received_nil hl ht (by decide), hd]
    rfl
  · intro hlate
    rw [hd] at hlate
    exact absurd hlate (by decide)

/-- A rejected command is taken down. -/
theorem meets_command (hl : log.Shows m.mode m.image t p) (hp : .enableNotification ≤ p)
    (hp' : p < .verify) {c : Command} (hw : c.WellShaped) {status : Status}
    (hr : m.defect.rejects? = some (c.opcode, status))
    (hc : Session.commandOf? s'.phase = some c.opcode) {fits : PeripheralLog → Prop}
    (hx : m.setup.Replies log (.command c) (m.setup.commandReplies s'.phase) fits)
    (hcommands : (m.mode.script m.image).take s'.phase.commandsIssued
      = (m.mode.script m.image).take p.commandsIssued ++ [c])
    (hreceived : log.received.toList = m.image.bytes.take (m.defect.takenIn m.image m.size)) :
    m.Meets log s' [.command c] := by
  have hup := hl.connected (Nat.le_trans (by decide) hp) hp'
  have hn := hl.notifying hp
  have hphase : s'.phase = m.defect.phase := Session.commandOf?_inj hc (Defect.commandOf?_phase hr)
  have hreplies : m.defect.replies m.faulty = m.faulty.statusReplies status :=
    Defect.replies_of_rejects? hr
  have hanswered := m.suffers.rejected hw hr hup hn
  rw [← hreplies] at hanswered
  obtain ⟨log', hx, -⟩ := hx
  refine ⟨hphase, ?_, _, rfl, ⟨_, hanswered, ?_, hreceived, fun _ => hup, fun _ => hn⟩, ?_, ?_⟩
  · intro index hd
    rw [hd] at hr
    cases hr
  · rw [← hphase, hcommands, ← hl.commands]
    simp
  · rw [hx, hreplies, m.healed]
    exact m.faulty.length_statusReplies_le status s'.phase
  · intro w
    rw [hx]
    exact m.setup.length_replies_le_command (by rw [hc]; rfl) w

/-- A chunk that is not taken leaves everything as it was. -/
theorem meets_data (hl : log.Shows m.mode m.image t p) (hp : .startDownload ≤ p)
    (hp' : p ≤ .dataTransfer) {index : Nat} (hd : m.defect = .failsDataWrite index)
    (hsize : t.chunkSize = m.size) (hsent : t.chunksSent = index) (hq : s'.phase = .dataTransfer)
    (ht : s'.transfer = .after m.image m.size index (index + 1)) (bytes : Bytes) :
    m.Meets log s' [.write .data bytes] := by
  have hc := hl.connected (Nat.le_trans (by decide) hp) (Nat.lt_of_le_of_lt hp' (by decide))
  have hwrites : log.dataWrites.size = index := by
    rw [← Array.length_toList, hl.dataWrites, List.length_map, Image.length_chunks, hsent]
  have ha : log.announcedSize.isSome = true := by rw [hl.announced hp]; rfl
  have lt := lt_of_failsDataWrite hd
  have hcommands : p.commandsIssued = 2 := by
    cases p <;> first | rfl | exact absurd hp (by decide) | exact absurd hp' (by decide)
  refine ⟨by rw [hq, hd]; rfl, ?_, _, rfl, ?_⟩
  · intro index' hd'
    obtain rfl : index = index' := Defect.failsDataWrite.inj (hd.symm.trans hd')
    exact ht
  · rw [hq]
    refine .of_single (by rw [hd]; rfl) (m.suffers.untaken hd hc ha hwrites bytes)
      ⟨?_, ?_, fun _ => hc, fun _ => hl.notifying (Nat.le_trans (by decide) hp)⟩ fun _ => rfl
    · rw [hl.commands, hd, hcommands]
      rfl
    · rw [hl.received, hsize, hsent, Image.covered_of_lt lt, hd]
      rfl

/-- A session that would have gone on without the fault has come to it, if it is not before it any
more. -/
theorem meets (h : s.Sound) (hs : m.Pursued s s.phase) (ha : m.defect.Ahead s.phase s.transfer)
    (hl : log.Shows m.mode m.image s.transfer s.phase) {e : Event} {ds : List Effect}
    (hdeed : Session.Deed s e s' ds) (hs' : m.Pursued s' s'.phase) (hf : s'.phase ≠ .complete)
    (hn : ¬ m.defect.Ahead s'.phase s'.transfer)
    (hasks : s.phase = .idle → s'.phase = .connect → Trace.calls ds ≠ []) :
    m.Meets log s' (Trace.calls ds) := by
  have hst := h.stands m.image hs.image
  cases hdeed with
  | stays hp ht =>
    rw [hp, ht] at hn
    exact absurd ha hn
  | connects hphase hp ht _ hd =>
    rw [hphase] at ha hl hst
    rw [hp, ht] at hn
    have hdefect : m.defect = .refusesConnection := by
      cases hd : m.defect <;> simp_all +decide [Defect.Ahead, Defect.phase]
    rcases hd with rfl | rfl
    · exact absurd rfl (hasks hphase hp)
    · exact meets_connect hdefect hp hl hst
  | discovers hphase _ hp ht _ hd =>
    rw [hphase] at ha hl hst
    rw [hp, ht] at hn
    have hdefect : m.defect = .lacksService := by
      cases hd : m.defect <;> simp_all +decide [Defect.Ahead, Defect.phase]
    rw [hd]
    exact meets_discover hdefect hp hl hst
  | reads hphase _ hp ht =>
    rw [hphase] at ha
    rw [hp, ht] at hn
    cases hd : m.defect <;> simp_all +decide [Defect.Ahead, Defect.phase]
  | notifies hphase hp ht =>
    rw [hp, ht] at hn
    rcases hphase with hphase | ⟨hphase, -⟩
    all_goals
      rw [hphase] at ha
      cases hd : m.defect <;> simp_all +decide [Defect.Ahead, Defect.phase]
  | prepares hphase _ hp ht _ hd =>
    rw [hphase] at ha hl hst
    rw [hp, ht] at hn
    obtain ⟨status, hdefect⟩ : ∃ status, m.defect = .rejectsPrepare status := by
      cases hd : m.defect <;> simp_all +decide [Defect.Ahead, Defect.phase]
    have hsent : s.transfer.chunksSent = 0 := by
      obtain ⟨size, -, ht⟩ := hst
      rw [ht]
      rfl
    have hr : m.defect.rejects? = some (m.mode.prepareCommand.opcode, status) := by
      rw [hdefect]
      cases m.mode <;> rfl
    rw [hd, hs.mode]
    refine meets_command hl (by decide) (by decide) (by cases m.mode <;> rfl) hr
      (by rw [hp]; cases m.mode <;> rfl) (by rw [hp]; exact m.willing.prepare hl hsent)
      (by rw [hp]; rfl) ?_
    rw [received_nil hl hst (by decide), hdefect]
    rfl
  | starts hphase _ hi hp ht _ hd =>
    obtain rfl := Option.some.inj (hi.symm.trans hs.image)
    rw [hphase] at ha hl hst
    rw [hp, ht] at hn
    obtain ⟨status, hdefect⟩ : ∃ status, m.defect = .rejectsStart status := by
      cases hd : m.defect <;> simp_all +decide [Defect.Ahead, Defect.phase]
    rw [hd]
    refine meets_command hl (by decide) (by decide) (Command.wellShaped_start _)
      (by rw [hdefect]; rfl) (by rw [hp]; rfl) (by rw [hp]; exact m.willing.start hl)
      (by rw [hp]; rfl) ?_
    rw [received_nil hl hst (by decide), hdefect]
    rfl
  | transfers hphase _ hi _ hst' hp ht _ hd =>
    obtain rfl := Option.some.inj (hi.symm.trans hs.image)
    obtain rfl := hs.size_eq (by rw [hphase]; decide) hst'
    rw [hphase, hst'] at ha hl
    rw [hp, ht] at hn
    have hdefect : m.defect = .failsDataWrite 0 := by
      cases hd : m.defect <;> simp_all +decide [Defect.Ahead, Defect.phase]
    rw [hd]
    exact meets_data hl (by decide) (by decide) hdefect rfl rfl hp ht _
  | @next _ _ count hphase _ hi _ _ hst' hp ht _ hd =>
    obtain rfl := Option.some.inj (hi.symm.trans hs.image)
    obtain rfl := hs.size_eq (by rw [hphase]; decide) hst'
    rw [hphase, hst'] at ha hl
    rw [hp, ht] at hn
    have hdefect : m.defect = .failsDataWrite (count + 1) := by
      cases hd : m.defect <;> simp_all +decide [Defect.Ahead, Defect.phase]
      omega
    rw [hd]
    exact meets_data hl (by decide) (by decide) hdefect rfl rfl hp ht _
  | verifies hphase _ hi pos lt hall hst' hp _ ht _ hd =>
    obtain rfl := Option.some.inj (hi.symm.trans hs.image)
    obtain rfl := hs.size_eq (by rw [hphase]; decide) hst'
    rw [hphase, hst'] at ha hl
    rw [hp, ht] at hn
    obtain ⟨status, hdefect⟩ : ∃ status, m.defect = .rejectsVerify status := by
      have htells := m.tells
      have htotal := m.image.succ_eq_total pos lt hall
      cases hd : m.defect <;> simp_all +decide [Defect.Ahead, Defect.phase, Defect.Shows]
      omega
    rw [hd]
    refine meets_command hl (by decide) (by decide) (Command.wellShaped_verify _)
      (by rw [hdefect]; rfl) (by rw [hp]; rfl) (by rw [hp]; exact m.willing.verify hl hall)
      (by rw [hp]; rfl) ?_
    rw [hl.received, hdefect]
    exact congrArg (m.image.bytes.take ·) hall
  | finishes _ _ hp => exact absurd hp hf
  | fails _ herr =>
    rw [hs'.error] at herr
    cases herr

section resumes

variable {rest : List Event} {turn : Turn}
  (hr : m.Resumes n b rest { setup := m.setup, log } turn)

include hr

/-- What a session would do without the fault it does with it, while the fault is ahead. -/
theorem continues_of_ahead (hlinked : turn.session.Linked)
    (ha : m.defect.Ahead turn.session.phase turn.session.transfer)
    (hspares : Trace.calls turn.effects = [] ∨
      ∃ c, Trace.calls turn.effects = [c] ∧ m.faulty.Spares log c) :
    m.course.Continues n b rest { setup := m.faulty, log } turn := by
  obtain ⟨hq, log', hx, hl⟩ := hr.abreast
  have hx' := answeredAll_of_spares hspares hx
  refine ⟨hr.whole, hr.begun, .inl ⟨hr.pursued, hlinked, ha, ?_, log', ?_, hl⟩, ?_, hr.bound⟩
  · rw [hx']
    exact hq
  · rw [hx']
  · exact Nat.le_trans (toDo_le (by rw [hx'])) hr.spent

/-- With the call in which the fault shows the session is left to hear of it. -/
theorem continues_of_meets (hlinked : turn.session.Linked)
    (hmeets : m.Meets log turn.session (Trace.calls turn.effects)) :
    m.course.Continues n b rest { setup := m.faulty, log } turn := by
  obtain ⟨hp, hbooks, c, hc, hstrikes⟩ := hmeets
  obtain ⟨hq, -⟩ := hr.abreast
  obtain ⟨log', hx, hsaw⟩ := hstrikes.answered
  have hone (setup : PeripheralSetup) :
      Link.answeredAll ({ setup, log } : Peripheral) (Trace.calls turn.effects)
        = Link.answered ({ setup, log } : Peripheral) c := by
    rw [hc]
    simp [Link.answeredAll]
  have hnone : rest = [] := by
    have halone := hstrikes.alone turn.session.wait
    rw [← hq, hone, List.length_append] at halone
    exact List.length_eq_zero_iff.mp (by omega)
  have hreplies : m.defect.replies m.faulty ≠ [] := by
    have hne := Link.answered_ne_nil ({ setup := m.faulty, log } : Peripheral) c
    rwa [hx] at hne
  refine ⟨hr.whole, hr.begun, .inr (.inl ⟨hr.pursued.toCarries, hlinked, hp, hbooks, ?_, ?_, log',
    ?_, hsaw⟩), ?_, hr.bound⟩
  · rw [hnone, hone, hx]
    exact hreplies
  · rw [hnone, hone, hx]
    exact List.suffix_rfl
  · rw [hone, hx]
  · refine Nat.le_trans (toDo_le ?_) hr.spent
    rw [hone, hone, hx]
    exact hstrikes.length_le

end resumes

/-- A session whose fault is ahead goes on, to the fault at most. -/
theorem continues_of_resumes (h : s.Sound) (hs : m.Pursued s s.phase) (hlinked : s.Linked)
    (ha : m.defect.Ahead s.phase s.transfer) (hl : log.Shows m.mode m.image s.transfer s.phase)
    {e : Event} {rest : List Event} (hrest : s.phase = .idle → rest = [])
    (hr : m.Resumes n b rest { setup := m.setup, log } (s.handle e)) :
    m.course.Continues n b rest { setup := m.faulty, log } (s.handle e) := by
  have hdeed := h.deed e
  have hs' := hr.pursued
  have hf := (h.handle e hr.whole).not_complete hs'.unfinished
  have hlinked' := Session.Linked.handle h hlinked hs.unfinished e
  have hcalls := Trace.calls_dealings (s.handle e).effects
  by_cases hahead : m.defect.Ahead (s.handle e).session.phase (s.handle e).session.transfer
  · refine continues_of_ahead hr hlinked' hahead ?_
    rw [← hcalls]
    rcases hdeed.asks hs'.error hf with hnone | ⟨c, hc, hasks⟩
    · exact .inl hnone
    · refine .inr ⟨c, hc, m.suffers.spares hasks hahead fun hp => ?_⟩
      rw [hdeed.sends hs'.error hp (by rw [hc]; nofun), ← Array.length_toList, hl.dataWrites,
        List.length_map, Image.length_chunks]
      exact Nat.lt_succ_self _
  · refine continues_of_meets hr hlinked' ?_
    rw [← hcalls]
    refine meets h hs ha hl hdeed hs' hf hahead fun hi hp hc => ?_
    -- a session that has begun to connect waits for the connection
    obtain ⟨hq, -⟩ := hr.abreast
    rw [← hcalls, hrest hi, hc, hp] at hq
    cases hq

/-- Without success there is no end before the fault shows. -/
theorem not_ends (h : s.Sound) (hs : m.Pursued s s.phase)
    (ha : m.defect.Ahead s.phase s.transfer) {e : Event} {rest : List Event} {q : Peripheral} :
    ¬ m.Ends n rest q (s.handle e) := by
  intro hends
  have hdeed := h.deed e
  have hcomplete := (h.handle e hends.whole).finished_iff.mp hends.finished
  cases hdeed with
  | stays hp => exact absurd (hp.symm.trans hcomplete) (h.not_complete hs.unfinished)
  | finishes hp => exact absurd hp ha.phase_ne_verify
  | fails _ herr =>
    rw [hends.error] at herr
    cases herr
  | connects _ hp | discovers _ _ hp | reads _ _ hp | notifies _ hp | prepares _ _ hp
  | starts _ _ _ hp | transfers _ _ _ _ _ hp | next _ _ _ _ _ _ hp
  | verifies _ _ _ _ _ _ _ hp => exact absurd (hp.symm.trans hcomplete) nofun

end Setback
end OtaUpgrade
