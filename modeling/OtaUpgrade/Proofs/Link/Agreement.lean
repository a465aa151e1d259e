import Mathlib
import OtaUpgrade.Proofs.Link.Replies
import OtaUpgrade.Proofs.Session.DeviceView

/-!
A session without error agrees with its peripheral. Events carry no numbers, so a late answer could
be taken for another one; it is not, because an event that takes the upgrade on is always the last
one to come (`Leads`), and what the peripheral has then is what the phase makes of it (`Keeps`). The
session asks for something only on such an event or before the first command, and `Deed.agrees`
shows that the answers to that restore the agreement in the next phase.
-/
namespace OtaUpgrade

/-- In this phase the event takes the upgrade on. -/
def Phase.takenOnBy : Phase → Event → Bool
  | .connect, .connection true _ => true
  | .serviceDiscover, .service (some _) none => true
  | .enableNotification, .notifications true none => true
  | .prepareForDownload, e | .startDownload, e => e.grants
  | .dataTransfer, e => e.acknowledges
  | .verify, .connection false _ => true
  | .verify, e => e.grants
  | _, _ => false

/-- The event tells what was read of the app info. -/
def Event.ofAppInfo : Event → Bool
  | .value .appInfo _ _ => true
  | _ => false

theorem Phase.takenOnBy_of_appInfo (p : Phase) {e : Event} (h : e.ofAppInfo = true) :
    p.takenOnBy e = false := by
  cases e with
  | value channel value error =>
    cases channel with
    | appInfo => cases p <;> rfl
    | controlPoint | data => cases h
  | _ => cases h

/-- If the queue brings an event that takes the upgrade on, that is the last one, and then a fact
holds. -/
def Leads (p : Phase) (fact : Prop) : List Event → Prop
  | [] => True
  | e :: rest => (p.takenOnBy e = true → rest = [] ∧ fact) ∧ Leads p fact rest

namespace Leads

variable {p : Phase} {fact : Prop}

theorem single {e : Event} (h : p.takenOnBy e = true → fact) : Leads p fact [e] :=
  ⟨fun ht => ⟨rfl, h ht⟩, trivial⟩

theorem pair {e e' : Event} (hn : p.takenOnBy e = false) (h : p.takenOnBy e' = true → fact) :
    Leads p fact [e, e'] :=
  ⟨fun ht => absurd (hn.symm.trans ht) nofun, single h⟩

/-- Events that are not waited for may stand in front. -/
theorem append {es fs : List Event} (hn : ∀ e ∈ es, p.takenOnBy e = false)
    (h : Leads p fact fs) : Leads p fact (es ++ fs) := by
  induction es with
  | nil => exact h
  | cons e es ih =>
    refine ⟨fun ht => ?_, ih fun e he => hn e (List.mem_cons_of_mem _ he)⟩
    rw [hn e List.mem_cons_self] at ht
    cases ht

/-- Events may get lost. -/
theorem sublist {es fs : List Event} (h : Leads p fact es) (hs : fs.Sublist es) :
    Leads p fact fs := by
  induction hs with
  | slnil => trivial
  | cons e hs ih => exact ih h.2
  | @cons_cons fs es e hs ih =>
    refine ⟨fun ht => ?_, ih h.2⟩
    obtain ⟨rfl, hfact⟩ := h.1 ht
    exact ⟨List.sublist_nil.mp hs, hfact⟩

end Leads

/-- The peripheral has verified the whole image. -/
structure Delivered (image : Image) (log : PeripheralLog) : Prop where
  received : log.received.toList = image.bytes
  announced : log.announcedSize = some (UInt32.ofNat image.size)
  verified : log.verifiedCrc = some image.crc

namespace Peripheral

/-- There is no download yet. -/
structure Clean (p : Peripheral) : Prop where
  received : p.log.received = #[]
  announced : p.log.announcedSize = none

/-- What the peripheral has of the download when the upgrade goes on from a phase. -/
def Keeps (image : Image) (t : Transfer) (p : Peripheral) : Phase → Prop
  | .startDownload =>
    p.log.received = #[] ∧
      ∀ size, p.log.announcedSize = some size → size = UInt32.ofNat image.size
  | .dataTransfer =>
    p.log.received.toList = image.bytes.take (image.covered t.chunkSize t.chunksSent) ∧
      p.log.announcedSize = some (UInt32.ofNat image.size)
  | .verify => Delivered image p.log
  | _ => p.Clean

theorem SameDownload.clean {p p' : Peripheral} (h : SameDownload p p') (hp : p.Clean) : p'.Clean :=
  ⟨h.received.trans hp.received, h.announced.trans hp.announced⟩

/-- A peripheral of this setup with no notice that has not been told. -/
structure Quiet (setup : PeripheralSetup) (p : Peripheral) : Prop where
  setup : p.setup = setup
  notices : p.notices = []

end Peripheral

/-- A call was answered so that the session may go on with the answer alone. -/
structure Follows (setup : PeripheralSetup) (p : Phase) (fact : Peripheral → Prop)
    (r : List Event × Peripheral) : Prop where
  leads : Leads p (fact r.2) r.1
  quiet : r.2.Quiet setup

namespace Peripheral

variable {setup : PeripheralSetup} {p : Peripheral} {fact : Peripheral → Prop}

/-! ## Answers -/

theorem Quiet.link (hq : p.Quiet setup) {c : DeviceCall}
    (hc : ∀ channel data, c ≠ .write channel data) (phase : Phase)
    (hfact : ∀ p', SameDownload p p' → fact p') :
    Follows setup phase fact (Link.answered p c) := by
  obtain ⟨⟨e, he⟩, hsame, hn⟩ := answered_link hq.notices hc
  refine ⟨?_, hsame.setup.trans hq.setup, hn⟩
  rw [he]
  exact .single fun _ => hfact _ hsame

theorem setup_obey (p : Peripheral) (c : Command) : (p.obey c).2.setup = p.setup := by
  unfold obey
  split <;> try rfl
  unfold verify
  split
  · dsimp only
    split <;> rfl
  · rfl

/-- A command is followed by what its status says. Only a verification may go unanswered. -/
theorem Quiet.command (hq : p.Quiet setup) {c : Command} (hw : c.WellShaped) {phase : Phase}
    (hwritten : ∀ result, phase.takenOnBy (.written .controlPoint result)
      = (Event.written .controlPoint result).grants)
    (hvalue : ∀ bytes, phase.takenOnBy (.value .controlPoint bytes none)
      = (Event.value .controlPoint bytes none).grants)
    (hrejected : setup.rejects = some (c.opcode, Status.success) → fact (p.heard c))
    (hobeyed : ∀ p', (p.heard c).obey c = (some Status.success, p') → fact p')
    (hsilent : ∀ p', (p.heard c).obey c = (none, p') →
      Leads phase (fact { p' with notices := [] }) (p'.notices.map Carriage.plain.noticed)) :
    Follows setup phase fact (Link.answered p (.command c)) := by
  -- success is the status set up to reject with, or the command was obeyed
  have granted {status : Status} {p' : Peripheral} (hx : p.execute c.encode = (some status, p'))
      (hb : status.byte = 0) : fact p' := by
    have hs : status = .success := by cases status <;> first | rfl | exact absurd hb (by decide)
    subst hs
    rcases execute_encode hw p with ⟨status, hr, hx'⟩ | ⟨-, hx'⟩
    · rw [hx'] at hx
      cases hx
      exact hrejected (hq.setup ▸ hr)
    · exact hobeyed p' (hx'.symm.trans hx)
  have executed {answer : Option Status} {p' : Peripheral}
      (hx : p.execute c.encode = (answer, p')) : p'.setup = setup := by
    rcases execute_encode hw p with ⟨status, -, hx'⟩ | ⟨-, hx'⟩
    · rw [hx'] at hx
      cases hx
      exact hq.setup
    · have hp := setup_obey (p.heard c) c
      rw [← hx', hx] at hp
      exact hp.trans hq.setup
  have hn : phase.takenOnBy (.written .controlPoint (.ok none)) = false := hwritten _
  have byte {status : Status} (hg : (some [status.byte] : Option Bytes) = some [0]) :
      status.byte = 0 := by simpa using hg
  have hcom := commanded hq.notices c.encode
  show Follows setup phase fact (Link.answered p (.write .controlPoint c.encode))
  generalize Link.answered p (.write .controlPoint c.encode) = r at hcom
  -- the completion says so itself, or an indication behind it; alone it says nothing
  cases hcom with
  | refused error =>
    refine ⟨.single fun ht => ?_, hq⟩
    rw [hwritten] at ht
    cases ht
  | @silent p' hx =>
    have hsetup : p'.setup = setup := executed hx
    refine ⟨⟨fun ht => absurd (hn.symm.trans ht) nofun, hsilent p' ?_⟩, hsetup, rfl⟩
    rcases execute_encode hw p with ⟨status, -, hx'⟩ | ⟨-, hx'⟩
    · rw [hx'] at hx
      cases hx
    · exact hx'.symm.trans hx
  | inline hx =>
    refine ⟨.single fun ht => granted hx (byte ?_), executed hx,
      (notices_execute hx).trans hq.notices⟩
    rw [hwritten] at ht
    simpa [Event.grants, Event.answer?] using ht
  | indicated hx =>
    refine ⟨.pair hn fun ht => granted hx (byte ?_), executed hx,
      (notices_execute hx).trans hq.notices⟩
    rw [hvalue] at ht
    simpa [Event.grants, Event.answer?] using ht
  | lost hx =>
    exact ⟨.single fun ht => absurd (hn.symm.trans ht) nofun, executed hx,
      (notices_execute hx).trans hq.notices⟩

/-- Preparing a download leaves nothing of one. -/
theorem Quiet.prepare (hq : p.Quiet setup) (hc : p.Clean) (mode : Mode) :
    Follows setup .prepareForDownload Clean (Link.answered p (.command mode.prepareCommand)) := by
  have hw : mode.prepareCommand.WellShaped := by cases mode <;> rfl
  have ho : mode.prepareCommand.opcode = .prepareDownload := by cases mode <;> rfl
  have hx : (p.heard mode.prepareCommand).obey mode.prepareCommand
      = (some .success,
          (p.heard mode.prepareCommand).withLog (p.heard mode.prepareCommand).log.prepared) := by
    simp [obey, ho]
  refine hq.command hw (fun _ => rfl) (fun _ => rfl) (fun _ => ⟨hc.received, hc.announced⟩) ?_ ?_
  · intro p' hp
    rw [hx] at hp
    cases hp
    exact ⟨rfl, rfl⟩
  · intro p' hp
    rw [hx] at hp
    cases hp

/-- Starting a download announces the size of the image, if anything. -/
theorem Quiet.start (hq : p.Quiet setup) (hc : p.Clean) (image : Image) (t : Transfer) :
    Follows setup .startDownload (Keeps image t · .startDownload)
      (Link.answered p (.command (.start (UInt32.ofNat image.size)))) := by
  refine hq.command (Command.wellShaped_start _) (fun _ => rfl) (fun _ => rfl)
    (fun _ => ⟨hc.received, ?_⟩) ?_ ?_
  · intro size hs
    exact absurd (hc.announced.symm.trans hs) nofun
  · intro p' hp
    cases hp
    exact ⟨hc.received, fun size hs => (Option.some.inj hs).symm⟩
  · intro p' hp
    cases hp

/-- A chunk is appended, unless it is refused. -/
theorem Quiet.data (hq : p.Quiet setup) {image : Image} {size count : Nat} {t : Transfer}
    (hr : p.log.received.toList = image.bytes.take (image.covered size count))
    (ha : ∀ size, p.log.announcedSize = some size → size = UInt32.ofNat image.size)
    (hsize : t.chunkSize = size) (hsent : t.chunksSent = count + 1) :
    Follows setup .dataTransfer (Keeps image t · .dataTransfer)
      (Link.answered p (.write .data (image.chunk size count))) := by
  rcases answered_data hq.notices (image.chunk size count) with
    ⟨error, hx⟩ | ⟨p', hx, hset, hn, hrec, hann, hsome⟩
  · rw [hx]
    exact ⟨.single nofun, hq⟩
  · rw [hx]
    refine ⟨.single fun _ => ⟨?_, ?_⟩, hset.trans hq.setup, hn⟩
    · show p'.log.received.toList = _
      rw [hrec, hsize, hsent, Image.take_covered_succ, ← hr, Array.toList_appendList]
    · obtain ⟨size, hs⟩ := Option.isSome_iff_exists.mp hsome
      show p'.log.announcedSize = _
      rw [hann, hs, ha size hs]

/-- A verification that succeeds, or that is followed by a reboot, is one of the whole image. -/
theorem Quiet.verify (hq : p.Quiet setup) (hreject : setup.rejects ≠ some (.verify, .success))
    {image : Image} (t : Transfer) (hr : p.log.received.toList = image.bytes)
    (ha : p.log.announcedSize = some (UInt32.ofNat image.size)) :
    Follows setup .verify (Keeps image t · .verify)
      (Link.answered p (.command (.verify image.crc))) := by
  have hx : (p.heard (.verify image.crc)).obey (.verify image.crc)
      = (p.heard (.verify image.crc)).verify image.crc := rfl
  refine hq.command (Command.wellShaped_verify _) (fun _ => rfl) (fun _ => rfl)
    (fun h => absurd h hreject) ?_ ?_
  · intro p' hp
    rw [hx, Peripheral.verify] at hp
    split at hp
    · dsimp only at hp
      split at hp
      · cases hp
      · cases hp
        exact ⟨hr, ha, rfl⟩
    · next hne =>
      simp only [Prod.mk.injEq, Option.some.injEq] at hp
      exact absurd hp.1 hne
  · intro p' hp
    rw [hx, Peripheral.verify] at hp
    split at hp
    · dsimp only at hp
      split at hp
      · cases hp
        -- the reboot is told by the one notice there is
        show Leads _ _ ((p.notices ++ [Notice.disconnected]).map _)
        rw [hq.notices]
        exact .single fun _ => ⟨hr, ha, rfl⟩
      · cases hp
    · cases hp

end Peripheral

end OtaUpgrade
