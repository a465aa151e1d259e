import Mathlib
import OtaUpgrade.Proofs.Link.UntilFault

/-!
What an upgrade makes of a peripheral with one fault. Once the fault has shown the session hears of
it, puts it on record and ends, or first has the peripheral give the download up. So every loop with
such a peripheral ends with the fault diagnosed, whatever the order of its moves
(`fault_diagnosed`).
-/
namespace OtaUpgrade

theorem PeripheralSetup.fromDevice_of_mem_statusReplies {setup : PeripheralSetup} {status : Status}
    {e : Event} (he : e ∈ setup.statusReplies status) :
    e.fromDevice = true := by
  unfold PeripheralSetup.statusReplies at he
  split at he
  · rcases List.mem_cons.mp he with rfl | he
    · rfl
    · rw [List.mem_singleton.mp he]
      rfl
  · rw [List.mem_singleton.mp he]
    rfl

namespace Defect

/-- Where a session goes on hearing of the fault. A download that the peripheral was prepared for is
given up by command. -/
def next : Defect → Phase
  | refusesConnection | lacksService | rejectsPrepare _ => .complete
  | rejectsStart _ | rejectsVerify _ | failsDataWrite _ => .abort

variable (defect : Defect)

theorem commands_eq (mode : Mode) (image : Image) :
    defect.commands mode image
      = (mode.script image).take defect.phase.commandsIssued
        ++ if defect.next = .abort then [.abort] else [] := by
  cases defect <;> rfl

theorem remaining_next_lt : defect.next.remaining < defect.phase.remaining := by
  cases defect <;> simp +decide [next, phase]

/-- What is given up has begun to be downloaded. -/
theorem phase_of_next :
    defect.next = .complete ∨
      defect.next = .abort ∧ .startDownload ≤ defect.phase ∧ defect.phase ≤ .verify := by
  cases defect <;> simp +decide [next, phase]

theorem fromDevice_of_mem_replies {setup : PeripheralSetup} {e : Event}
    (he : e ∈ defect.replies setup) : e.fromDevice = true := by
  cases defect with
  | rejectsPrepare | rejectsStart | rejectsVerify =>
    exact PeripheralSetup.fromDevice_of_mem_statusReplies he
  | refusesConnection | lacksService | failsDataWrite =>
    rw [List.mem_singleton.mp he]
    rfl

end Defect

namespace Setback

variable {m : Setback} {s : Session} {e : Event} {rest queue : List Event} {q : Peripheral}
  {n : Nat} {b : Bool}

/-! ## Hearing of the fault -/

/-- A rejection that was heard. -/
theorem decode_of_rejected {status : Status} (hn : status ≠ .success)
    (ha : e.answer? = some (some [status.byte])) :
    Status.decode (some [status.byte]) = status ∧ e.grants = false := by
  have hdecode : Status.decode (some [status.byte]) = status := by simp [Status.decode]
  refine ⟨hdecode, Bool.eq_false_iff.mpr fun hg => hn ?_⟩
  rw [← hdecode]
  exact (Event.grants_iff ha).mp hg

/-- The event fails the upgrade with the cause that the fault calls for. -/
def Fails (m : Setback) (s : Session) (e : Event) : Prop :=
  ∃ s', Session.Failure s e s' (m.defect.cause m.image m.size) m.defect.next ∧
    (m.defect.next = .abort → s'.connected = s.connected)

/-- The last of what comes of the fault fails the upgrade; what comes before only says that the
rejected command was written. -/
theorem Struck.heard (hs : m.Struck s (e :: rest) q) :
    rest = [] ∧ m.Fails s e ∨
      (Session.commandOf? s.phase).isSome = true ∧ e = .written .controlPoint (.ok none) ∧
        rest ≠ [] := by
  have hp := hs.phase
  have hq := hs.queue
  have htells := m.tells
  have rejected {status : Status} (hn : status ≠ .success)
      (hc : (Session.commandOf? s.phase).isSome = true)
      (hq : e :: rest <:+ m.faulty.statusReplies status)
      (hfails : ∀ {answer}, e.answer? = some answer → e.grants = false →
        Status.decode answer = status → m.Fails s e) :
      rest = [] ∧ m.Fails s e ∨
        (Session.commandOf? s.phase).isSome = true ∧ e = .written .controlPoint (.ok none) ∧
          rest ≠ [] := by
    rcases PeripheralSetup.cons_suffix_statusReplies hq with ⟨hnone, ha⟩ | ⟨he, hmore⟩
    · obtain ⟨hdecode, hg⟩ := decode_of_rejected hn ha
      exact .inl ⟨hnone, hfails ha hg hdecode⟩
    · exact .inr ⟨hc, he, hmore⟩
  unfold Fails at rejected ⊢
  cases hd : m.defect with
  | refusesConnection =>
    rw [hd] at hp hq
    obtain ⟨rfl, hnone⟩ := PeripheralSetup.cons_suffix_singleton hq
    exact .inl ⟨hnone, _, .unconnected hp, nofun⟩
  | lacksService =>
    rw [hd] at hp hq
    obtain ⟨rfl, hnone⟩ := PeripheralSetup.cons_suffix_singleton hq
    exact .inl ⟨hnone, _, .unsupported hp (.inl rfl), nofun⟩
  | rejectsPrepare status =>
    rw [hd] at hp hq htells rejected
    refine rejected htells (by rw [hp]; rfl) hq fun ha hg hdecode => ?_
    subst hdecode
    exact ⟨_, .unprepared hp ha hg, nofun⟩
  | rejectsStart status =>
    rw [hd] at hp hq htells rejected
    refine rejected htells (by rw [hp]; rfl) hq fun ha hg hdecode => ?_
    subst hdecode
    exact ⟨_, .unstarted hp ha hg, fun _ => rfl⟩
  | rejectsVerify status =>
    rw [hd] at hp hq htells rejected
    refine rejected htells (by rw [hp]; rfl) hq fun ha hg hdecode => ?_
    subst hdecode
    exact ⟨_, .unverified hp ha hg, fun _ => rfl⟩
  | failsDataWrite index =>
    have hbooks := hs.books index hd
    rw [hd] at hp hq htells
    have hcause : (Defect.failsDataWrite index).cause m.image m.size
        = .transferFailed s.transfer.imageSize s.transfer.offset
            (LinkError.writeFailed s!"chunk {index} rejected").message := by
      have hoffset : m.image.covered m.size index = index * m.size :=
        Image.covered_of_lt (lt_of_failsDataWrite hd)
      rw [hbooks, Transfer.imageSize_after, Transfer.offset_after, hoffset]
      rfl
    obtain ⟨rfl, hnone⟩ := PeripheralSetup.cons_suffix_singleton hq
    rw [hcause]
    exact .inl ⟨hnone, _, .chunk hp, fun _ => rfl⟩

/-- The fault is put on record. What the peripheral was prepared for is given up, and the upgrade is
over otherwise. -/
theorem Struck.failed (h : s.Sound) (hs : m.Struck s queue q) (hfails : m.Fails s e) :
    m.course.Proceeds s.movesLeft true [] q (s.handle e) := by
  obtain ⟨s', hfail, hconnected⟩ := hfails
  obtain ⟨log, rfl, hsaw⟩ := hs.peripheral
  have hkept := hfail.kept
  have hcommands := m.defect.commands_eq m.mode m.image
  have hmoves : (s'.recordError (m.defect.cause m.image m.size)).movesFrom m.defect.next
      < s.movesLeft := by
    refine Session.movesFrom_lt ?_ (by simp [hkept.transfer]) (by simp [hkept.transfer])
    rw [hs.phase]
    exact m.defect.remaining_next_lt
  have hfinished : (s'.recordError (m.defect.cause m.image m.size)).finished = false := by
    simp [hkept.finished, hs.unfinished]
  have hdevice : (s'.recordError (m.defect.cause m.image m.size)).device = some m.device := by
    simp [hkept.device, hs.device]
  have herror : (s'.recordError (m.defect.cause m.image m.size)).error
      = some ⟨m.defect.phase, m.defect.cause m.image m.size⟩ := by
    simp [Session.recordError_eq, hkept.error, hs.error, hkept.phase, hs.phase]
  have hlink : (s'.recordError (m.defect.cause m.image m.size)).connected = s'.connected := by
    simp
  rw [hfail.handle h hs.unfinished]
  generalize s'.recordError (m.defect.cause m.image m.size) = r at *
  rcases m.defect.phase_of_next with hnext | ⟨hnext, hlo, hhi⟩
  · rw [hnext] at hmoves hcommands ⊢
    refine .closes (Scenario.closes_of_complete hfinished hdevice m.sturdy rfl ?_
      (Nat.le_of_lt hmoves))
    refine ⟨herror, ?_, hsaw.received⟩
    rw [hcommands, hsaw.commands]
    exact (List.append_nil _).symm
  · have hlate : .serviceDiscover ≤ m.defect.phase := Nat.le_trans (by decide) hlo
    have hprepared : .prepareForDownload ≤ m.defect.phase := Nat.le_trans (by decide) hlo
    have hup : r.connected = true := by
      rw [hlink, hconnected hnext]
      exact hs.linked hs.error (hs.phase ▸ hlate) (hs.phase ▸ hhi)
    have hserved : m.defect ≠ .lacksService := by
      intro hd
      rw [hd] at hnext
      cases hnext
    have habandoned := m.suffers.abandoned hserved (hsaw.connected hlate)
      (hsaw.notifying hprepared)
    have hspent : (r.commanding .abort).movesLeft + 5 ≤ s.movesLeft := by
      have harrived : (r.commanding .abort).movesLeft + 5 ≤ r.movesFrom .abort :=
        Session.movesLeft_arrived rfl rfl rfl
      rw [hnext] at hmoves
      omega
    rw [hnext, Session.proceed, Session.enter_abort hdevice hup, Session.settle_after,
      Session.settle_ask]
    refine .continues ((Scenario.continues_ask m.sturdy (by rintro ⟨⟩) habandoned
      (m.faulty.length_statusReplies _) ?_ hspent).after rfl rfl rfl)
    refine .inr (.inr ⟨hdevice, hfinished, rfl, ?_, List.suffix_rfl, _, rfl, herror, ?_,
      hsaw.received⟩)
    · unfold PeripheralSetup.statusReplies
      split <;> exact List.cons_ne_nil _ _
    · rw [hcommands, hnext, if_pos rfl, ← hsaw.commands]
      simp

/-- A command that was written is waited for. -/
theorem waits_of_written (h : s.Sound) (hf : s.finished = false)
    (hc : (Session.commandOf? s.phase).isSome = true)
    (hw : m.course.Way { s with wait := .response } rest q) :
    m.course.Continues s.movesLeft true rest q (s.handle (.written .controlPoint (.ok none))) := by
  have hmesh : s.wait ≠ .meshMetadata := by
    intro hw
    rw [h.phase_of_meshMetadata hw] at hc
    cases hc
  have hi : s.phase ≠ .idle := by
    intro hi
    rw [hi] at hc
    cases hc
  have hwait : Wait.response ≠ .meshMetadata := by decide
  have hle : ({ s with wait := .response } : Session).movesLeft ≤ s.movesLeft := by
    rw [Session.movesLeft, Session.movesLeft, if_neg hmesh, if_neg hwait]
  rw [h.handle_written hf hc]
  exact Scenario.continues_stay hi hw hle

theorem Struck.replied (h : s.Sound) (hs : m.Struck s (e :: rest) q) :
    m.course.Proceeds s.movesLeft true rest q (s.handle e) := by
  rcases hs.heard with ⟨rfl, hfails⟩ | ⟨hc, rfl, hmore⟩
  · exact hs.failed h hfails
  · have hlinked : ({ s with wait := .response } : Session).Linked := hs.linked
    have hrest : rest <:+ m.defect.replies m.faulty :=
      (List.suffix_cons _ _).trans hs.queue
    refine .continues (waits_of_written h hs.unfinished hc (.inr (.inl ?_)))
    exact ⟨⟨hs.config, hs.mode, hs.image, hs.device, hs.unfinished, hs.error⟩, hlinked, hs.phase,
      hs.books, hmore, hrest, hs.peripheral⟩

/-! ## Giving up -/

theorem Yields.replied (h : s.Sound) (hs : m.Yields s (e :: rest) q) :
    m.course.Proceeds s.movesLeft true rest q (s.handle e) := by
  obtain ⟨log, rfl, hdiagnosed⟩ := hs.peripheral
  rcases PeripheralSetup.cons_suffix_statusReplies hs.queue with ⟨rfl, ha⟩ | ⟨rfl, hmore⟩
  · -- with the answer the upgrade is over
    have hadvance : Session.Advance s e _ _ _ := .gaveUp hs.phase (.inl (by rw [ha]; rfl))
    have hmoves := hadvance.movesFrom_lt h
    rw [hadvance.handle h hs.unfinished, Turn.after_nil]
    refine .closes (Scenario.closes_of_complete ?_ ?_ m.sturdy rfl ?_ (Nat.le_of_lt hmoves))
    · simpa [Session.cancelTimer] using hs.unfinished
    · simpa [Session.cancelTimer] using hs.device
    · refine ⟨?_, hdiagnosed.commands, hdiagnosed.received⟩
      simpa [Session.cancelTimer] using hdiagnosed.error
  · have hrest : rest <:+ m.faulty.statusReplies .success :=
      (List.suffix_cons _ _).trans hs.queue
    refine .continues (waits_of_written h hs.unfinished (by rw [hs.phase]; rfl) (.inr (.inr ?_)))
    exact ⟨hs.device, hs.unfinished, hs.phase, hmore, hrest, log, rfl, hdiagnosed.error,
      hdiagnosed.commands, hdiagnosed.received⟩

/-! ## What the device does not tell -/

/-- Past the application info neither another request to begin nor a late answer of the mesh core
changes more than the guard. -/
theorem handle_told (h : s.Sound) (hf : s.finished = false) (hi : s.phase ≠ .idle)
    (hr : s.phase ≠ .readAppInfo) (he : e = .start ∨ ∃ known, e = .meshMetadata known) :
    ∃ guard, s.handle e = ({ s with guard } : Session).stay := by
  rcases he with rfl | ⟨known, rfl⟩
  · exact ⟨s.guard, Session.handle_start_again hf hi⟩
  · refine ⟨s.guard.finish .componentMetadata, Session.handle_meshMetadata_late hf known ?_⟩
    exact fun hw => hr (h.phase_of_meshMetadata hw)

theorem Struck.withGuard (hs : m.Struck s queue q) (guard : Guard) :
    m.Struck { s with guard } queue q :=
  ⟨⟨hs.config, hs.mode, hs.image, hs.device, hs.unfinished, hs.error⟩, hs.linked, hs.phase,
    hs.books, hs.waiting, hs.queue, hs.peripheral⟩

theorem Yields.withGuard (hs : m.Yields s queue q) (guard : Guard) :
    m.Yields { s with guard } queue q := by
  obtain ⟨log, hq, hdiagnosed⟩ := hs.peripheral
  exact ⟨hs.device, hs.unfinished, hs.phase, hs.waiting, hs.queue, log, hq, hdiagnosed.error,
    hdiagnosed.commands, hdiagnosed.received⟩

theorem Struck.phase_ne (hs : m.Struck s queue q) :
    s.phase ≠ .idle ∧ s.phase ≠ .readAppInfo := by
  rw [hs.phase]
  cases m.defect <;> exact ⟨nofun, nofun⟩

/-- Before the fault shows the session is abreast of the healed peripheral. -/
theorem Nears.abreast (hs : m.Nears s queue q) :
    ∃ log, q = { setup := m.faulty, log } ∧ log.Shows m.mode m.image s.transfer s.phase ∧
      m.Abreast s queue { setup := m.setup, log } := by
  obtain ⟨log, hq, hl⟩ := hs.peripheral
  exact ⟨log, hq, hl, hs.queue, log, rfl, hl⟩

theorem Nears.replied (h : s.Sound) (ht : s.Timed) (hs : m.Nears s (e :: rest) q) :
    m.course.Proceeds s.movesLeft true rest q (s.handle e) := by
  obtain ⟨log, rfl, hl, habreast⟩ := hs.abreast
  have hidle : s.phase = .idle → rest = [] := by
    intro hi
    have hnone := hs.queue.trans (Undertaking.replies_of_idle h hi)
    cases hnone
  cases hs.pursued.replied h ht habreast with
  | resumes hm hr =>
    exact .continues (continues_of_resumes h hs.pursued hs.linked hs.ahead hl hidle (hr.mono hm))
  | ends he => exact absurd he (not_ends h hs.pursued hs.ahead)

theorem Nears.told (h : s.Sound) (ht : s.Timed) (hs : m.Nears s queue q)
    (he : e = .start ∨ s.phase ≠ .idle ∧ ∃ known, e = .meshMetadata known)
    (hb : s.phase ≠ .idle → b = true) :
    m.course.Continues s.movesLeft b queue q (s.handle e) := by
  obtain ⟨log, rfl, hl, habreast⟩ := hs.abreast
  exact continues_of_resumes h hs.pursued hs.linked hs.ahead hl
    (fun hi => hs.queue.trans (Undertaking.replies_of_idle h hi))
    (hs.pursued.told h ht he habreast hb)

theorem Nears.expired (h : s.Sound) (ht : s.Timed) (hs : m.Nears s [] q) {x : Timeout}
    (hx : s.timer.armed = some x) :
    m.course.Continues (s.movesLeft - 1) true [] q (s.handle (.timeout x.id)) := by
  obtain ⟨log, rfl, hl, habreast⟩ := hs.abreast
  exact continues_of_resumes h hs.pursued hs.linked hs.ahead hl (fun _ => rfl)
    (hs.pursued.expired h ht hx habreast)

/-- A session stays on its way when it is told something else. -/
theorem told_of_stays (h : s.Sound) (hf : s.finished = false) (hi : s.phase ≠ .idle)
    (hr : s.phase ≠ .readAppInfo)
    (he : e = .start ∨ s.phase ≠ .idle ∧ ∃ known, e = .meshMetadata known)
    (hb : s.phase ≠ .idle → b = true)
    (hw : ∀ guard, m.course.Way { s with guard } queue q) :
    m.course.Continues s.movesLeft b queue q (s.handle e) := by
  obtain rfl : b = true := hb hi
  obtain ⟨guard, hguard⟩ := handle_told h hf hi hr (he.imp_right And.right)
  rw [hguard]
  exact Scenario.continues_stay hi (hw guard) (Nat.le_refl _)

/-- Every turn of a session brings it nearer to the fault or to its diagnosis. -/
theorem sustained (m : Setback) : m.course.Sustained where
  unfinished hw := by
    rcases hw with hs | hs | hs
    · exact hs.pursued.unfinished
    · exact hs.unfinished
    · exact hs.unfinished
  fromDevice hw e he := by
    rcases hw with hs | hs | hs
    · exact PeripheralSetup.fromDevice_of_mem_replies (hs.queue ▸ he)
    · exact m.defect.fromDevice_of_mem_replies (hs.queue.subset he)
    · exact PeripheralSetup.fromDevice_of_mem_statusReplies (hs.queue.subset he)
  unbegun h hw hp := by
    rcases hw with hs | hs | hs
    · exact hs.queue.trans (Undertaking.replies_of_idle h hp)
    · exact absurd hp hs.phase_ne.1
    · exact absurd (hs.phase.symm.trans hp) nofun
  replied h ht hw := by
    rcases hw with hs | hs | hs
    · exact hs.replied h ht
    · exact hs.replied h
    · exact hs.replied h
  told h ht he hw hb := by
    rcases hw with hs | hs | hs
    · exact hs.told h ht he hb
    · exact told_of_stays h hs.unfinished hs.phase_ne.1 hs.phase_ne.2 he hb fun guard =>
        .inr (.inl (hs.withGuard guard))
    · exact told_of_stays h hs.unfinished (by rw [hs.phase]; nofun) (by rw [hs.phase]; nofun) he hb
        fun guard => .inr (.inr (hs.withGuard guard))
  expired h ht hx hw := by
    rcases hw with hs | hs | hs
    · exact hs.expired h ht hx
    · exact absurd rfl hs.waiting
    · exact absurd rfl hs.waiting
  parted ho _ _ _ := ⟨ho.error, ho.commands, ho.received⟩

/-- A session that is about to begin is on its way to the fault. -/
theorem fresh (m : Setback) {collaborators : Collaborators} {guard : Guard}
    (hg : guard.connection = false) :
    m.course.Way (.fresh m.config m.mode (some m.image) (some m.device) collaborators guard) []
      { setup := m.faulty } := by
  exact .inl ⟨⟨⟨rfl, rfl, rfl, rfl, rfl, rfl⟩, fun _ => hg, by rintro ⟨⟩, by rintro ⟨⟩⟩,
    .fresh _ _ _ _ _ _, m.defect.ahead_idle rfl, rfl, {}, rfl, .fresh rfl⟩

end Setback

namespace ClosedLoop

/-- An upgrade of a peripheral with one fault ends with the fault diagnosed, be the peripheral
reached directly or through a tunnel. -/
theorem fault_diagnosed (config : Config) (mode : Mode) (image : Image)
    (collaborators : Collaborators) (guard : Guard) (setup : PeripheralSetup) (name : String)
    {defect : Defect} (hs : setup.Suffers defect) (hg : guard.connection = false) {size : Nat}
    (pos : 0 < size) (ht : defect.Shows image size) :
    (config.chunkSizeFor? setup.mtu 0 = some size →
      (starting config mode (some image) collaborators guard
        (Peripheral.directly { setup } name)).ComesTo Peripheral.log
          (defect.Diagnosed mode image size)) ∧
      ∀ address key, config.chunkSizeFor? setup.mtu TunnelEnd.overhead = some size →
        (starting config mode (some image) collaborators guard
          (Peripheral.tunnelled { setup } name address key)).ComesTo
            (fun link => link.inner.log) (defect.Diagnosed mode image size) := by
  refine starting_comesTo (defect.Diagnosed mode image size) ?_ name
  intro device hsized hsturdy
  let m : Setback :=
    { config, mode, image, device, size, pos, defect
      setup := setup.healed
      variant := setup.variant.getD .current
      sized := hsized
      sturdy := hsturdy
      willing := setup.willing_healed
      faulty := setup
      healed := rfl
      suffers := hs
      tells := ht }
  exact ⟨m.course, m.sustained, rfl, m.fresh hg⟩

/-- Three bytes in two chunks, of which the second is not taken. -/
theorem fault_diagnosed_second_chunk :
    let config : Config := { chunkSize := some 2 }
    let image : Image := ⟨#[1, 2, 3], by decide, by decide⟩
    let setup : PeripheralSetup := { variant := some .legacy, failsDataWrite := some 1 }
    let key : SecretKey := ⟨.replicate 32 0, rfl⟩
    let defect : Defect := .failsDataWrite 1
    (setup.Suffers defect ∧ defect.Shows image 2 ∧ config.chunkSizeFor? setup.mtu 0 = some 2 ∧
        config.chunkSizeFor? setup.mtu TunnelEnd.overhead = some 2) ∧
      (starting config .direct (some image) { meshCore := true } {}
        (Peripheral.directly { setup } "node")).ComesTo Peripheral.log
          (defect.Diagnosed .direct image 2) ∧
      (starting config .direct (some image) { meshCore := true } {}
        (Peripheral.tunnelled { setup } "node" 5 key)).ComesTo (fun link => link.inner.log)
          (defect.Diagnosed .direct image 2) := by
  intro config image setup key defect
  have hs : setup.Suffers defect := ⟨by decide, rfl, rfl, by decide⟩
  have ht : defect.Shows image 2 := (by decide : 1 < (3 + 2 - 1) / 2)
  have hdirect : config.chunkSizeFor? setup.mtu 0 = some 2 := by decide
  have hmesh : config.chunkSizeFor? setup.mtu TunnelEnd.overhead = some 2 := by decide
  obtain ⟨hcomes, hcomes'⟩ := fault_diagnosed config .direct image { meshCore := true } {} setup
    "node" hs rfl (by decide : 0 < 2) ht
  exact ⟨⟨hs, ht, hdirect, hmesh⟩, hcomes hdirect, hcomes' 5 key hmesh⟩

end ClosedLoop
end OtaUpgrade
