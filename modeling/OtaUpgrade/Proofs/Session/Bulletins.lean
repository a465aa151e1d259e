import Mathlib
import OtaUpgrade.Proofs.Session.Bounds
import OtaUpgrade.Proofs.Session.Sizing

/-!
What observers are told. Each phase but the last is announced on being entered, a direct upgrade
tells of every acknowledged chunk besides, and the end is told by itself; `bulletinsOver` writes the
progress reports of a life down that way. Along them an upgrade only ever goes on: `Progress.Leads`
holds between any two, since it holds from the session before an event to all that the event tells,
and from there to the session after it (`Passage.telling`).
-/
namespace OtaUpgrade

/-- The progress that is told, on the way or at the end. -/
def Report.told? : Report → Option Progress
  | .progress p | .complete p => some p
  | .log _ _ => none

/-- An upgrade that stands as in the one can come to stand as in the other: it goes back neither in
phase nor in bytes, and keeps the error that it has. -/
structure Progress.Leads (a b : Progress) : Prop where
  phase : a.phase ≤ b.phase
  imageSize : b.imageSize = a.imageSize
  transferred : a.transferred ≤ b.transferred
  error : ∀ x, a.error = some x → b.error = some x

/-- Everything told between two standings of an upgrade lies between them, in order. -/
structure Telling (a b : Progress) (told : List Progress) : Prop where
  leads : a.Leads b
  since : ∀ p ∈ told, a.Leads p
  till : ∀ p ∈ told, p.Leads b
  ordered : told.Pairwise Progress.Leads

namespace Trace

/-- Every progress that observers were told, the last included. -/
def told (es : List Effect) : List Progress := (reports es).filterMap Report.told?

@[simp] theorem told_append (as bs : List Effect) : told (as ++ bs) = told as ++ told bs := by
  simp [told]

@[simp] theorem progress_append (as bs : List Effect) :
    progress (as ++ bs) = progress as ++ progress bs := by
  simp [progress]

theorem told_eq_progress {es : List Effect} (h : completions es = []) : told es = progress es := by
  refine List.filterMap_congr fun r hr => ?_
  have hn := List.filterMap_eq_nil_iff.mp h r hr
  cases r with
  | complete => cases hn
  | progress | log => rfl

theorem mem_told {es : List Effect} {p : Progress} (h : p ∈ told es) :
    .report (.progress p) ∈ es ∨ .report (.complete p) ∈ es := by
  obtain ⟨r, hr, hp⟩ := List.mem_filterMap.mp h
  obtain ⟨x, hx, hr⟩ := List.mem_filterMap.mp hr
  cases x with
  | report r' =>
    obtain rfl := Option.some.inj hr
    cases r' with
    | progress q => exact .inl (Option.some.inj hp ▸ hx)
    | complete q => exact .inr (Option.some.inj hp ▸ hx)
    | log => cases hp
  | _ => cases hr

end Trace

namespace Progress

theorem Leads.refl (p : Progress) : p.Leads p :=
  ⟨Nat.le_refl _, rfl, Nat.le_refl _, fun _ h => h⟩

theorem Leads.trans {a b c : Progress} (h : a.Leads b) (h' : b.Leads c) : a.Leads c where
  phase := Nat.le_trans h.phase h'.phase
  imageSize := h'.imageSize.trans h.imageSize
  transferred := Nat.le_trans h.transferred h'.transferred
  error x hx := h'.error x (h.error x hx)

/-- Of all that is told of an image no share is more than all of it. -/
theorem percent?_le {p : Progress} (h : p.transferred ≤ p.imageSize) {n : UInt8}
    (hn : p.percent? = some n) : n ≤ 100 := by
  unfold percent? at hn
  split_ifs at hn with h0 hw
  · obtain rfl := Option.some.inj hn
    decide
  · obtain rfl := Option.some.inj hn
    have hle : p.transferred * 100 / p.imageSize ≤ 100 := by
      refine Nat.div_le_of_le_mul ?_
      exact Nat.mul_le_mul_right 100 h
    have hbyte : p.transferred * 100 / p.imageSize < UInt8.size :=
      Nat.lt_of_le_of_lt hle (by decide)
    rw [UInt8.le_iff_toNat_le, UInt8.toNat_ofNat_of_lt' hbyte]
    exact hle

end Progress

namespace Telling

variable {a b c : Progress} {ps qs : List Progress}

theorem nil (h : a.Leads b) : Telling a b [] :=
  ⟨h, List.forall_mem_nil _, List.forall_mem_nil _, .nil⟩

theorem single {p : Progress} (h : a.Leads p) (h' : p.Leads b) : Telling a b [p] :=
  ⟨h.trans h', List.forall_mem_singleton.mpr h, List.forall_mem_singleton.mpr h',
    List.pairwise_singleton _ _⟩

theorem append (h : Telling a b ps) (h' : Telling b c qs) : Telling a c (ps ++ qs) where
  leads := h.leads.trans h'.leads
  since := List.forall_mem_append.mpr ⟨h.since, fun q hq => h.leads.trans (h'.since q hq)⟩
  till := List.forall_mem_append.mpr ⟨fun p hp => (h.till p hp).trans h'.leads, h'.till⟩
  ordered := List.pairwise_append.mpr
    ⟨h.ordered, h'.ordered, fun p hp q hq => (h.till p hp).trans (h'.since q hq)⟩

end Telling

namespace Session

/-- The event acknowledges the chunk in flight. -/
def takes (s : Session) (e : Event) : Bool :=
  s.wait == .chunkAck && e.acknowledges

/-- The announcement of a phase by the session that is about to enter it. The last phase has none. -/
def announcement? (size : Nat) (x : Phase × Session) : Option Progress :=
  if x.1 = .complete then none
  else
    some
      { phase := x.1
        wait := .nothing
        error := x.2.error
        imageSize := size
        transferred := x.2.transfer.offset }

/-- What observers of an upgrade of so many bytes are told on the way over an event, once `count`
chunks of `room` bytes were acknowledged. -/
def bulletins (size room count : Nat) (s : Session) (e : Event) : List Progress :=
  (if s.mode = .direct ∧ s.takes e then
      [{ phase := .dataTransfer
         wait := .nothing
         error := s.error
         imageSize := size
         transferred := min ((count + 1) * room) size }]
    else []) ++
    (s.entries e).filterMap (announcement? size)

/-- What observers are told on the way over a life. -/
def bulletinsOver (size room : Nat) : (count : Nat) → Session → List Happening → List Progress
  | _, _, [] => []
  | count, s, .guard guard :: rest => bulletinsOver size room count { s with guard } rest
  | count, s, .event e :: rest =>
    bulletins size room count s e ++
      match (s.handle e).reaction with
      | .crash _ => []
      | _ =>
        bulletinsOver size room (count + if s.takes e then 1 else 0) (s.handle e).session rest

/-- The size of chunks that the settings leave room for, zero without a device. -/
def room (s : Session) : Nat :=
  (s.device.bind fun d => s.config.chunkSizeFor? d.mtu d.overhead).getD 0

/-- What observers are told over a life. -/
structure Bulletins (size : Nat) (s : Session) (hs : List Happening) : Prop where
  stream : Trace.progress (s.live hs).effects = bulletinsOver size s.room 0 s hs
  /-- The end is told last. -/
  last : Trace.told (s.live hs).effects
    = Trace.progress (s.live hs).effects ++ Trace.completions (s.live hs).effects
  ordered : (Trace.told (s.live hs).effects).Pairwise Progress.Leads
  within : ∀ p ∈ Trace.told (s.live hs).effects,
    p.imageSize = size ∧ p.transferred ≤ size ∧ ∃ n, p.percent? = some n ∧ n ≤ 100
  /-- No error is told as long as none is recorded. -/
  unfailing : ∀ before after, hs = before ++ after → (s.live before).session.error = none →
    ∀ p ∈ Trace.told (s.live before).effects, p.error = none
  /-- From then on the error that was recorded is told. -/
  failed : ∀ before after, hs = before ++ after → (s.live before).crash? = none →
    ∀ x, (s.live before).session.error = some x →
      ∀ p ∈ Trace.told ((s.live before).session.live after).effects, p.error = some x

variable {s r : Session} {e : Event} {p q : Phase} {t : Turn} {size : Nat}

/-! ## What an event tells -/

/-- The report of the chunk that an event acknowledges. -/
def chunkBulletin (s : Session) (e : Event) : List Progress :=
  if s.mode = .direct ∧ s.takes e then [s.acknowledged.progress] else []

theorem chunkBulletin_of_not (h : s.takes e = false) : s.chunkBulletin e = [] := by
  simp [chunkBulletin, h]

theorem takes_of_not_acknowledges (h : e.acknowledges = false) : s.takes e = false := by
  simp [takes, h]

theorem progress_chunkReport (h : s.takes e = true) :
    Trace.progress s.chunkReport = s.chunkBulletin e := by
  unfold chunkReport chunkBulletin
  cases s.mode <;> simp [h, Mode.isDfu, Mode.dfuMetadata?] <;> rfl

/-- A phase that is entered is announced once. -/
theorem Halt.progress (hh : Halt s p t) (h : s.transfer.imageSize = size) :
    Trace.progress t.effects = [(p, s)].filterMap (announcement? size) := by
  subst h
  cases hh with
  | broken =>
    rw [Trace.progress, reports_parting]
    rfl
  | closed =>
    show (Trace.reports s.ending.effects).filterMap Report.progress? = []
    rw [reports_ending]
    rfl
  | _ => rfl

theorem Slip.progress (hs : Slip s p q r t) (h : s.transfer.imageSize = size) :
    Trace.progress t.effects = [(p, s)].filterMap (announcement? size) := by
  subst h
  cases hs <;> rfl

section sound

variable (h : s.Sound)

include h

theorem Sound.takes_of_phase (hp : s.phase ≠ .dataTransfer) : s.takes e = false := by
  have hw : s.wait ≠ .chunkAck := fun hw => hp (h.chunkAck_iff.mp hw)
  simp [takes, hw]

theorem Sound.takes_written (hp : s.phase = .dataTransfer) (response : Option Bytes) :
    s.takes (.written .data (.ok response)) = true := by
  simp [takes, h.chunkAck_iff.mpr hp, Event.acknowledges]

/-- Within a phase nothing is told but the chunk that was acknowledged. -/
theorem Answer.progress (ha : Answer s e t) :
    Trace.progress t.effects = s.chunkBulletin e := by
  have quiet {e : Event} (hn : e.acknowledges = false) : [] = s.chunkBulletin e :=
    (chunkBulletin_of_not (takes_of_not_acknowledges hn)).symm
  cases ha with
  | rest hx =>
    have hn : s.takes e = false := by
      cases e with
      | written channel result =>
        cases channel with
        | data =>
          have hw : s.wait ≠ .chunkAck := by simpa [expects] using hx
          simp [takes, hw]
        | controlPoint | appInfo => exact takes_of_not_acknowledges rfl
      | _ => exact takes_of_not_acknowledges rfl
    exact (chunkBulletin_of_not hn).symm
  | closing | written | asks | overflow => exact quiet rfl
  | next hp =>
    rw [Turn.effects_after, Trace.progress_append, progress_chunkReport (h.takes_written hp _)]
    exact List.append_nil _

/-- Going on to a phase tells of the chunk that was acknowledged, if one was. -/
theorem Move.progress (hm : Move s e p r t) :
    Trace.progress t.effects = s.chunkBulletin e := by
  have quiet {e : Event} (hn : e.acknowledges = false) : [] = s.chunkBulletin e :=
    (chunkBulletin_of_not (takes_of_not_acknowledges hn)).symm
  have elsewhere {q : Phase} (hp : s.phase = q) (hq : q ≠ .dataTransfer) :
      [] = s.chunkBulletin e :=
    (chunkBulletin_of_not (h.takes_of_phase (hp ▸ hq))).symm
  cases hm with
  | advance ha =>
    cases ha with
    | transferred hp =>
      rw [Turn.effects_after, Trace.progress_append, progress_chunkReport (h.takes_written hp _)]
      exact List.append_nil _
    | prepared hp | started hp | verified hp | gaveUp hp => exact elsewhere hp (by decide)
    | _ => exact quiet rfl
  | failure ha =>
    cases ha with
    | unprepared hp | unstarted hp | unverified hp => exact elsewhere hp (by decide)
    | _ => exact quiet rfl

end sound

/-- An event tells of the chunk that it acknowledges and of each phase that is entered. -/
theorem Passage.progress {entries : List (Phase × Session)} (hp : Passage s e entries t)
    (h : s.Sound) (hw : s.transfer.Within size) :
    Trace.progress t.effects
      = s.chunkBulletin e ++ entries.filterMap (announcement? size) := by
  induction hp with
  | @ended s _ hf =>
    have hp : s.phase ≠ .dataTransfer := by
      rw [h.finished_iff.mp hf]
      decide
    rw [chunkBulletin_of_not (h.takes_of_phase hp)]
    rfl
  | stale =>
    rw [chunkBulletin_of_not (takes_of_not_acknowledges rfl)]
    rfl
  | rests ha =>
    rw [ha.progress h]
    exact (List.append_nil _).symm
  | enters hm _ hh =>
    rw [Turn.effects_after, Trace.progress_append, hm.progress h,
      hh.progress (hm.tells h hw).1.imageSize_eq]
  | slips hm _ hs _ hh =>
    have hr := (hm.tells h hw).1
    rw [Turn.effects_after, Turn.effects_after, Trace.progress_append, Trace.progress_append,
      hm.progress h, hs.progress hr.imageSize_eq, hh.progress (hs.tells hr).1.imageSize_eq,
      ← List.filterMap_append]
    rfl
  | expired hd he _ ih =>
    obtain ⟨-, ha, -⟩ := failureEvent?_fails he
    have hfired := ih (h.withTimer (h.not_idle_of_due hd) _) hw
    rw [chunkBulletin_of_not (takes_of_not_acknowledges ha)] at hfired
    rw [chunkBulletin_of_not (takes_of_not_acknowledges rfl), Turn.effects_after,
      Trace.progress_append, hfired]
    rfl

/-- In the transfer the report of an acknowledged chunk tells how far the chunks reach. -/
theorem chunkBulletin_eq (h : s.Sound) {image : Image} (hi : s.image = some image) {room : Nat}
    (hroom : s.transfer.chunkSize = 0 ∨ s.transfer.chunkSize = room) (e : Event) :
    s.chunkBulletin e
      = if s.mode = .direct ∧ s.takes e then
          [{ phase := .dataTransfer
             wait := .nothing
             error := s.error
             imageSize := image.size
             transferred := min ((s.transfer.acked + 1) * room) image.size }]
        else [] := by
  unfold chunkBulletin
  split_ifs with ht
  · have hp : s.phase = .dataTransfer := by
      by_contra hp
      rw [h.takes_of_phase hp] at ht
      cases ht.2
    obtain ⟨size, count, pos, lt, hst⟩ := h.flying hp hi
    have hsize : size = room := by
      rw [hst, Transfer.chunkSize_after] at hroom
      omega
    subst hsize
    rw [Session.progress, transfer_acknowledged lt hst, hst, Transfer.acked_after_succ pos lt]
    simp [acknowledged, cancelTimer, hp, Image.covered]
  · rfl

theorem acknowledgements_episode_eq (h : s.Sound) (e : Event) :
    Episode.acknowledgements [s.episode e] = if s.takes e then 1 else 0 := by
  by_cases hp : s.phase = .dataTransfer
  · cases he : e.acknowledges with
    | true =>
      rw [acknowledgements_episode hp he]
      simp [takes, h.chunkAck_iff.mpr hp, he]
    | false =>
      rw [acknowledgements_episode_of_not fun _ => he, takes_of_not_acknowledges he]
      rfl
  · rw [acknowledgements_episode_of_not fun hq => absurd hq hp, h.takes_of_phase hp]
    rfl

theorem bulletinsOver_event {size room count : Nat} {rest : List Happening}
    (hc : (s.handle e).crash? = none) :
    bulletinsOver size room count s (.event e :: rest)
      = bulletins size room count s e ++
        bulletinsOver size room (count + if s.takes e then 1 else 0) (s.handle e).session rest := by
  rw [bulletinsOver]
  split
  · next c hr => exact absurd hr (Turn.reaction_ne_crash hc c)
  · rfl

theorem bulletinsOver_crash {size room count : Nat} {rest : List Happening} {c : Crash}
    (hc : (s.handle e).crash? = some c) :
    bulletinsOver size room count s (.event e :: rest) = bulletins size room count s e := by
  rw [bulletinsOver, Turn.reaction_of_crash? hc]
  exact List.append_nil _

/-- Over a life observers are told of each phase that is entered and, of a direct upgrade, of each
acknowledged chunk. -/
theorem Accounts.progress_live {c : List Episode} (h : Accounts c s) {image : Image}
    (hi : s.image = some image) {room : Nat} (hroom : s.Affords room)
    (hsize : s.transfer.chunkSize = 0 ∨ s.transfer.chunkSize = room) (hs : List Happening) :
    Trace.progress (s.live hs).effects
      = bulletinsOver image.size room (Episode.acknowledgements c) s hs := by
  induction hs generalizing c s with
  | nil => rfl
  | cons x hs ih =>
    cases x with
    | guard guard => exact ih (h.withGuard guard) hi hroom hsize
    | event e =>
      have hpassage := passage_complete h.sound e
      have hnow : Trace.progress (s.handle e).effects
          = bulletins image.size room (Episode.acknowledgements c) s e := by
        rw [hpassage.progress h.sound (h.sound.stands image hi).books.within,
          chunkBulletin_eq h.sound hi hsize, h.acked image hi]
        rfl
      cases hx : (s.handle e).crash? with
      | some crash => rw [live_crash hx, bulletinsOver_crash hx, hnow]
      | none =>
        have hsize' : (s.handle e).session.transfer.chunkSize = 0 ∨
            (s.handle e).session.transfer.chunkSize = room := by
          rcases hpassage.chunkSize hroom with hkept | hsettled
          · rwa [hkept]
          · exact .inr hsettled
        have hlater := ih (h.episode e hx) ((h.sound.alike e).image.trans hi)
          (hroom.handle h.sound e) hsize'
        rw [Episode.acknowledgements_append, acknowledgements_episode_eq h.sound] at hlater
        rw [live_event hx, bulletinsOver_event hx, Turn.effects_after, Trace.progress_append,
          hlater, hnow]

/-! ## The order of what is told -/

theorem leads_recordError (s : Session) (cause : Cause) :
    s.progress.Leads (s.recordError cause).progress := by
  refine ⟨?_, ?_, ?_, fun x hx => ?_⟩
  · show s.phase ≤ (s.recordError cause).phase
    rw [phase_recordError]
    exact Nat.le_refl _
  · show (s.recordError cause).transfer.imageSize = s.transfer.imageSize
    rw [transfer_recordError]
  · show s.transfer.offset ≤ (s.recordError cause).transfer.offset
    rw [transfer_recordError]
  · show (s.recordError cause).error = some x
    have hx : s.error = some x := hx
    rw [error_recordError, hx]
    rfl

theorem leads_arrive (h : s.phase ≤ p) : s.progress.Leads (s.arrive p).progress :=
  ⟨h, rfl, Nat.le_refl _, fun _ hx => hx⟩

/-- Who differs in nothing that is told but in what is waited for stands as before. -/
theorem leads_of_eq (hp : r.phase = s.phase) (ht : r.transfer = s.transfer)
    (he : r.error = s.error) : s.progress.Leads r.progress where
  phase := by
    show s.phase ≤ r.phase
    rw [hp]
    exact Nat.le_refl _
  imageSize := congrArg Transfer.imageSize ht
  transferred := Nat.le_of_eq (congrArg Transfer.offset ht).symm
  error _ hx := he.trans hx

theorem leads_acknowledged (s : Session) : s.progress.Leads s.acknowledged.progress :=
  ⟨Nat.le_refl _, rfl, Nat.le_add_right _ _, fun _ hx => hx⟩

theorem telling_chunkReport (s : Session) :
    Telling s.progress s.acknowledged.progress (Trace.told s.chunkReport) := by
  unfold chunkReport
  split
  · exact .nil s.leads_acknowledged
  · exact .single s.leads_acknowledged (.refl _)

/-- Entering a later phase is told from the session before to the one that has come to rest there. -/
theorem Halt.telling (hh : Halt s p t) (hp : s.phase ≤ p) :
    Telling s.progress t.session.progress (Trace.told t.effects) := by
  have harrive := leads_arrive hp
  cases hh with
  | @transfer image d size _ _ _ ht =>
    -- sending the first chunk acknowledges none
    refine .single harrive ⟨Nat.le_refl _, ?_, ?_, fun _ hx => hx⟩
    · exact (congrArg Transfer.imageSize ht).symm
    · show s.transfer.offset ≤ (Transfer.after image size 0 1).offset
      rw [ht]
      exact Nat.le_refl _
  | broken =>
    rw [Trace.told, reports_parting]
    exact .nil harrive
  | closed =>
    have hend : Trace.told s.ending.effects = [s.closed.progress] := by
      rw [Trace.told, reports_ending]
      rfl
    exact hend ▸ .single harrive (.refl _)
  | _ => exact .single harrive (leads_of_eq rfl rfl rfl)

theorem Slip.telling (hs : Slip s p q r t) (hp : s.phase ≤ p) :
    Telling s.progress r.progress (Trace.told t.effects) := by
  have harrive := leads_arrive hp
  cases hs with
  | noImage | noDevice => exact .single harrive (leads_recordError _ _)
  | skip | unlinked => exact .single harrive (.refl _)

theorem Answer.telling (ha : Answer s e t) :
    Telling s.progress t.session.progress (Trace.told t.effects) := by
  cases ha with
  | rest => exact .nil (leads_of_eq (by simp [stay]) (by simp [stay]) (by simp [stay]))
  | @closing _ dfu =>
    have hnoting : s.progress.Leads (s.noting (.abort dfu)).progress := leads_of_eq rfl rfl rfl
    exact .nil (hnoting.trans (leads_recordError _ _))
  | written | asks | overflow => exact .nil (leads_of_eq rfl rfl rfl)
  | @next image d size count _ _ _ _ _ ht lt =>
    have hlt := Nat.lt_of_le_of_lt (Nat.mul_le_mul_right _ (Nat.le_succ _)) lt
    have hack := transfer_acknowledged hlt ht
    rw [Turn.effects_after, Trace.told_append]
    refine s.telling_chunkReport.append (.nil ⟨Nat.le_refl _, ?_, ?_, fun _ hx => hx⟩)
    · exact (congrArg Transfer.imageSize hack).symm
    · show s.acknowledged.transfer.offset
        ≤ (Transfer.after image size (count + 1) (count + 2)).offset
      rw [hack]
      exact Nat.le_refl _

theorem Move.phase_eq (hm : Move s e p r t) : r.phase = s.phase := by
  cases hm with
  | advance ha =>
    cases ha with
    | gaveUp => exact s.phase_noting e
    | _ => rfl
  | failure ha => rw [phase_recordError, ha.kept.phase]

theorem Move.telling (hm : Move s e p r t) :
    Telling s.progress r.progress (Trace.told t.effects) := by
  cases hm with
  | advance ha =>
    cases ha with
    | connected => exact .nil ⟨Nat.le_refl _, rfl, Nat.le_refl _, fun _ hx => hx⟩
    | transferred =>
      rw [Turn.effects_after, Trace.told_append]
      exact s.telling_chunkReport.append (.nil (.refl _))
    | gaveUp => exact .nil (leads_of_eq (s.phase_noting e) (s.transfer_noting e) (s.error_noting e))
    | _ => exact .nil (leads_of_eq rfl rfl rfl)
  | failure ha =>
    have hkept := leads_of_eq ha.kept.phase ha.kept.transfer ha.kept.error
    exact .nil (hkept.trans (leads_recordError _ _))

/-- All that an event tells lies between the session before and after it. -/
theorem Passage.telling {entries : List (Phase × Session)} (hp : Passage s e entries t)
    (h : s.Sound) : Telling s.progress t.session.progress (Trace.told t.effects) := by
  have later {s r : Session} {e : Event} {p : Phase} {t : Turn} (hm : Move s e p r t)
      (h : s.Sound) : r.phase ≤ p := by
    rw [hm.phase_eq]
    exact Nat.le_of_lt (Phase.lt_of_mem_successors (hm.edge h))
  induction hp with
  | ended | stale => exact .nil (.refl _)
  | rests ha => exact ha.telling
  | enters hm _ hh =>
    rw [Turn.effects_after, Trace.told_append]
    exact hm.telling.append (hh.telling (later hm h))
  | @slips s r r' e p q t t' t'' hm _ hs _ hh =>
    have hq : r'.phase ≤ q := by
      have hr' : r'.phase = p := by cases hs <;> simp
      rw [hr']
      exact Nat.le_of_lt (Phase.lt_of_mem_successors hs.edge.1)
    rw [Turn.effects_after, Turn.effects_after, Trace.told_append, Trace.told_append]
    exact hm.telling.append ((hs.telling (later hm h)).append (hh.telling hq))
  | @expired s _ _ _ _ _ hd _ _ ih =>
    have hfired : s.progress.Leads { s with timer := s.timer.fire }.progress :=
      leads_of_eq rfl rfl rfl
    rw [Turn.effects_after, Trace.told_append]
    exact (Telling.nil hfired).append (ih (h.withTimer (h.not_idle_of_due hd) _))

/-! ## Lives -/

theorem Sound.telling_live (h : s.Sound) (hs : List Happening) :
    Telling s.progress (s.live hs).session.progress (Trace.told (s.live hs).effects) := by
  refine Sound.live_between (R := fun s es r => Telling s.progress r.progress (Trace.told es))
    (fun _ => .nil (.refl _)) (fun _ h => h) ?_ (fun h e => (passage_complete h e).telling h) h hs
  intro s as r bs t h h'
  rw [Trace.told_append]
  exact h.append h'

/-- Of the end observers are told by itself and last. -/
theorem Fate.told {t : Turn} (hf : Fate s t) :
    Trace.told t.effects = Trace.progress t.effects ++ Trace.completions t.effects := by
  have none {es : List Effect} (hc : Trace.closings es = []) : Trace.completions es = [] := by
    rw [← Trace.completions_closings, hc]
    rfl
  cases hf with
  | goesOn _ _ hc =>
    rw [Trace.told_eq_progress (none hc), none hc]
    exact (List.append_nil _).symm
  | @ended q guard front _ hfront _ he =>
    have hprogress : Trace.progress q.ending.effects = [] := by
      rw [Trace.progress, reports_ending]
      rfl
    have htold : Trace.told q.ending.effects = [q.closed.progress] := by
      rw [Trace.told, reports_ending]
      rfl
    rw [he, q.completions_ending hfront, Trace.told_append,
      Trace.told_eq_progress (none hfront), htold,
      Trace.progress_append, hprogress, List.append_nil]

/-- Whatever an upgrade is told, and whoever shares its guard, observers are told of every phase and
of every acknowledged chunk as it comes, and see the upgrade go on and never back. -/
theorem bulletins_live (config : Config) (mode : Mode) (image : Image) (device : Option Device)
    (collaborators : Collaborators) (guard : Guard) (hs : List Happening) :
    Bulletins image.size (fresh config mode (some image) device collaborators guard) hs := by
  have hacc := Accounts.fresh config mode (some image) device collaborators guard
  have hbounds := bounded_live config mode (some image) device collaborators guard hs
  have hi : (fresh config mode (some image) device collaborators guard).image = some image := rfl
  have hf : (fresh config mode (some image) device collaborators guard).finished = false := rfl
  have hsize : (fresh config mode (some image) device collaborators guard).transfer.chunkSize = 0 :=
    rfl
  generalize fresh config mode (some image) device collaborators guard = s at *
  have h := hacc.sound
  have htelling := h.telling_live hs
  constructor
  case stream =>
    have haffords : s.Affords s.room := by
      intro d size hd hsize
      simp [room, hd, hsize]
    exact hacc.progress_live hi haffords (.inl hsize) hs
  case last => exact (h.fate hf hs).told
  case ordered => exact htelling.ordered
  case within =>
    intro p hp
    have hmeasured : p.imageSize = image.size ∧ p.transferred ≤ image.size := by
      rcases Trace.mem_told hp with hp | hp
      · exact hbounds.measured _ hp
      · exact hbounds.measured _ hp
    obtain ⟨n, hn⟩ := Option.isSome_iff_exists.mp
      (Progress.percent?_isSome hmeasured.1 hmeasured.2 image.size_lt)
    refine ⟨hmeasured.1, hmeasured.2, n, hn, Progress.percent?_le ?_ hn⟩
    rw [hmeasured.1]
    exact hmeasured.2
  case unfailing =>
    rintro before after rfl hnone p hp
    cases hx : p.error with
    | none => rfl
    | some x =>
      have hkept : (s.live before).session.error = some x :=
        ((h.telling_live before).till p hp).error x hx
      rw [hnone] at hkept
      cases hkept
  case failed =>
    rintro before after rfl hc x hx p hp
    exact (((h.live before hc).telling_live after).since p hp).error x hx

end Session
end OtaUpgrade
