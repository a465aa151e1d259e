import Mathlib
import OtaUpgrade.Proofs.Session.DeviceView

/-!
The calls of an upgrade follow a script: connect, discover, read the application info where there is
one, switch notifications on, prepare, start, the chunks in order, verify. An upgrade that is given up
breaks the script off and adds the command to abort, if the download was prepared at all. `Conduct`
says how far the calls made so far have come, given the phase; every event keeps it.

Closing the link is left out here: it may come at any point, and more than once.
-/
namespace OtaUpgrade

/-- The application info is read where the service has it. -/
def Variant.reading (v : Variant) : List DeviceCall :=
  if v = .current then [.read .appInfo] else []

theorem Variant.reading_eq (v : Variant) :
    v.reading = if v.has .appInfo = true then [.read .appInfo] else [] := by
  cases v <;> rfl

/-- The calls of a whole upgrade, but for closing the link. -/
def callScript (mode : Mode) (image : Image) (v : Variant) (size : Nat) : List DeviceCall :=
  [.connect, .discover] ++ v.reading ++ [.enableNotifications true]
    ++ [.command mode.prepareCommand, .command (.start (UInt32.ofNat image.size))]
    ++ (image.chunks size ((image.size + size - 1) / size)).map (.write .data)
    ++ [.command (.verify image.crc)]

namespace Trace

/-- The calls to the device, but for closing the link. -/
def talk (es : List Effect) : List DeviceCall := (calls es).filter (· ≠ .disconnect)

@[simp] theorem talk_append (as bs : List Effect) : talk (as ++ bs) = talk as ++ talk bs := by
  simp [talk]

theorem talk_nil_of_disconnect {es : List Effect} (h : ∀ c ∈ calls es, c = .disconnect) :
    talk es = [] := by
  refine List.filter_eq_nil_iff.mpr fun c hc => ?_
  simp [h c hc]

end Trace

namespace Session

/-- The calls that belong to a phase. -/
def share (s : Session) (image : Image) : Phase → List DeviceCall
  | .connect => [.connect]
  | .serviceDiscover => [.discover]
  | .readAppInfo => (s.variant.map Variant.reading).getD []
  | .enableNotification => [.enableNotifications true]
  | .prepareForDownload => [.command s.mode.prepareCommand]
  | .startDownload => [.command (.start (UInt32.ofNat image.size))]
  | .dataTransfer => (image.chunks s.transfer.chunkSize s.transfer.chunksSent).map (.write .data)
  | .verify => [.command (.verify image.crc)]
  | .idle | .abort | .complete => []

/-- The calls that belong to the phases before this one. -/
def made (s : Session) (image : Image) (p : Phase) : List DeviceCall :=
  (Phase.all.take p.rank).flatMap (s.share image)

/-- The variant and the chunk size may be these, for all the session knows. -/
structure Admits (s : Session) (v : Variant) (size : Nat) : Prop where
  pos : 0 < size
  variant : ∀ v', s.variant = some v' → v = v'
  chunkSize : s.transfer.chunkSize ≠ 0 → size = s.transfer.chunkSize

/-- The calls are the beginning of the script, whatever the session does not know yet. -/
def Scripted (s : Session) (image : Image) (t : List DeviceCall) : Prop :=
  ∀ v size, s.Admits v size → t <+: callScript s.mode image v size

/-- The calls are the beginning of the script, or broken off by the command to abort once the
download was prepared. Without an image there are none. -/
structure Keeps (s : Session) (k : List DeviceCall) : Prop where
  imageless : s.image = none → k = []
  scripted : ∀ image, s.image = some image → ∃ t, s.Scripted image t ∧
    (k = t ∨ DeviceCall.command s.mode.prepareCommand ∈ t ∧ k = t ++ [.command .abort])

/-- How far the calls of a session have come. -/
inductive Conduct (s : Session) (k : List DeviceCall) : Prop where
  | unbegun (hp : s.phase = .idle) (hg : s.guard.connection = false) (hk : k = [])
  | onWay {image : Image} (hi : s.image = some image) (hc : .connect ≤ s.phase)
      (hv : s.phase ≤ .verify) (hst : s.transfer.Stands image s.phase)
      (hvar : .readAppInfo ≤ s.phase → ∃ v, s.variant = some v)
      (hk : k = s.made image s.phase ++ s.share image s.phase)
  | ended (hp : s.phase = .abort ∨ s.phase = .complete) (hk : s.Keeps k)

theorem made_next (s : Session) (image : Image) {p q : Phase} (h : q.rank = p.rank + 1) :
    s.made image q = s.made image p ++ s.share image p := by
  have hp : Phase.all[p.rank]? = some p := by cases p <;> rfl
  rw [made, h, List.take_add_one, List.flatMap_append, hp]
  simp [made]

/-- Only the calls of earlier phases count. -/
theorem made_congr {s s' : Session} {image : Image} {p : Phase}
    (h : ∀ q, q.rank < p.rank → s'.share image q = s.share image q) :
    s'.made image p = s.made image p := by
  have hrank : ∀ q ∈ Phase.all.take p.rank, q.rank < p.rank := by cases p <;> decide
  refine congrArg List.flatten (List.map_congr_left fun q hq => h q (hrank q hq))

/-! ## What was made is the beginning of the script -/

theorem scripted_of_stands {s : Session} {image : Image} (hc : .connect ≤ s.phase)
    (hv : s.phase ≤ .verify) (hst : s.transfer.Stands image s.phase)
    (hvar : .readAppInfo ≤ s.phase → ∃ v, s.variant = some v) :
    s.Scripted image (s.made image s.phase ++ s.share image s.phase) := by
  intro v size ha
  have known (h : .readAppInfo ≤ s.phase) : s.variant = some v := by
    obtain ⟨v', hv'⟩ := hvar h
    rw [hv', ha.variant v' hv']
  cases hp : s.phase with
  | idle =>
    rw [hp] at hc
    exact absurd hc (by decide)
  | abort | complete =>
    rw [hp] at hv
    exact absurd hv (by decide)
  | connect | serviceDiscover =>
    simp [made, share, callScript, Phase.all, Phase.rank]
  | readAppInfo | enableNotification | prepareForDownload | startDownload =>
    have hs := known (by rw [hp]; decide)
    simp [made, share, callScript, Phase.all, Phase.rank, hs]
  | dataTransfer =>
    have hs := known (by rw [hp]; decide)
    rw [hp] at hst
    obtain ⟨size', count, pos, lt, ht⟩ := hst
    obtain rfl : size = size' := by
      rw [ha.chunkSize (by rw [ht, Transfer.chunkSize_after]; omega), ht, Transfer.chunkSize_after]
    have hprefix : image.chunks size (count + 1)
        <+: image.chunks size ((image.size + size - 1) / size) :=
      Image.chunks_prefix (image.succ_le_total pos lt)
    have hchunks := hprefix.map (DeviceCall.write .data)
    simp only [made, share, callScript, Phase.all, ht]
    simpa [Phase.rank, share, hs] using hchunks.trans (List.prefix_append _ _)
  | verify =>
    have hs := known (by rw [hp]; decide)
    rw [hp] at hst
    obtain ⟨size', count, pos, lt, hall, ht⟩ := hst
    obtain rfl : size = size' := by
      rw [ha.chunkSize (by rw [ht, Transfer.chunkSize_after]; omega), ht, Transfer.chunkSize_after]
    simp [made, share, callScript, Phase.all, Phase.rank, hs, ht,
      ← image.succ_eq_total pos lt hall]

/-- The sessions agree in everything the script depends on. -/
structure Concordant (s s' : Session) : Prop where
  image : s'.image = s.image
  mode : s'.mode = s.mode
  variant : s'.variant = s.variant
  transfer : s'.transfer = s.transfer

section concordant

variable {s s' : Session} (h : Concordant s s')

include h

theorem Concordant.admits {v : Variant} {size : Nat} (ha : s'.Admits v size) :
    s.Admits v size :=
  ⟨ha.pos, h.variant ▸ ha.variant, h.transfer ▸ ha.chunkSize⟩

theorem Concordant.scripted {image : Image} {t : List DeviceCall} (ht : s.Scripted image t) :
    s'.Scripted image t := by
  intro v size ha
  rw [h.mode]
  exact ht v size (h.admits ha)

theorem Concordant.keeps {k : List DeviceCall} (hk : s.Keeps k) : s'.Keeps k where
  imageless hi := hk.imageless (h.image ▸ hi)
  scripted image hi := by
    obtain ⟨t, ht, hk⟩ := hk.scripted image (h.image ▸ hi)
    exact ⟨t, h.scripted ht, h.mode ▸ hk⟩

theorem Concordant.share_eq (image : Image) : s'.share image = s.share image := by
  funext p
  cases p <;> simp [share, h.mode, h.variant, h.transfer]

theorem Concordant.made_eq (image : Image) (p : Phase) : s'.made image p = s.made image p := by
  simp [made, h.share_eq]

/-- Nothing but the books of requests tells the two apart. -/
theorem Concordant.conduct {k : List DeviceCall} (hp : s'.phase = s.phase)
    (hg : s.guard.connection = false → s'.guard.connection = false) (hc : Conduct s k) :
    Conduct s' k := by
  cases hc with
  | unbegun hidle hg' hk => exact .unbegun (hp ▸ hidle) (hg hg') hk
  | @onWay image hi hc hv hst hvar hk =>
    refine .onWay (h.image ▸ hi) (hp ▸ hc) (hp ▸ hv) (by rwa [h.transfer, hp]) ?_ ?_
    · rw [hp, h.variant]
      exact hvar
    · rw [h.made_eq, h.share_eq, hp]
      exact hk
  | ended he hk => exact .ended (hp ▸ he) (h.keeps hk)

end concordant

theorem Conduct.keeps {s : Session} {k : List DeviceCall} (h : Conduct s k) : s.Keeps k := by
  cases h with
  | unbegun hp hg hk =>
    exact ⟨fun _ => hk, fun image hi => ⟨[], fun _ _ _ => List.nil_prefix, .inl hk⟩⟩
  | onWay hi hc hv hst hvar hk =>
    refine ⟨fun hn => absurd (hi.symm.trans hn) nofun, fun image hi' => ?_⟩
    obtain rfl := Option.some.inj (hi.symm.trans hi')
    exact ⟨_, scripted_of_stands hc hv hst hvar, .inl hk⟩
  | ended hp hk => exact hk

/-! ## Entering a phase -/

section enter

variable {s : Session} {k : List DeviceCall}

/-- The end brings no call but the one that closes the link. -/
theorem Poised.conduct_complete (h : s.Poised .complete) (hk : s.Keeps k) :
    Conduct (s.proceed .complete).session (k ++ Trace.talk (s.proceed .complete).effects) := by
  have htalk := Trace.talk_nil_of_disconnect h.calls_complete
  have hl := landing_complete h
  generalize s.proceed .complete = t at htalk hl
  rw [htalk, List.append_nil]
  have ends {s' : Session} (hp : s'.phase = .complete) (hs : Concordant s s') : Conduct s' k :=
    .ended (.inr hp) (hs.keeps hk)
  cases hl with
  | broken => exact ends rfl ⟨rfl, rfl, rfl, rfl⟩
  | closed => exact ends rfl ⟨rfl, rfl, rfl, rfl⟩

/-- A download that was prepared is given up by the command to abort, if the link is still up. -/
theorem Poised.conduct_abort (h : s.Poised .abort) {image : Image} {t : List DeviceCall}
    (hi : s.image = some image) (ht : s.Scripted image t)
    (hprep : DeviceCall.command s.mode.prepareCommand ∈ t) :
    Conduct (s.proceed .abort).session (t ++ Trace.talk (s.proceed .abort).effects) := by
  have keeps {k : List DeviceCall} (hk : k = t ∨ k = t ++ [.command .abort]) : s.Keeps k := by
    refine ⟨fun hn => absurd (hi.symm.trans hn) nofun, fun image' hi' => ?_⟩
    obtain rfl : image = image' := Option.some.inj (hi.symm.trans hi')
    exact ⟨t, ht, hk.imp_right fun hk => ⟨hprep, hk⟩⟩
  have hl := landing_complete h
  generalize s.proceed .abort = turn at hl
  cases hl with
  | abort =>
    have hs : Concordant s (s.commanding .abort) := ⟨rfl, rfl, rfl, rfl⟩
    exact .ended (.inl rfl) (hs.keeps (keeps (.inr rfl)))
  | unlinked =>
    have hs : Concordant s (s.arrive .abort) := ⟨rfl, rfl, rfl, rfl⟩
    exact h.arrive_complete.conduct_complete (hs.keeps (keeps (.inl rfl)))

/-- A chunk on its way changes the calls of the transfer only. -/
theorem share_sending {s r : Session} {image : Image} {size index : Nat} (hm : r.mode = s.mode)
    (hv : r.variant = s.variant) (q : Phase) (hq : q.rank < Phase.dataTransfer.rank) :
    (r.sending image size index).share image q = s.share image q := by
  cases q with
  | dataTransfer | verify | abort | complete => exact absurd hq (by decide)
  | readAppInfo =>
    show (r.variant.map Variant.reading).getD [] = _
    rw [hv]
    rfl
  | prepareForDownload =>
    show [DeviceCall.command r.mode.prepareCommand] = _
    rw [hm]
    rfl
  | idle | connect | serviceDiscover | enableNotification | startDownload => rfl

/-- Connecting is asked for unless there is nothing to upgrade. -/
theorem Poised.conduct_connect (h : s.Poised .connect) (hg : s.guard.connection = false) :
    Conduct (s.proceed .connect).session (Trace.talk (s.proceed .connect).effects) := by
  have ends (cause : Cause) :=
    (h.arrive_complete.recordError cause).conduct_complete (k := [])
      ⟨fun _ => rfl, fun _ _ => ⟨[], fun _ _ _ => List.nil_prefix, .inl rfl⟩⟩
  have hl := landing_complete h
  generalize s.proceed .connect = t at hl
  cases hl with
  | noImage => exact ends .noImage
  | noDevice => exact ends .noDevice
  | connecting _ _ hg' => exact absurd (hg.symm.trans hg') nofun
  | connect hi =>
    exact .onWay hi (Nat.le_refl 1) (by show 1 ≤ 8; decide) (h.meets _ hi)
      (fun hn => absurd hn (by show ¬ 3 ≤ 1; decide)) rfl

/-- A session that waits in the phase it was on its way to has made the calls of that phase. -/
theorem Poised.conduct_arrived {p : Phase} (h : s.Poised p) (hc : .serviceDiscover ≤ p)
    (hv : p ≤ .verify) (hvar : .readAppInfo ≤ p → ∃ v, s.variant = some v) {image : Image}
    (hi : s.image = some image) (hn : p ≠ .dataTransfer) {t : Turn} (hp : t.session.phase = p)
    (hs : Concordant s t.session) (htalk : Trace.talk t.effects = s.share image p) :
    Conduct t.session (s.made image p ++ Trace.talk t.effects) := by
  subst hp
  refine .onWay (hs.image ▸ hi) (Nat.le_trans (by show 1 ≤ 2; decide) hc) hv ?_ ?_ ?_
  · have hm := h.meets image hi
    rw [hs.transfer]
    unfold Transfer.Meets at hm
    split at hm
    · next he => exact absurd he hn
    · exact hm
  · rw [hs.variant]
    exact hvar
  · rw [hs.made_eq, hs.share_eq, htalk]

/-- On entering any later phase of the download, its calls are added to those made before. -/
theorem Poised.conduct {p : Phase} (h : s.Poised p) (hc : .serviceDiscover ≤ p) (hv : p ≤ .verify)
    (hvar : .readAppInfo ≤ p → ∃ v, s.variant = some v) {image : Image}
    (hi : s.image = some image) :
    Conduct (s.proceed p).session (s.made image p ++ Trace.talk (s.proceed p).effects) := by
  have arrived (hn : p ≠ .dataTransfer) {t : Turn} :=
    h.conduct_arrived hc hv hvar hi hn (t := t)
  have hst := h.meets image hi
  have hl := landing_complete h
  generalize s.proceed p = t at hl
  cases hl with
  | noImage | noDevice | connecting | connect => exact absurd hc (by decide)
  | abort | unlinked | broken | closed => exact absurd hv (by decide)
  | discover | notify | prepare => exact arrived (by decide) rfl ⟨rfl, rfl, rfl, rfl⟩ rfl
  | read hs _ hhas =>
    refine arrived (by decide) rfl ⟨rfl, rfl, rfl, rfl⟩ ?_
    rw [share, hs, Option.map_some, Option.getD_some, Variant.reading_eq, if_pos hhas]
    rfl
  | askMesh hs hhas =>
    refine arrived (by decide) rfl ⟨rfl, rfl, rfl, rfl⟩ ?_
    rw [share, hs, Option.map_some, Option.getD_some, Variant.reading_eq, if_neg (by simp [hhas])]
    rfl
  | @skip v hs hhas =>
    -- nothing is read, so what comes before notifications is what came before reading
    have hnone : s.share image .readAppInfo = [] := by
      rw [share, hs, Option.map_some, Option.getD_some, Variant.reading_eq,
        if_neg (by simp [hhas])]
    have hmade : (s.arrive .readAppInfo).made image .enableNotification
        = s.made image .readAppInfo := by
      have hs : Concordant s (s.arrive .readAppInfo) := ⟨rfl, rfl, rfl, rfl⟩
      rw [hs.made_eq]
      simp [made, Phase.all, Phase.rank, hnone]
    have hn := h.arrive_notify rfl
    have hl := landing_complete hn
    show Conduct ((s.arrive .readAppInfo).proceed .enableNotification).session _
    rw [Turn.effects_after, Trace.talk_append, ← hmade]
    generalize (s.arrive .readAppInfo).proceed .enableNotification = t at hl
    cases hl with
    | notify =>
      exact hn.conduct_arrived (by decide) (by decide) (fun _ => ⟨v, hs⟩) hi (by decide) rfl
        ⟨rfl, rfl, rfl, rfl⟩ rfl
  | start =>
    refine arrived (by decide) rfl ⟨rfl, rfl, rfl, rfl⟩ ?_
    rw [share, ← hst.books.imageSize_eq]
    rfl
  | @transfer image' d size hi' hd pos ht =>
    obtain rfl : image = image' := Option.some.inj (hi.symm.trans hi')
    refine .onWay hi (by show 1 ≤ 7; decide) (by show 7 ≤ 8; decide)
      ⟨size, 0, pos, by rw [Nat.zero_mul]; exact image.size_pos, rfl⟩ (fun _ => hvar (by decide)) ?_
    exact congrArg (· ++ _) (made_congr (share_sending (s := s) rfl rfl)).symm
  | @verify image' d hi' =>
    obtain rfl : image = image' := Option.some.inj (hi.symm.trans hi')
    exact arrived (by decide) rfl ⟨rfl, rfl, rfl, rfl⟩ rfl

end enter

/-! ## Every event -/

section steps

variable {s s' : Session} {k : List DeviceCall} {e : Event} {p : Phase}

theorem Conduct.of_idle (hc : Conduct s k) (hp : s.phase = .idle) :
    s.guard.connection = false ∧ k = [] := by
  cases hc with
  | unbegun _ hg hk => exact ⟨hg, hk⟩
  | onWay _ hc =>
    rw [hp] at hc
    exact absurd hc (by decide)
  | ended he =>
    rw [hp] at he
    exact absurd he (by decide)

theorem Conduct.of_onWay (hc : Conduct s k) (h1 : .connect ≤ s.phase) (h2 : s.phase ≤ .verify) :
    ∃ image, s.image = some image ∧ s.transfer.Stands image s.phase ∧
      (.readAppInfo ≤ s.phase → ∃ v, s.variant = some v) ∧
      k = s.made image s.phase ++ s.share image s.phase := by
  cases hc with
  | unbegun hp =>
    rw [hp] at h1
    exact absurd h1 (by decide)
  | onWay hi _ _ hst hvar hk => exact ⟨_, hi, hst, hvar, hk⟩
  | ended he =>
    obtain he | he := he
    · rw [he] at h2
      exact absurd h2 (by decide)
    · rw [he] at h2
      exact absurd h2 (by decide)

/-- In a download the command to prepare it was written. -/
theorem prepare_mem_made (image : Image) (hp : s.phase.canAbort = true) :
    DeviceCall.command s.mode.prepareCommand
      ∈ s.made image s.phase ++ s.share image s.phase := by
  cases hq : s.phase with
  | prepareForDownload | startDownload | dataTransfer | verify =>
    simp [made, share, Phase.all, Phase.rank]
  | _ =>
    rw [hq] at hp
    cases hp

theorem talk_after {t : Turn} {es : List Effect} (h : Trace.dealings es = []) :
    Trace.talk (t.after es).effects = Trace.talk t.effects := by
  rw [Turn.effects_after, Trace.talk_append, Trace.talk, ← Trace.calls_dealings, h]
  rfl

/-- An upgrade is given up in a download only. -/
theorem Failure.canAbort {cause : Cause} (ha : Failure s e s' cause p) (hp : p = .abort) :
    s.phase.canAbort = true := by
  cases ha with
  | mtu | unconnected | unsupported | silent | unprepared | stopped => cases hp
  | disconnected hu _ hn =>
    split at hp
    · cases hp
    · next hb =>
      by_contra hd
      exact hb (Phase.isBeforeDownload_of_not_canAbort hu hn (by simpa using hd))
  | unstarted hq | unverified hq | chunk hq =>
    rw [hq]
    rfl
  | unwritten hc hn => cases hq : s.phase <;> simp_all [commandOf?, Phase.canAbort] <;> decide
  | stoppedDownload hq => exact hq

theorem Failure.concordant {cause : Cause} (ha : Failure s e s' cause p) :
    Concordant s (s'.recordError cause) := by
  have hs : Concordant s s' := by
    cases ha <;> exact ⟨rfl, rfl, rfl, rfl⟩
  exact ⟨by simp [hs.image], by simp [hs.mode], by simp [hs.variant], by simp [hs.transfer]⟩

theorem connection_noting (s : Session) (e : Event) (hg : s.guard.connection = false) :
    (s.noting e).guard.connection = false := by
  unfold noting
  split <;> first | rfl | exact hg

theorem Phase.between_of_canAbort {q : Phase} (hq : q.canAbort = true) :
    .connect ≤ q ∧ q ≤ .verify := by
  cases q <;> first | exact ⟨by decide, by decide⟩ | cases hq

variable (h : s.Sound) (hf : s.finished = false) (hc : Conduct s k)

include h hf hc

theorem Advance.conduct {es : List Effect} (ha : Advance s e s' es p) :
    Conduct (s'.proceed p).session (k ++ Trace.talk (s'.proceed p).effects) := by
  have hpoised := ha.poised h hf
  -- where all the script depends on stays as it is, the calls so far are those before the next phase
  have goes {q : Phase} (hq : s.phase = q) (h1 : .readAppInfo ≤ q) (h2 : p ≤ .verify)
      (hnext : p.rank = q.rank + 1) (hi : s'.image = s.image) (hv : s'.variant = s.variant)
      (hshare : ∀ image, s'.share image = s.share image) :
      Conduct (s'.proceed p).session (k ++ Trace.talk (s'.proceed p).effects) := by
    have hr : 3 ≤ q.rank := h1
    have hr' : p.rank ≤ 8 := h2
    obtain ⟨image, hi', -, hvar, rfl⟩ := hc.of_onWay (by rw [hq]; show 1 ≤ q.rank; omega)
      (by rw [hq]; show q.rank ≤ 8; omega)
    have hmade : s'.made image p = s.made image s.phase ++ s.share image s.phase := by
      rw [← made_next s image (q := p) (by rw [hq, hnext]), made, hshare, made]
    rw [← hmade]
    exact hpoised.conduct (by show 2 ≤ p.rank; omega) h2 (fun _ => hv ▸ hvar (hq ▸ h1))
      (hi.trans hi')
  cases ha with
  | start hp =>
    obtain ⟨hg, rfl⟩ := hc.of_idle hp
    exact hpoised.conduct_connect hg
  | connected hp =>
    obtain ⟨image, hi, -, -, rfl⟩ := hc.of_onWay (by rw [hp]; decide) (by rw [hp]; decide)
    rw [hp]
    exact hpoised.conduct (by decide) (by decide) (fun hn => absurd hn (by decide)) hi
  | discovered hp =>
    obtain ⟨image, hi, -, -, rfl⟩ := hc.of_onWay (by rw [hp]; decide) (by rw [hp]; decide)
    rw [hp]
    exact hpoised.conduct (by decide) (by decide) (fun _ => ⟨_, rfl⟩) hi
  | informed hw | uninformed hw =>
    exact goes (h.phase_of_appInfo hw) (by decide) (by decide) rfl rfl rfl fun _ => rfl
  | identified hw =>
    exact goes (h.phase_of_meshMetadata hw) (by decide) (by decide) rfl rfl rfl fun _ => rfl
  | notifying hp | prepared hp | started hp | transferred hp =>
    exact goes hp (by decide) (by decide) rfl rfl rfl fun _ => rfl
  | verified =>
    have hs : Concordant s s.cancelTimer := ⟨rfl, rfl, rfl, rfl⟩
    exact hpoised.conduct_complete (hs.keeps hc.keeps)
  | rebooted | gaveUp =>
    have hs (e : Event) : Concordant s (s.noting e).cancelTimer :=
      ⟨by simp [cancelTimer], by simp [cancelTimer], by simp [cancelTimer], by simp [cancelTimer]⟩
    exact hpoised.conduct_complete ((hs _).keeps hc.keeps)

theorem Failure.conduct {cause : Cause} (ha : Failure s e s' cause p) :
    Conduct ((s'.recordError cause).proceed p).session
      (k ++ Trace.talk ((s'.recordError cause).proceed p).effects) := by
  have hpoised := ha.poised h hf
  have hs := ha.concordant
  obtain rfl | rfl := ha.gives_up
  · have hcan := ha.canAbort rfl
    obtain ⟨h1, h2⟩ := Phase.between_of_canAbort hcan
    obtain ⟨image, hi, hst, hvar, rfl⟩ := hc.of_onWay h1 h2
    refine hpoised.conduct_abort (hs.image.trans hi)
      (hs.scripted (scripted_of_stands h1 h2 hst hvar)) ?_
    rw [hs.mode]
    exact prepare_mem_made image hcan
  · exact hpoised.conduct_complete (hs.keeps hc.keeps)

theorem Reply.conduct {t : Turn} (hr : Reply s e t) :
    Conduct t.session (k ++ Trace.talk t.effects) := by
  -- what only waits or marks the books makes no call of the script
  have stays {s' : Session} (hs : Concordant s s') (hp : s'.phase = s.phase)
      (hg : s.guard.connection = false → s'.guard.connection = false) :
      Conduct s' (k ++ []) := by
    rw [List.append_nil]
    exact hs.conduct hp hg hc
  cases hr with
  | rest =>
    have hs : Concordant s (s.noting e) := ⟨by simp, by simp, by simp, by simp⟩
    exact stays hs (s.phase_noting e) (s.connection_noting e)
  | advance ha =>
    rw [talk_after ha.dealings]
    exact ha.conduct h hf hc
  | failure ha => exact ha.conduct h hf hc
  | closing =>
    refine stays ⟨?_, ?_, ?_, ?_⟩ ?_ fun hg => ?_
    · simp
    · simp
    · simp
    · simp
    · simp
    · simpa using s.connection_noting _ hg
  | written => exact stays ⟨rfl, rfl, rfl, rfl⟩ rfl id
  | asks => exact stays ⟨rfl, rfl, rfl, rfl⟩ rfl id
  | @next image d size count response hp hi hd pos ht lt =>
    obtain ⟨image', hi', -, hvar, rfl⟩ := hc.of_onWay (by rw [hp]; decide) (by rw [hp]; decide)
    obtain rfl : image = image' := Option.some.inj (hi.symm.trans hi')
    rw [talk_after s.dealings_chunkReport]
    have hphase : (s.acknowledged.armTimer.sending image size (count + 1)).phase
        = .dataTransfer := hp
    show Conduct (s.acknowledged.armTimer.sending image size (count + 1))
      (_ ++ [.write .data (image.chunk size (count + 1))])
    refine .onWay hi (by rw [hphase]; decide) (by rw [hphase]; decide) ?_ ?_ ?_
    · rw [hphase]
      exact ⟨size, count + 1, pos, lt, rfl⟩
    · rw [hphase, ← hp]
      exact hvar
    · have hmade : (s.acknowledged.armTimer.sending image size (count + 1)).made image .dataTransfer
          = s.made image .dataTransfer := made_congr (share_sending rfl rfl)
      rw [hphase, hp, hmade]
      simp [share, ht, sending, Image.chunks_succ]
  | overflow => exact stays ⟨rfl, rfl, rfl, rfl⟩ rfl fun _ => rfl

/-- Every event keeps the conduct, also one over which the session breaks down. -/
theorem Step.conduct {t : Turn} (hs : Step s e t) :
    Conduct t.session (k ++ Trace.talk t.effects) := by
  cases hs with
  | reply _ hr => exact hr.conduct h hf hc
  | stale =>
    show Conduct s (k ++ [])
    rwa [List.append_nil]
  | expired hd he hr =>
    have hfired : Concordant s { s with timer := s.timer.fire } := ⟨rfl, rfl, rfl, rfl⟩
    rw [talk_after rfl]
    exact hr.conduct (h.withTimer (h.not_idle_of_due hd) s.timer.fire) hf
      (hfired.conduct rfl id hc)

omit hf in
theorem Sound.conduct (e : Event) :
    Conduct (s.handle e).session (k ++ Trace.talk (s.handle e).effects) := by
  cases hf : s.finished with
  | true =>
    rw [handle_of_finished hf]
    show Conduct s (k ++ [])
    rwa [List.append_nil]
  | false => exact (step_complete h hf e).conduct h hf hc

end steps

theorem Conduct.fresh (config : Config) (mode : Mode) (image : Option Image)
    (device : Option Device) (collaborators : Collaborators) :
    Conduct (fresh config mode image device collaborators {}) [] :=
  .unbegun rfl rfl rfl

theorem run_event {s : Session} {e : Event} {es : List Event} (hc : (s.handle e).crash? = none) :
    s.run (e :: es) = ((s.handle e).session.run es).after (s.handle e).effects := by
  rw [run]
  split
  · next c hr => exact absurd hr (Turn.reaction_ne_crash hc c)
  · rfl

theorem run_crash {s : Session} {e : Event} {es : List Event} {c : Crash}
    (hc : (s.handle e).crash? = some c) : s.run (e :: es) = s.handle e := by
  rw [run, Turn.reaction_of_crash? hc]

/-- The calls of a run keep to the script. -/
theorem Sound.conduct_run {s : Session} (h : s.Sound) {k : List DeviceCall} (hc : Conduct s k)
    (es : List Event) : Conduct (s.run es).session (k ++ Trace.talk (s.run es).effects) := by
  induction es generalizing s k with
  | nil =>
    show Conduct s (k ++ [])
    rwa [List.append_nil]
  | cons e es ih =>
    have hstep := h.conduct hc e
    cases hx : (s.handle e).crash? with
    | some c => rwa [run_crash hx]
    | none =>
      rw [run_event hx, Turn.effects_after, Trace.talk_append, ← List.append_assoc]
      exact ih (h.handle e hx) hstep

end Session
end OtaUpgrade
