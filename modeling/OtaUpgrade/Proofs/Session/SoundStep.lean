import Mathlib
import OtaUpgrade.Proofs.Session.Complete

/-!
An event keeps a session sound, unless it breaks the session down (`Sound.handle`). On its way the
session enters phases: `Poised` is what a phase takes, `Halt` and `Slip` list the ways of entering
it, and `Landing` says where a session can come to rest that does. From both follows that it is
sound again where it rests.
-/
namespace OtaUpgrade

namespace Transfer

/-- The books with which a phase is entered. The transfer is entered with nothing sent. -/
def Meets (image : Image) (t : Transfer) (p : Phase) : Prop :=
  match p with
  | .dataTransfer => Stands image t .startDownload
  | p => Stands image t p

theorem Meets.books {image : Image} {t : Transfer} {p : Phase} (h : Meets image t p) :
    Books image t := by
  unfold Meets at h
  split at h <;> exact h.books

end Transfer

namespace Session

/-- A session that is about to enter a phase has what the phase takes. -/
structure Poised (s : Session) (p : Phase) : Prop where
  unfinished : s.finished = false
  imaged : p ≠ .connect → p ≠ .complete → ∃ image, s.image = some image
  equipped : p ≠ .connect → p ≠ .complete → ∃ d, s.device = some d
  meets : ∀ image, s.image = some image → s.transfer.Meets image p
  abort : p = .abort → s.error.isSome = true
  variant : p = .readAppInfo → s.variant.isSome = true
  notIdle : p ≠ .idle

/-- The ways of entering a phase and coming to rest there, or breaking down. -/
inductive Halt (s : Session) : Phase → Turn → Prop where
  /-- A connection that someone else has requested is only waited for. -/
  | connecting {image : Image} {d : Device} (hi : s.image = some image) (hd : s.device = some d)
      (hg : s.guard.has .connection = true) :
      Halt s .connect ((s.arrive .connect).stay [(s.arrive .connect).arrival])
  | connect {image : Image} {d : Device} (hi : s.image = some image) (hd : s.device = some d)
      (hg : s.guard.has .connection = false) :
      Halt s .connect
        ((({ s.arrive .connect with guard := s.guard.begin .connection } : Session).ask d
          .connect).after [(s.arrive .connect).arrival, .bind])
  | discover {d : Device} (hd : s.device = some d) :
      Halt s .serviceDiscover
        (((s.arrive .serviceDiscover).ask d .discover).after
          [(s.arrive .serviceDiscover).arrival])
  | read {v : Variant} {d : Device} (hv : s.variant = some v) (hd : s.device = some d)
      (hc : v.has .appInfo = true) :
      Halt s .readAppInfo
        ((({ s.arrive .readAppInfo with wait := .appInfo } : Session).ask d
          (.read .appInfo)).after [(s.arrive .readAppInfo).arrival])
  | askMesh {v : Variant} {address : UInt16} (hv : s.variant = some v)
      (hc : v.has .appInfo = false) (ha : s.askable? = some address) :
      Halt s .readAppInfo
        (({ s.arrive .readAppInfo with
            guard := s.guard.begin .componentMetadata
            wait := .meshMetadata } : Session).stay
          [(s.arrive .readAppInfo).arrival, .askMesh address])
  | notify {d : Device} (hd : s.device = some d) :
      Halt s .enableNotification
        (((s.arrive .enableNotification).ask d (.enableNotifications true)).after
          [(s.arrive .enableNotification).arrival])
  | prepare {d : Device} (hd : s.device = some d) :
      Halt s .prepareForDownload
        (((s.commanding .prepareForDownload).ask d
          (.write .controlPoint s.mode.prepareCommand.encode)).after
          [(s.arrive .prepareForDownload).arrival])
  | start {d : Device} (hd : s.device = some d) :
      Halt s .startDownload
        (((s.commanding .startDownload).ask d
          (.write .controlPoint
            (Command.start (UInt32.ofNat s.transfer.imageSize)).encode)).after
          [(s.arrive .startDownload).arrival])
  | transfer {image : Image} {d : Device} {size : Nat} (hi : s.image = some image)
      (hd : s.device = some d) (pos : 0 < size) (ht : s.transfer = .after image size 0 0) :
      Halt s .dataTransfer
        ((((s.arrive .dataTransfer).sending image size 0).ask d
          (.write .data (image.chunk size 0))).after [(s.arrive .dataTransfer).arrival])
  | verify {image : Image} {d : Device} (hi : s.image = some image) (hd : s.device = some d) :
      Halt s .verify
        (((s.commanding .verify).ask d
          (.write .controlPoint (Command.verify image.crc).encode)).after
          [(s.arrive .verify).arrival])
  | abort {d : Device} (hd : s.device = some d) (hc : s.connected = true) :
      Halt s .abort
        (((s.commanding .abort).ask d (.write .controlPoint Command.abort.encode)).after
          [(s.arrive .abort).arrival, .report (.log .warn "Aborting upgrade")])
  | broken (hb : s.breaksOnParting = true) :
      Halt s .complete
        { session := s.arrive .complete
          effects := s.parting.map .call
          reaction := .crash .device }
  | closed (hb : s.breaksOnParting = false) :
      Halt s .complete (s.closed.stay (s.parting.map .call ++ s.farewell))

/-- The ways of entering a phase and going on to another at once, each with the session about to
enter that. -/
inductive Slip (s : Session) : Phase → Phase → Session → Turn → Prop where
  | noImage (hi : s.image = none) :
      Slip s .connect .complete ((s.arrive .connect).recordError .noImage)
        (((s.arrive .connect).failTo .noImage .complete).after [(s.arrive .connect).arrival])
  | noDevice {image : Image} (hi : s.image = some image) (hd : s.device = none) :
      Slip s .connect .complete ((s.arrive .connect).recordError .noDevice)
        (((s.arrive .connect).failTo .noDevice .complete).after [(s.arrive .connect).arrival])
  | skip {v : Variant} (hv : s.variant = some v) (hc : v.has .appInfo = false)
      (ha : s.askable? = none) :
      Slip s .readAppInfo .enableNotification (s.arrive .readAppInfo)
        (((s.arrive .readAppInfo).moveTo .enableNotification).after
          [(s.arrive .readAppInfo).arrival])
  | unlinked (hc : s.connected = false) :
      Slip s .abort .complete (s.arrive .abort)
        (((s.arrive .abort).moveTo .complete).after [(s.arrive .abort).arrival])

/-- Every turn by which a phase is entered. -/
inductive Entrance (s : Session) : Phase → Turn → Prop where
  | halts {p : Phase} {t : Turn} (h : Halt s p t) : Entrance s p t
  | slips {p q : Phase} {r : Session} {t : Turn} (h : Slip s p q r t) : Entrance s p t

/-- What can come of entering a phase, once the session is at rest. -/
inductive Landing (s : Session) : Phase → Turn → Prop where
  | noImage (hi : s.image = none) :
      Landing s .connect
        ((((s.arrive .connect).recordError .noImage).proceed .complete).after
          [(s.arrive .connect).arrival])
  | noDevice {image : Image} (hi : s.image = some image) (hd : s.device = none) :
      Landing s .connect
        ((((s.arrive .connect).recordError .noDevice).proceed .complete).after
          [(s.arrive .connect).arrival])
  /-- A connection that someone else has requested is only waited for. -/
  | connecting {image : Image} {d : Device} (hi : s.image = some image) (hd : s.device = some d)
      (hg : s.guard.has .connection = true) :
      Landing s .connect ((s.arrive .connect).stay [(s.arrive .connect).arrival])
  | connect {image : Image} {d : Device} (hi : s.image = some image) (hd : s.device = some d)
      (hg : s.guard.has .connection = false) :
      Landing s .connect
        ((({ s.arrive .connect with guard := s.guard.begin .connection } : Session).ask d
          .connect).after [(s.arrive .connect).arrival, .bind])
  | discover {d : Device} (hd : s.device = some d) :
      Landing s .serviceDiscover
        (((s.arrive .serviceDiscover).ask d .discover).after
          [(s.arrive .serviceDiscover).arrival])
  | read {v : Variant} {d : Device} (hv : s.variant = some v) (hd : s.device = some d)
      (hc : v.has .appInfo = true) :
      Landing s .readAppInfo
        ((({ s.arrive .readAppInfo with wait := .appInfo } : Session).ask d
          (.read .appInfo)).after [(s.arrive .readAppInfo).arrival])
  | askMesh {v : Variant} {address : UInt16} (hv : s.variant = some v)
      (hc : v.has .appInfo = false) (ha : s.askable? = some address) :
      Landing s .readAppInfo
        (({ s.arrive .readAppInfo with
            guard := s.guard.begin .componentMetadata
            wait := .meshMetadata } : Session).stay
          [(s.arrive .readAppInfo).arrival, .askMesh address])
  | skip {v : Variant} (hv : s.variant = some v) (hc : v.has .appInfo = false)
      (ha : s.askable? = none) :
      Landing s .readAppInfo
        (((s.arrive .readAppInfo).proceed .enableNotification).after
          [(s.arrive .readAppInfo).arrival])
  | notify {d : Device} (hd : s.device = some d) :
      Landing s .enableNotification
        (((s.arrive .enableNotification).ask d (.enableNotifications true)).after
          [(s.arrive .enableNotification).arrival])
  | prepare {d : Device} (hd : s.device = some d) :
      Landing s .prepareForDownload
        (((s.commanding .prepareForDownload).ask d
          (.write .controlPoint s.mode.prepareCommand.encode)).after
          [(s.arrive .prepareForDownload).arrival])
  | start {d : Device} (hd : s.device = some d) :
      Landing s .startDownload
        (((s.commanding .startDownload).ask d
          (.write .controlPoint
            (Command.start (UInt32.ofNat s.transfer.imageSize)).encode)).after
          [(s.arrive .startDownload).arrival])
  | transfer {image : Image} {d : Device} {size : Nat} (hi : s.image = some image)
      (hd : s.device = some d) (pos : 0 < size) (ht : s.transfer = .after image size 0 0) :
      Landing s .dataTransfer
        ((((s.arrive .dataTransfer).sending image size 0).ask d
          (.write .data (image.chunk size 0))).after [(s.arrive .dataTransfer).arrival])
  | verify {image : Image} {d : Device} (hi : s.image = some image) (hd : s.device = some d) :
      Landing s .verify
        (((s.commanding .verify).ask d
          (.write .controlPoint (Command.verify image.crc).encode)).after
          [(s.arrive .verify).arrival])
  | abort {d : Device} (hd : s.device = some d) (hc : s.connected = true) :
      Landing s .abort
        (((s.commanding .abort).ask d (.write .controlPoint Command.abort.encode)).after
          [(s.arrive .abort).arrival, .report (.log .warn "Aborting upgrade")])
  | unlinked (hc : s.connected = false) :
      Landing s .abort
        (((s.arrive .abort).proceed .complete).after [(s.arrive .abort).arrival])
  | broken (hb : s.breaksOnParting = true) :
      Landing s .complete
        { session := s.arrive .complete
          effects := s.parting.map .call
          reaction := .crash .device }
  | closed (hb : s.breaksOnParting = false) :
      Landing s .complete (s.closed.stay (s.parting.map .call ++ s.farewell))

/-- A phase is entered in no other way. -/
theorem entrance_complete {s : Session} {p : Phase} (h : s.Poised p) :
    Entrance s p (s.enter p) := by
  cases p with
  | idle => exact absurd rfl h.notIdle
  | connect =>
    cases hi : s.image with
    | none =>
      rw [enter_connect_noImage hi]
      exact .slips (.noImage hi)
    | some image =>
      cases hd : s.device with
      | none =>
        rw [enter_connect_noDevice hi hd]
        exact .slips (.noDevice hi hd)
      | some d =>
        cases hg : s.guard.has .connection with
        | true =>
          rw [enter_connect_busy hi hd hg]
          exact .halts (.connecting hi hd hg)
        | false =>
          rw [enter_connect hi hd hg]
          exact .halts (.connect hi hd hg)
  | serviceDiscover =>
    obtain ⟨d, hd⟩ := h.equipped (by decide) (by decide)
    rw [enter_serviceDiscover hd]
    exact .halts (.discover hd)
  | readAppInfo =>
    obtain ⟨d, hd⟩ := h.equipped (by decide) (by decide)
    obtain ⟨v, hv⟩ := Option.isSome_iff_exists.mp (h.variant rfl)
    cases hc : v.has .appInfo with
    | true =>
      rw [enter_readAppInfo hv hd hc]
      exact .halts (.read hv hd hc)
    | false =>
      cases ha : s.askable? with
      | none =>
        rw [enter_readAppInfo_skips hv hd hc ha]
        exact .slips (.skip hv hc ha)
      | some address =>
        rw [enter_readAppInfo_asks hv hd hc ha]
        exact .halts (.askMesh hv hc ha)
  | enableNotification =>
    obtain ⟨d, hd⟩ := h.equipped (by decide) (by decide)
    rw [enter_enableNotification hd]
    exact .halts (.notify hd)
  | prepareForDownload =>
    obtain ⟨d, hd⟩ := h.equipped (by decide) (by decide)
    rw [enter_prepareForDownload hd]
    exact .halts (.prepare hd)
  | startDownload =>
    obtain ⟨d, hd⟩ := h.equipped (by decide) (by decide)
    rw [enter_startDownload hd]
    exact .halts (.start hd)
  | dataTransfer =>
    obtain ⟨d, hd⟩ := h.equipped (by decide) (by decide)
    obtain ⟨image, hi⟩ := h.imaged (by decide) (by decide)
    obtain ⟨size, pos, ht⟩ := h.meets image hi
    rw [enter_dataTransfer hi hd ht pos]
    exact .halts (.transfer hi hd pos ht)
  | verify =>
    obtain ⟨d, hd⟩ := h.equipped (by decide) (by decide)
    obtain ⟨image, hi⟩ := h.imaged (by decide) (by decide)
    rw [enter_verify hd (Transfer.Stands.crc_final (h.meets image hi))]
    exact .halts (.verify hi hd)
  | abort =>
    obtain ⟨d, hd⟩ := h.equipped (by decide) (by decide)
    cases hc : s.connected with
    | true =>
      rw [enter_abort hd hc]
      exact .halts (.abort hd hc)
    | false =>
      rw [enter_abort_unlinked hc]
      exact .slips (.unlinked hc)
  | complete =>
    rw [enter_complete h.unfinished]
    cases hb : s.breaksOnParting with
    | true => exact .halts (.broken hb)
    | false => exact .halts (.closed hb)

/-- A session that halts leaves nothing to follow. -/
theorem Halt.reach {s : Session} {p : Phase} {t : Turn} (h : Halt s p t) :
    t.reaction.reach = 0 := by
  cases h with
  | broken => rfl
  | _ => simp

theorem Slip.settle_eq {s r : Session} {p q : Phase} {t : Turn} (h : Slip s p q r t) :
    settle t = (r.proceed q).after t.effects := by
  cases h with
  | noImage | noDevice =>
    rw [settle_after, settle_failTo]
    rfl
  | skip | unlinked =>
    rw [settle_after, settle_moveTo]
    rfl

/-- Where a session comes to rest once the turn by which it enters a phase is followed. -/
theorem Entrance.landing {s : Session} {p : Phase} {t : Turn} (h : Entrance s p t) :
    Landing s p (settle t) := by
  cases h with
  | halts h =>
    rw [settle_of_reach h.reach]
    cases h with
    | connecting hi hd hg => exact .connecting hi hd hg
    | connect hi hd hg => exact .connect hi hd hg
    | discover hd => exact .discover hd
    | read hv hd hc => exact .read hv hd hc
    | askMesh hv hc ha => exact .askMesh hv hc ha
    | notify hd => exact .notify hd
    | prepare hd => exact .prepare hd
    | start hd => exact .start hd
    | transfer hi hd pos ht => exact .transfer hi hd pos ht
    | verify hi hd => exact .verify hi hd
    | abort hd hc => exact .abort hd hc
    | broken hb => exact .broken hb
    | closed hb => exact .closed hb
  | slips h =>
    rw [h.settle_eq]
    cases h with
    | noImage hi => exact .noImage hi
    | noDevice hi hd => exact .noDevice hi hd
    | skip hv hc ha => exact .skip hv hc ha
    | unlinked hc => exact .unlinked hc

/-- Nothing else comes of entering a phase. -/
theorem landing_complete {s : Session} {p : Phase} (h : s.Poised p) :
    Landing s p (s.proceed p) :=
  (entrance_complete h).landing

/-! ## What comes is sound -/

theorem Sound.of_underWay {s : Session} (hu : s.phase.underWay = true)
    (hw : s.phase.awaits s.wait = true) (hf : s.finished = false)
    (hi : ∃ image, s.image = some image) (hd : ∃ d, s.device = some d)
    (hs : ∀ image, s.image = some image → s.transfer.Stands image s.phase)
    (ha : s.phase = .abort → s.error.isSome = true) : s.Sound where
  awaits := hw
  finished_iff := by
    constructor
    · intro h
      rw [hf] at h
      cases h
    · intro h
      rw [h] at hu
      cases hu
  idle h := by
    rw [h] at hu
    cases hu
  imaged _ := hi
  equipped _ := hd
  stands := hs
  abort := ha

section poised

variable {s : Session} {p : Phase} (h : s.Poised p)

include h

/-- Whatever phase a session was about to enter, it can go to the end instead. -/
theorem Poised.arrive_complete : (s.arrive p).Poised .complete where
  unfinished := h.unfinished
  imaged _ hn := absurd rfl hn
  equipped _ hn := absurd rfl hn
  meets image hi := (h.meets image hi).books
  abort := nofun
  variant := nofun
  notIdle := nofun

theorem Poised.recordError (cause : Cause) : (s.recordError cause).Poised p where
  unfinished := by simpa using h.unfinished
  imaged := by simpa using h.imaged
  equipped := by simpa using h.equipped
  meets := by simpa using h.meets
  abort _ := by simp
  variant := by simpa using h.variant
  notIdle := h.notIdle

theorem Poised.arrive_notify (hp : p = .readAppInfo) :
    (s.arrive p).Poised .enableNotification where
  unfinished := h.unfinished
  imaged _ _ := h.imaged (by simp [hp]) (by simp [hp])
  equipped _ _ := h.equipped (by simp [hp]) (by simp [hp])
  meets image hi := by
    have := h.meets image hi
    rwa [hp] at this
  abort := nofun
  variant := nofun
  notIdle := nofun

end poised

theorem Poised.sound_complete {s : Session} (h : s.Poised .complete)
    (hc : (s.proceed .complete).crash? = none) : (s.proceed .complete).session.Sound := by
  have hl := landing_complete h
  generalize s.proceed .complete = t at hl hc
  cases hl with
  | broken => cases hc
  | closed =>
    exact ⟨rfl, ⟨fun _ => rfl, fun _ => rfl⟩, nofun, nofun, nofun, h.meets, nofun⟩

theorem Poised.sound_enableNotification {s : Session} (h : s.Poised .enableNotification) :
    (s.proceed .enableNotification).session.Sound := by
  obtain ⟨d, hd⟩ := h.equipped (by decide) (by decide)
  rw [proceed, enter_enableNotification hd, settle_after, settle_ask]
  exact .of_underWay rfl rfl h.unfinished (h.imaged (by decide) (by decide)) ⟨d, hd⟩ h.meets nofun

/-- Entering a phase leaves a session sound, unless it breaks down. -/
theorem Poised.sound {s : Session} {p : Phase} (h : s.Poised p)
    (hc : (s.proceed p).crash? = none) : (s.proceed p).session.Sound := by
  have hl := landing_complete h
  generalize s.proceed p = t at hl hc
  -- a landing that leads on to another phase is left to the two lemmas above
  cases hl with
  | noImage | noDevice => exact (h.arrive_complete.recordError _).sound_complete hc
  | connecting hi hd | connect hi hd =>
    exact .of_underWay rfl rfl h.unfinished ⟨_, hi⟩ ⟨_, hd⟩ h.meets nofun
  | discover hd | read _ hd | prepare hd | start hd | notify hd =>
    exact .of_underWay rfl rfl h.unfinished (h.imaged (by decide) (by decide)) ⟨_, hd⟩ h.meets nofun
  | askMesh =>
    exact .of_underWay rfl rfl h.unfinished (h.imaged (by decide) (by decide))
      (h.equipped (by decide) (by decide)) h.meets nofun
  | skip => exact (h.arrive_notify rfl).sound_enableNotification
  | @transfer image d size hi hd pos ht =>
    refine .of_underWay rfl rfl h.unfinished ⟨_, hi⟩ ⟨_, hd⟩ ?_ nofun
    intro image' hi'
    obtain rfl : image = image' := Option.some.inj (hi.symm.trans hi')
    exact ⟨size, 0, pos, by rw [Nat.zero_mul]; exact image.size_pos, rfl⟩
  | verify hi hd => exact .of_underWay rfl rfl h.unfinished ⟨_, hi⟩ ⟨_, hd⟩ h.meets nofun
  | abort hd =>
    exact .of_underWay rfl rfl h.unfinished (h.imaged (by decide) (by decide)) ⟨_, hd⟩ h.meets
      fun _ => h.abort rfl
  | unlinked => exact h.arrive_complete.sound_complete hc
  | broken => cases hc
  | closed =>
    exact ⟨rfl, ⟨fun _ => rfl, fun _ => rfl⟩, nofun, nofun, nofun, h.meets, nofun⟩

section sound

variable {s : Session} (h : s.Sound)

include h

/-- A sound session in a phase other than idle and complete, on its way to another phase. -/
theorem Sound.poised {s' : Session} {p : Phase} (hf : s'.finished = false)
    (hu : s.phase.underWay = true) (hi : s'.image = s.image) (hd : s'.device = s.device)
    (hm : ∀ image, s.image = some image → s.transfer.Stands image s.phase →
      s'.transfer.Meets image p)
    (ha : p = .abort → s'.error.isSome = true) (hv : p = .readAppInfo → s'.variant.isSome = true)
    (hp : p ≠ .idle) : s'.Poised p where
  unfinished := hf
  imaged _ _ := hi ▸ h.imaged hu
  equipped _ _ := hd ▸ h.equipped hu
  meets image hi' := hm image (hi ▸ hi') (h.stands image (hi ▸ hi'))
  abort := ha
  variant := hv
  notIdle := hp

/-- Whatever it has, a session can go to the end. -/
theorem Sound.poised_complete {s' : Session} (hf : s'.finished = false)
    (hi : s'.image = s.image) (ht : s'.transfer = s.transfer) : s'.Poised .complete where
  unfinished := hf
  imaged _ hn := absurd rfl hn
  equipped _ hn := absurd rfl hn
  meets image hi' := by
    rw [ht]
    exact (h.stands image (hi ▸ hi')).books
  abort := nofun
  variant := nofun
  notIdle := nofun

/-- Going on takes a session to a phase that it has what it takes for. -/
theorem Advance.poised (hf : s.finished = false) {e : Event} {s' : Session} {es : List Effect}
    {p : Phase} (ha : Advance s e s' es p) : s'.Poised p := by
  have under {q : Phase} (hp : s.phase = q) (hq : q.underWay = true) : s.phase.underWay = true := by
    rw [hp]
    exact hq
  -- but for connecting and the last acknowledgement the books are handed on as they are
  cases ha with
  | start hp =>
    refine ⟨hf, fun hn => absurd rfl hn, fun hn => absurd rfl hn, ?_, nofun, nofun, nofun⟩
    intro image hi
    have := h.stands image hi
    rwa [hp] at this
  | connected hp hd hs pos =>
    refine h.poised hf (under hp rfl) rfl rfl ?_ nofun nofun nofun
    intro image hi ht
    rw [hp] at ht
    have ht : s.transfer = .after image 0 0 0 := ht
    exact ⟨_, pos, by rw [ht, Transfer.after_chunkSize]⟩
  | discovered hp =>
    refine h.poised hf (under hp rfl) rfl rfl ?_ nofun (fun _ => rfl) nofun
    intro image hi ht
    rwa [hp] at ht
  | informed hw | uninformed hw =>
    have hp := h.phase_of_appInfo hw
    refine h.poised hf (under hp rfl) rfl rfl ?_ nofun nofun nofun
    intro image hi ht
    rwa [hp] at ht
  | identified hw =>
    have hp := h.phase_of_meshMetadata hw
    refine h.poised hf (under hp rfl) rfl rfl ?_ nofun nofun nofun
    intro image hi ht
    rwa [hp] at ht
  | notifying hp | prepared hp | started hp =>
    refine h.poised hf (under hp rfl) rfl rfl ?_ nofun nofun nofun
    intro image hi ht
    rwa [hp] at ht
  | transferred hp hall =>
    refine h.poised hf (under hp rfl) rfl rfl ?_ nofun nofun nofun
    intro image hi ht
    rw [hp] at ht
    obtain ⟨size, count, pos, lt, ht⟩ := ht
    have hack := transfer_acknowledged lt ht
    rw [hack, Transfer.isDone_after_self] at hall
    exact ⟨size, count, pos, lt, hall, hack⟩
  | verified hp | rebooted hp | gaveUp hp =>
    exact h.poised_complete (by simpa [cancelTimer] using hf) (by simp [cancelTimer])
      (by simp [cancelTimer])

/-- Failing takes a session to its end, or to giving up where there is a download. -/
theorem Failure.poised (hf : s.finished = false) {e : Event} {s' : Session} {cause : Cause}
    {p : Phase} (ha : Failure s e s' cause p) : (s'.recordError cause).Poised p := by
  have ends {t : Session} (hft : t.finished = s.finished) (hi : t.image = s.image)
      (ht : t.transfer = s.transfer) : (t.recordError cause).Poised .complete :=
    (h.poised_complete (by rw [hft, hf]) hi ht).recordError cause
  have givesUp {t : Session} (hu : s.phase.underWay = true) (hft : t.finished = s.finished)
      (hi : t.image = s.image) (hd : t.device = s.device) (ht : t.transfer = s.transfer) :
      (t.recordError cause).Poised .abort :=
    h.poised (by simpa [hft] using hf) hu (by simpa using hi) (by simpa using hd)
      (fun _ _ hs => by rw [transfer_recordError, ht]; exact hs.books) (fun _ => by simp) nofun
      nofun
  -- giving up and ending take whatever books there are
  cases ha with
  | mtu => exact ends rfl rfl rfl
  | unconnected => exact ends rfl rfl rfl
  | disconnected hu =>
    split
    · exact ends rfl rfl rfl
    · exact givesUp hu rfl rfl rfl rfl
  | unsupported | silent | unprepared | stopped => exact ends rfl rfl rfl
  | unstarted hp | unverified hp | chunk hp =>
    exact givesUp (by rw [hp]; rfl) rfl rfl rfl rfl
  | unwritten hc =>
    have hu := (underWay_of_command (Option.isSome_iff_exists.mpr ⟨_, hc⟩)).1
    exact givesUp hu rfl rfl rfl rfl
  | stoppedDownload hp =>
    have hu : s.phase.underWay = true := by
      cases hq : s.phase <;> rw [hq] at hp <;> first | rfl | cases hp
    exact givesUp hu rfl rfl rfl rfl

/-- Only what the phase waits for can change, or what it keeps of any event. -/
theorem Sound.stay {s' : Session} (hi : s'.image = s.image) (hd : s'.device = s.device)
    (hp : s'.phase = s.phase) (hw : s'.wait = s.wait) (ht : s'.transfer = s.transfer)
    (he : s'.error = s.error) (hf : s'.finished = s.finished)
    (hidle : s.phase = .idle →
      s'.running = false ∧ s'.connected = false ∧ s'.timer.armed = none) : s'.Sound where
  awaits := by rw [hp, hw]; exact h.awaits
  finished_iff := by rw [hp, hf]; exact h.finished_iff
  idle := by rw [hp]; exact hidle
  imaged := by rw [hp, hi]; exact h.imaged
  equipped := by rw [hp, hd]; exact h.equipped
  stands := by rw [hi, ht, hp]; exact h.stands
  abort := by rw [hp, he]; exact h.abort

theorem Reply.sound (hf : s.finished = false) {e : Event} {t : Turn} (hr : Reply s e t)
    (hc : t.crash? = none) : t.session.Sound := by
  cases hr with
  | rest hx =>
    show (s.noting e).Sound
    refine h.stay (by simp) (by simp) (by simp) (by simp) (by simp) (by simp) (by simp) ?_
    intro hp
    have hidle := h.idle hp
    refine ⟨?_, ?_, by simpa using hidle.2.2⟩
    · show (s.noting e).running = false
      unfold noting
      split <;> exact hidle.1
    · show (s.noting e).connected = false
      unfold noting
      split <;> first | rfl | exact hidle.2.1
  | advance ha => exact (ha.poised h hf).sound hc
  | failure ha => exact (ha.poised h hf).sound hc
  | @closing d dfu hu hb hd =>
    have hs : (s.noting (.abort dfu)).Sound := h.stay rfl rfl rfl rfl rfl rfl rfl h.idle
    exact .of_underWay (by simpa using hu) (by simpa using hs.awaits) (by simpa using hf)
      (by simpa using h.imaged hu) (by simpa using h.equipped hu) (by simpa using h.stands)
      (fun _ => by simp)
  | written hw =>
    obtain ⟨hu, hr⟩ := underWay_of_command hw
    exact .of_underWay hu hr hf (h.imaged hu) (h.equipped hu) h.stands h.abort
  | asks hw =>
    have hp := h.phase_of_appInfo hw
    have hu : s.phase.underWay = true := by
      rw [hp]
      rfl
    have hr : s.phase.awaits .meshMetadata = true := by
      rw [hp]
      rfl
    exact .of_underWay hu hr hf (h.imaged hu) (h.equipped hu) h.stands h.abort
  | @next image d size count response hp hi hd pos ht lt =>
    have hu : s.phase.underWay = true := by
      rw [hp]
      rfl
    refine .of_underWay hu (by show s.phase.awaits .chunkAck = true; rw [hp]; rfl) hf ⟨_, hi⟩
      ⟨_, hd⟩ ?_ h.abort
    intro image' hi'
    obtain rfl : image = image' := Option.some.inj (hi.symm.trans hi')
    show Transfer.Stands image (.after image size (count + 1) (count + 1 + 1)) s.phase
    rw [hp]
    exact ⟨size, count + 1, pos, lt, rfl⟩
  | overflow => cases hc

/-- What holds between events holds after the next one too. -/
theorem Step.sound (hf : s.finished = false) {e : Event} {t : Turn} (hs : Step s e t)
    (hc : t.crash? = none) : t.session.Sound := by
  cases hs with
  | reply _ hr => exact hr.sound h hf hc
  | stale => exact h
  | expired hd he hr => exact hr.sound (h.withTimer (h.not_idle_of_due hd) s.timer.fire) hf hc

theorem Sound.handle (e : Event) (hc : (s.handle e).crash? = none) :
    (s.handle e).session.Sound := by
  cases hf : s.finished with
  | true =>
    rw [handle_of_finished hf]
    exact h
  | false => exact (step_complete h hf e).sound h hf hc

end sound

/-! ## What never changes -/

/-- Two sessions of one upgrade: same configuration, mode and image. -/
structure Alike (s s' : Session) : Prop where
  config : s'.config = s.config
  mode : s'.mode = s.mode
  image : s'.image = s.image

theorem Alike.refl (s : Session) : Alike s s := ⟨rfl, rfl, rfl⟩

theorem Alike.trans {a b c : Session} (h : Alike a b) (h' : Alike b c) : Alike a c :=
  ⟨h'.config.trans h.config, h'.mode.trans h.mode, h'.image.trans h.image⟩

theorem alike_recordError (s : Session) (cause : Cause) : Alike s (s.recordError cause) :=
  ⟨by simp, by simp, by simp⟩

theorem alike_noting (s : Session) (e : Event) : Alike s (s.noting e) :=
  ⟨by simp, by simp, by simp⟩

theorem alike_arrive (s : Session) (p : Phase) : Alike s (s.arrive p) := ⟨rfl, rfl, rfl⟩

theorem Poised.alike {s : Session} {p : Phase} (h : s.Poised p) :
    Alike s (s.proceed p).session := by
  have ends {r : Session} (hr : r.Poised .complete) : Alike r (r.proceed .complete).session := by
    have hl := landing_complete hr
    generalize r.proceed .complete = t at hl
    cases hl <;> exact ⟨rfl, rfl, rfl⟩
  have notifies {r : Session} (hr : r.Poised .enableNotification) :
      Alike r (r.proceed .enableNotification).session := by
    have hl := landing_complete hr
    generalize r.proceed .enableNotification = t at hl
    cases hl
    exact ⟨rfl, rfl, rfl⟩
  have hl := landing_complete h
  generalize s.proceed p = t at hl
  cases hl with
  | noImage | noDevice =>
    exact ((s.alike_arrive .connect).trans (alike_recordError _ _)).trans
      (ends (h.arrive_complete.recordError _))
  | skip => exact (s.alike_arrive .readAppInfo).trans (notifies (h.arrive_notify rfl))
  | unlinked => exact (s.alike_arrive .abort).trans (ends h.arrive_complete)
  | _ => exact ⟨rfl, rfl, rfl⟩

theorem Reply.alike {s : Session} (h : s.Sound) (hf : s.finished = false) {e : Event} {t : Turn}
    (hr : Reply s e t) : Alike s t.session := by
  cases hr with
  | rest => exact s.alike_noting e
  | @advance e s' es p ha =>
    refine Alike.trans ?_ (ha.poised h hf).alike
    cases ha with
    | gaveUp => exact ⟨by simp [cancelTimer], by simp [cancelTimer], by simp [cancelTimer]⟩
    | _ => exact ⟨rfl, rfl, rfl⟩
  | @failure e s' cause p ha =>
    refine Alike.trans (Alike.trans ?_ (s'.alike_recordError cause)) (ha.poised h hf).alike
    cases ha <;> exact ⟨rfl, rfl, rfl⟩
  | closing => exact (s.alike_noting _).trans (alike_recordError _ _)
  | _ => exact ⟨rfl, rfl, rfl⟩

/-- An upgrade keeps its configuration, mode and image. -/
theorem Sound.alike {s : Session} (h : s.Sound) (e : Event) : Alike s (s.handle e).session := by
  cases hf : s.finished with
  | true =>
    rw [handle_of_finished hf]
    exact .refl s
  | false =>
    have hs := step_complete h hf e
    generalize s.handle e = t at hs
    cases hs with
    | reply _ hr => exact hr.alike h hf
    | stale => exact .refl s
    | expired hd he hr =>
      have hfired : Alike s { s with timer := s.timer.fire } := ⟨rfl, rfl, rfl⟩
      exact hfired.trans (hr.alike (h.withTimer (h.not_idle_of_due hd) s.timer.fire) hf)

end Session
end OtaUpgrade
