import Mathlib
import OtaUpgrade.Proofs.Session.Accounts

/-!
Success is never reported falsely. An upgrade that ends without error has written the whole image
between exactly the commands of its mode, each command and chunk only after the answer that allows
it, and the peripheral has accepted the image. It may share its guard with others.
-/
namespace OtaUpgrade.Session

open Episode

/-- What an upgrade has done when it may report success. -/
structure Earned (mode : Mode) (image : Image) (size : Nat) (c : List Episode) : Prop where
  /-- The data writes are the image. -/
  data : (Trace.writes .data (deeds c)).flatten = image.bytes
  commands : Trace.writes .controlPoint (deeds c)
    = [mode.prepareCommand.encode, (Command.start (UInt32.ofNat image.size)).encode,
        (Command.verify image.crc).encode]
  started : Precedes (Asks · (.command (.start (UInt32.ofNat image.size))))
    (Granted .prepareForDownload) c
  sent : Precedes (∃ bytes, Asks · (.write .data bytes)) (Granted .startDownload) c
  /-- Verification was asked for once every chunk was acknowledged. -/
  verified : Precedes (Asks · (.command (.verify image.crc)))
    (fun b => acknowledgements b = (image.size + size - 1) / size) c
  confirmed : Confirmed c

/-! ## A session that breaks down does not finish -/

/-- Entering a phase finishes a session or breaks it down, but not both. -/
theorem Poised.crash?_of_finished {s : Session} {p : Phase} (h : s.Poised p)
    (hf : (s.proceed p).session.finished = true) : (s.proceed p).crash? = none := by
  have ends {r : Session} (hr : r.Poised .complete)
      (hf : (r.proceed .complete).session.finished = true) :
      (r.proceed .complete).crash? = none := by
    have hl := landing_complete hr
    have hu := hr.unfinished
    generalize r.proceed .complete = t at hl hf
    cases hl with
    | broken => exact absurd (hu.symm.trans hf) nofun
    | closed => rfl
  -- a session that waits is not finished
  have waits {b : Bool} (hb : b = s.finished) (hf : b = true) : False :=
    Bool.false_ne_true (h.unfinished.symm.trans (hb.symm.trans hf))
  have hl := landing_complete h
  generalize s.proceed p = t at hl hf
  cases hl with
  | noImage | noDevice => exact ends (h.arrive_complete.recordError _) hf
  | skip =>
    have hn := landing_complete (h.arrive_notify rfl)
    generalize (s.arrive .readAppInfo).proceed .enableNotification = u at hn hf
    cases hn
    exact (waits rfl hf).elim
  | unlinked => exact ends h.arrive_complete hf
  | broken => exact (waits rfl hf).elim
  | closed => rfl
  | _ => exact (waits rfl hf).elim

theorem Reply.crash?_of_finished {s : Session} (h : s.Sound) (hu : s.finished = false)
    {e : Event} {t : Turn} (hr : Reply s e t) (hf : t.session.finished = true) :
    t.crash? = none := by
  have waits {b : Bool} (hb : b = s.finished) (hf : b = true) : False :=
    Bool.false_ne_true (hu.symm.trans (hb.symm.trans hf))
  cases hr with
  | rest => exact (waits (s.finished_noting e) hf).elim
  | advance ha => exact (ha.poised h hu).crash?_of_finished hf
  | failure ha => exact (ha.poised h hu).crash?_of_finished hf
  | closing => exact (waits (by simp) hf).elim
  | _ => exact (waits rfl hf).elim

theorem Sound.crash?_of_finished {s : Session} (h : s.Sound) (e : Event)
    (hf : (s.handle e).session.finished = true) : (s.handle e).crash? = none := by
  cases hu : s.finished with
  | true =>
    rw [handle_of_finished hu]
    rfl
  | false =>
    have hs := step_complete h hu e
    generalize s.handle e = t at hs hf
    cases hs with
    | reply _ hr => exact hr.crash?_of_finished h hu hf
    | stale => rfl
    | expired hd he hr =>
      exact hr.crash?_of_finished (h.withTimer (h.not_idle_of_due hd) s.timer.fire) hu hf

/-- A life that comes to its end was not cut short. -/
theorem Sound.crash?_live {s : Session} (h : s.Sound) (hs : List Happening)
    (hf : (s.live hs).session.finished = true) : (s.live hs).crash? = none := by
  induction hs generalizing s with
  | nil => rfl
  | cons x hs ih =>
    cases x with
    | guard guard => exact ih (h.withGuard guard) hf
    | event e =>
      cases hx : (s.handle e).crash? with
      | some c =>
        rw [live_crash hx] at hf
        rw [h.crash?_of_finished e hf] at hx
        cases hx
      | none =>
        rw [live_event hx] at hf ⊢
        exact ih (h.handle e hx) hf

/-! ## Success -/

/-- An upgrade that ends without error was successful. -/
theorem earned_of_finished (config : Config) (mode : Mode) (image : Option Image)
    (device : Option Device) (collaborators : Collaborators) (guard : Guard)
    (hs : List Happening)
    (hf : ((fresh config mode image device collaborators guard).live hs).session.finished = true)
    (he : ((fresh config mode image device collaborators guard).live hs).session.error = none) :
    ∃ i, image = some i ∧
      Earned mode i
        ((fresh config mode image device collaborators guard).live hs).session.transfer.chunkSize
        ((fresh config mode image device collaborators guard).chronicle hs) := by
  have hsound := Sound.fresh config mode image device collaborators guard
  have hc := hsound.crash?_live hs hf
  have hacc := (Accounts.fresh config mode image device collaborators guard).live hs hc
  have halike := hsound.alike_live hs hc
  have hp := hacc.sound.finished_iff.mp hf
  obtain ⟨hconf, i, hi, hst⟩ := hacc.ended hp he
  have himage : image = some i := halike.image.symm.trans hi
  refine ⟨i, himage, ?_⟩
  -- the books stand as they did in verification, with everything covered
  obtain ⟨size, count, pos, lt, hall, ht⟩ := hst
  constructor
  case data =>
    have hd := hacc.data i hi
    rw [List.nil_append] at hd
    rw [hd, Image.flatten_chunks, ht, Transfer.chunkSize_after, Transfer.chunksSent_after,
      Image.take_covered_all hall]
  case commands =>
    have hcmd := hacc.commands i hi he
    rw [List.nil_append] at hcmd
    rw [hcmd, hp, halike.mode]
    rfl
  case started => exact hacc.started i hi
  case sent => exact hacc.sent
  case verified => exact hacc.verified i hi
  case confirmed => exact hconf

/-- Three bytes in two chunks, to a peripheral that reboots instead of answering. -/
def rebootingLife : List Happening :=
  [.event .start, .event (.connection true none), .event (.service (some .legacy) none),
    .guard { componentMetadata := true }, .event (.notifications true none),
    .event (.written .controlPoint (.ok (some [0]))), .event (.written .controlPoint (.ok none)),
    .event (.value .controlPoint (some [0]) none), .event (.written .data (.ok none)),
    .event (.timeout 3), .event (.written .data (.ok none)),
    .event (.written .controlPoint (.ok none)), .event (.connection false none)]

theorem earned_by_reboot :
    let s := fresh { chunkSize := some 2 } .direct (some ⟨#[1, 2, 3], by decide, by decide⟩)
      (some { name := "node" }) {} {}
    (s.live rebootingLife).session.finished = true ∧
      (s.live rebootingLife).session.error = none ∧
      ∃ i, some ⟨#[1, 2, 3], by decide, by decide⟩ = some i ∧
        Earned .direct i (s.live rebootingLife).session.transfer.chunkSize
          (s.chronicle rebootingLife) :=
  ⟨by decide, by decide, earned_of_finished _ _ _ _ _ _ _ (by decide) (by decide)⟩

end OtaUpgrade.Session
