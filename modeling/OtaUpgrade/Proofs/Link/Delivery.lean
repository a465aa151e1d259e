import Mathlib
import OtaUpgrade.Proofs.Link.Course
import OtaUpgrade.Proofs.Link.Transparent

/-!
An upgrade that ends without error has delivered its image: the simulated peripheral holds every
byte of it, was told its size and has verified its checksum. This is so in any order of what the
worker, the clock, the mesh core and the caller do, and whether or not a tunnel lies in between,
since a loop through a tunnel mirrors one without.
-/
namespace OtaUpgrade

namespace ClosedLoop

variable {setup : PeripheralSetup} {image : Option Image} {l : ClosedLoop Peripheral}

/-! ## Every occurrence keeps the course -/

/-- How many answers are outstanding does not matter to the course. -/
theorem Course.withAsked (h : Course setup image l) (asked : Nat) :
    Course setup image { l with host := { l.host with asked } } := by
  refine ⟨h.direct, h.opened, ?_⟩
  cases h.stage with
  | broken hc hf => exact .broken hc hf
  | failed hc hs he => exact .failed hc hs he
  | goesOn hc hs hf he hi ha hq => exact .goesOn hc hs hf he hi ha hq
  | delivered hf hi hd hj => exact .delivered hf hi hd hj

theorem Course.move (hreject : setup.rejects ≠ some (.verify, .success))
    (h : Course setup image l) (m : Move) : Course setup image (l.move m) := by
  cases m with
  | deliver =>
    simp only [ClosedLoop.move]
    split
    · next e host hl hn =>
      unfold Host.next? at hn
      cases hw : l.host.inbox.waiting with
      | nil => simp [hw] at hn
      | cons e' rest =>
        rw [hw] at hn
        obtain ⟨rfl, rfl⟩ := Prod.mk.inj (Option.some.inj hn)
        exact h.handle hreject hl rfl rfl h.opened (takes_pending hw)
    · exact h
  | work => exact h.work
  | expire =>
    simp only [ClosedLoop.move]
    split
    · next e hl he =>
      obtain ⟨x, -, rfl⟩ := Option.map_eq_some_iff.mp he
      exact h.handle hreject hl rfl rfl h.opened (.elsewhere rfl)
    · exact h
  | answer known =>
    cases known with
    | none => exact h.withAsked 0
    | some m =>
      have hanswers : ∀ e ∈ List.replicate l.host.asked (Event.meshMetadata (some m)),
          e.fromDevice = false := by
        intro e he
        rw [List.eq_of_mem_replicate he]
        rfl
      exact (h.receive hanswers).withAsked 0
  | abort dfu => exact h.receive (by simp [Event.fromDevice])

/-- Whatever occurs, and in whatever order, the loop stays on its course. -/
theorem Course.undergoAll (hreject : setup.rejects ≠ some (.verify, .success))
    (h : Course setup image l) (os : List Occurrence) :
    Course setup image (l.undergoAll os) := by
  induction os generalizing l with
  | nil => exact h
  | cons o os ih =>
    cases o with
    | move m => exact ih (h.move hreject m)
    | told e outside => exact ih (h.receive (by simp [outside]))

/-- The end without error is by delivery. -/
theorem Course.delivered (h : Course setup image l) (hf : l.host.session.finished = true)
    (he : l.host.session.error = none) : ∃ i, image = some i ∧ Delivered i l.adapter.link.log := by
  cases h.stage with
  | broken _ hn => exact absurd (hf.symm.trans hn) nofun
  | failed _ _ hn =>
    rw [he] at hn
    cases hn
  | goesOn _ _ hn => exact absurd (hf.symm.trans hn) nofun
  | delivered _ hi hd => exact ⟨_, hi, hd⟩

theorem Mirrors.undergoAll {σ : Type} [Link σ] {t : ClosedLoop (SealedLink σ)} {l : ClosedLoop σ}
    (h : t.Mirrors l) (os : List Occurrence) : (t.undergoAll os).Mirrors (l.undergoAll os) := by
  induction os generalizing t l with
  | nil => exact h
  | cons o os ih =>
    cases o with
    | move m => exact ih (h.move m)
    | told e outside => exact ih (h.receive [e])

/-! ## Fresh loops -/

/-- A session that is to begin the upgrade of an adapter's device. -/
def starting {σ : Type} [Link σ] (config : Config) (mode : Mode) (image : Option Image)
    (collaborators : Collaborators) (guard : Guard) (adapter : Adapter σ) : ClosedLoop σ :=
  { host :=
      { session := .fresh config mode image (some adapter.device) collaborators guard
        inbox := { waiting := [.start] } }
    adapter }

end ClosedLoop

/-- An adapter that reaches a peripheral directly. -/
def Peripheral.directly (p : Peripheral) (name : String) : Adapter Peripheral :=
  { name, carriage := .plain, link := p }

/-- An adapter that reaches a peripheral through a tunnel to its mesh node. -/
def Peripheral.tunnelled (p : Peripheral) (name : String) (address : UInt16) (key : SecretKey) :
    Adapter (SealedLink Peripheral) :=
  { name, carriage := .tunnelTo address key, link := .ofKey key p }

namespace ClosedLoop

theorem Course.fresh (setup : PeripheralSetup) (name : String) {host : Host}
    (hinbox : host.inbox = { waiting := [.start] }) (hc : host.crash = none) {config : Config}
    {mode : Mode} {image : Option Image} {device : Option Device} {collaborators : Collaborators}
    {guard : Guard}
    (hs : host.session = .fresh config mode image device collaborators guard) :
    Course setup image ⟨host, Peripheral.directly { setup } name⟩ := by
  refine ⟨⟨rfl, rfl⟩, by rw [hinbox], ?_⟩
  refine .goesOn hc (hs ▸ .fresh ..) (by rw [hs]; rfl) (by rw [hs]; rfl) (by rw [hs]; rfl) ?_
    ⟨rfl, rfl⟩
  refine .calm (.inl (by rw [hs]; rfl)) ?_ ⟨rfl, rfl⟩
  simp only [pending, hinbox]
  exact List.forall_mem_nil _

/-- An upgrade through a tunnel begins like the direct one of the same session. -/
theorem Mirrors.starting (config : Config) (mode : Mode) (image : Option Image)
    (collaborators : Collaborators) (guard : Guard) (p : Peripheral) (name : String)
    (address : UInt16) (key : SecretKey) :
    (starting config mode image collaborators guard (p.tunnelled name address key)).Mirrors
      ⟨(starting config mode image collaborators guard (p.tunnelled name address key)).host,
        p.directly name⟩ :=
  ⟨rfl, ⟨_, _, rfl, rfl, nofun⟩, rfl, rfl, rfl, .resting, rfl, rfl⟩

/-- An upgrade that ends without error has delivered its image, be the peripheral reached directly
or through a tunnel, and whatever occurs on the way. -/
theorem delivered_of_finished (config : Config) (mode : Mode) (image : Image)
    (collaborators : Collaborators) (guard : Guard) (setup : PeripheralSetup) (name : String)
    (hreject : setup.rejects ≠ some (.verify, .success)) (os : List Occurrence) :
    (∀ l, l = (starting config mode (some image) collaborators guard
          (Peripheral.directly { setup } name)).undergoAll os →
      l.host.session.finished = true → l.host.session.error = none →
        Delivered image l.adapter.link.log) ∧
      ∀ address key l, l = (starting config mode (some image) collaborators guard
          (Peripheral.tunnelled { setup } name address key)).undergoAll os →
        l.host.session.finished = true → l.host.session.error = none →
          Delivered image l.adapter.link.inner.log := by
  have ended {l : ClosedLoop Peripheral} (h : Course setup (some image) l)
      (hf : l.host.session.finished = true) (he : l.host.session.error = none) :
      Delivered image l.adapter.link.log := by
    obtain ⟨i, hi, hd⟩ := h.delivered hf he
    obtain rfl := Option.some.inj hi
    exact hd
  constructor
  · rintro l rfl hf he
    exact ended ((Course.fresh setup name rfl rfl rfl).undergoAll hreject os) hf he
  · rintro address key l rfl hf he
    have hmirrors := (Mirrors.starting config mode (some image) collaborators guard { setup } name
      address key).undergoAll os
    rw [hmirrors.adapter.inner]
    exact ended ((Course.fresh setup name rfl rfl rfl).undergoAll hreject os)
      (hmirrors.host ▸ hf) (hmirrors.host ▸ he)

/-- The worker does a job, and the session takes what is posted; eight times from connecting to
verification for an image of two chunks. -/
def promptly : List Occurrence :=
  .move .deliver :: (List.replicate 8 [Move.work, .work, .work, .deliver]).flatten.map .move

/-- Three bytes in two chunks, to a peripheral that is reached directly. -/
def promptDirect : ClosedLoop Peripheral :=
  (starting { chunkSize := some 2 } .direct (some ⟨#[1, 2, 3], by decide, by decide⟩) {} {}
    (Peripheral.directly { setup := { variant := some .legacy } } "node")).undergoAll promptly

/-- The same through a tunnel. -/
def promptMesh : ClosedLoop (SealedLink Peripheral) :=
  (starting { chunkSize := some 2 } .direct (some ⟨#[1, 2, 3], by decide, by decide⟩) {} {}
    (Peripheral.tunnelled { setup := { variant := some .legacy } } "node" 5
      ⟨.replicate 32 0, rfl⟩)).undergoAll promptly

theorem delivered_promptly :
    (promptDirect.host.session.finished = true ∧ promptDirect.host.session.error = none ∧
        Delivered ⟨#[1, 2, 3], by decide, by decide⟩ promptDirect.adapter.link.log) ∧
      promptMesh.host.session.finished = true ∧ promptMesh.host.session.error = none ∧
        Delivered ⟨#[1, 2, 3], by decide, by decide⟩ promptMesh.adapter.link.inner.log := by
  obtain ⟨hdirect, hmesh⟩ := delivered_of_finished { chunkSize := some 2 } .direct
    ⟨#[1, 2, 3], by decide, by decide⟩ {} {} { variant := some .legacy } "node" (by decide) promptly
  have hf : promptDirect.host.session.finished = true := by decide +kernel
  have he : promptDirect.host.session.error = none := by decide +kernel
  -- the mirror without a tunnel is run instead, to leave the cipher out
  have hmirrors := (Mirrors.starting { chunkSize := some 2 } .direct
    (some ⟨#[1, 2, 3], by decide, by decide⟩) {} {} { setup := { variant := some .legacy } } "node"
    5 ⟨.replicate 32 0, rfl⟩).undergoAll promptly
  have hf' : promptMesh.host.session.finished = true := by
    rw [promptMesh, hmirrors.host]
    decide +kernel
  have he' : promptMesh.host.session.error = none := by
    rw [promptMesh, hmirrors.host]
    decide +kernel
  exact ⟨⟨hf, he, hdirect promptDirect rfl hf he⟩, hf', he', hmesh _ _ promptMesh rfl hf' he'⟩

end ClosedLoop
end OtaUpgrade
