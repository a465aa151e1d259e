import Mathlib
import OtaUpgrade.Proofs.Link.Scenario

/-!
An upgrade in which nothing is at fault comes to its end. As long as it is under way some move is
ready, and every ready move leaves fewer of them; so whatever the order, and be it through a tunnel
or not, the session ends without error, and the peripheral has taken part from beginning to end.
-/
namespace OtaUpgrade

/-- The upgrade has come to its end without error, at the session and at the peripheral. -/
structure ClosedLoop.Done {σ : Type} (l : ClosedLoop σ) (log : σ → PeripheralLog) (mode : Mode)
    (image : Image) (size : Nat) : Prop where
  whole : l.host.crash = none
  finished : l.host.session.finished = true
  error : l.host.session.error = none
  upgraded : (log l.adapter.link).Upgraded mode image size

namespace Undertaking

/-- The upgrade goes on until it has succeeded. -/
def success (u : Undertaking) : Scenario where
  Way s queue q := u.Pursued s s.phase ∧ u.Abreast s queue q
  Outcome s log := s.error = none ∧ log.Upgraded u.mode u.image u.size

variable {u : Undertaking} {n : Nat} {b : Bool} {queue rest : List Event} {q : Peripheral}
  {t : Turn}

theorem Resumes.continues (h : u.Resumes n b queue q t) : u.success.Continues n b queue q t :=
  ⟨h.whole, h.begun, ⟨h.pursued, h.abreast⟩, h.spent, h.bound⟩

theorem Proceeds.succeeds (h : u.Proceeds n b rest q t) : u.success.Proceeds n b rest q t := by
  cases h with
  | resumes hm h => exact .continues (h.mono hm).continues
  | ends h => exact .closes ⟨h.whole, h.finished, h.empty, ⟨h.error, h.upgraded⟩, h.calls, h.spent⟩

/-- With nothing at fault every reply takes the upgrade on, and nothing from elsewhere takes it
back. -/
theorem success_sustained (u : Undertaking) : u.success.Sustained where
  unfinished hw := hw.1.unfinished
  fromDevice hw _ he := PeripheralSetup.fromDevice_of_mem_replies (hw.2.queue ▸ he)
  unbegun h hw hp := hw.2.queue.trans (replies_of_idle h hp)
  replied h ht hw := (hw.1.replied h ht hw.2).succeeds
  told h ht he hw hb := (hw.1.told h ht he hw.2 hb).continues
  expired h ht hx hw := (hw.1.expired h ht hx hw.2).continues
  parted ho _ _ _ :=
    ⟨ho.1, ho.2.received, ho.2.commands, ho.2.chunks, ho.2.full, ho.2.verified⟩

/-- A session that is about to begin is on its way, unless someone else has requested the
connection. -/
theorem success_fresh (u : Undertaking) {collaborators : Collaborators} {guard : Guard}
    (hg : guard.connection = false) :
    u.success.Way (.fresh u.config u.mode (some u.image) (some u.device) collaborators guard) []
      { setup := u.setup } :=
  ⟨⟨⟨rfl, rfl, rfl, rfl, rfl, rfl⟩, fun _ => hg, by rintro ⟨⟩, by rintro ⟨⟩⟩,
    ⟨rfl, {}, rfl, .fresh rfl⟩⟩

end Undertaking

namespace ClosedLoop

/-- A loop comes to its end, whatever the order of its moves. -/
structure Completes {σ : Type} [Link σ] (l : ClosedLoop σ) (log : σ → PeripheralLog) (mode : Mode)
    (image : Image) (size : Nat) : Prop where
  bounded : ∀ ms, l.orderly ms = true → ms.length ≤ l.moveLimit 0
  /-- Where no move is ready any more, the session is finished. -/
  ends : ∀ ms, l.orderly ms = true → (∀ m, (l.play ms).ready m = false) →
    (l.play ms).host.session.finished = true
  done : ∀ ms, l.orderly ms = true → (l.play ms).host.session.finished = true →
    (l.play ms).Done log mode image size
  /-- Whatever the mesh core knows, and however many moves are allowed on top. -/
  playedOut : ∀ known extra, (l.playOut known (l.moveLimit extra)).Done log mode image size

/-- Success is completion. -/
theorem ComesTo.completes {σ : Type} [Link σ] {l : ClosedLoop σ} {log : σ → PeripheralLog}
    {mode : Mode} {image : Image} {size : Nat}
    (h : l.ComesTo log fun s log => s.error = none ∧ log.Upgraded mode image size) :
    l.Completes log mode image size where
  bounded := h.bounded
  ends := h.ends
  done ms hms hf :=
    have he := h.ended ms hms hf
    ⟨he.whole, he.finished, he.outcome.1, he.outcome.2⟩
  playedOut known extra :=
    have he := h.playedOut known extra
    ⟨he.whole, he.finished, he.outcome.1, he.outcome.2⟩

/-- An upgrade with nothing at fault comes to its end without error, be the peripheral reached
directly or through a tunnel. -/
theorem upgrade_completes (config : Config) (mode : Mode) (image : Image)
    (collaborators : Collaborators) (guard : Guard) (setup : PeripheralSetup) (name : String)
    {v : Variant} (hw : setup.Willing v) (hg : guard.connection = false) {size : Nat}
    (pos : 0 < size) :
    (config.chunkSizeFor? setup.mtu 0 = some size →
      (starting config mode (some image) collaborators guard
        (Peripheral.directly { setup } name)).Completes Peripheral.log mode image size) ∧
      ∀ address key, config.chunkSizeFor? setup.mtu TunnelEnd.overhead = some size →
        (starting config mode (some image) collaborators guard
          (Peripheral.tunnelled { setup } name address key)).Completes
            (fun link => link.inner.log) mode image size := by
  obtain ⟨hdirect, htunnel⟩ :=
    starting_comesTo (fun s log => s.error = none ∧ log.Upgraded mode image size)
      (fun device hsized hsturdy =>
        let u : Undertaking :=
          ⟨config, mode, image, device, setup, v, size, hsized, pos, hsturdy, hw⟩
        ⟨u.success, u.success_sustained, rfl, u.success_fresh hg⟩) name
  exact ⟨fun hsize => (hdirect hsize).completes,
    fun address key hsize => (htunnel address key hsize).completes⟩

/-- Three bytes in two chunks, to a peripheral that reboots at the end; where it lies behind the
mesh, the mesh core is asked about it and may stay silent. -/
theorem upgrade_completes_two_chunks :
    let config : Config := { chunkSize := some 2 }
    let image : Image := ⟨#[1, 2, 3], by decide, by decide⟩
    let setup : PeripheralSetup := { variant := some .legacy, rebootsOnVerify := true }
    let key : SecretKey := ⟨.replicate 32 0, rfl⟩
    (setup.Willing .legacy ∧ config.chunkSizeFor? setup.mtu 0 = some 2 ∧
        config.chunkSizeFor? setup.mtu TunnelEnd.overhead = some 2) ∧
      (starting config .direct (some image) { meshCore := true } {}
        (Peripheral.directly { setup } "node")).Completes Peripheral.log .direct image 2 ∧
      (starting config .direct (some image) { meshCore := true } {}
        (Peripheral.tunnelled { setup } "node" 5 key)).Completes (fun link => link.inner.log)
          .direct image 2 := by
  intro config image setup key
  have hw : setup.Willing .legacy := ⟨rfl, rfl, rfl, rfl⟩
  have hdirect : config.chunkSizeFor? setup.mtu 0 = some 2 := by decide
  have hmesh : config.chunkSizeFor? setup.mtu TunnelEnd.overhead = some 2 := by decide
  obtain ⟨hcompletes, hcompletes'⟩ := upgrade_completes config .direct image { meshCore := true } {}
    setup "node" hw rfl (by decide : 0 < 2)
  exact ⟨⟨hw, hdirect, hmesh⟩, hcompletes hdirect, hcompletes' 5 key hmesh⟩

end ClosedLoop
end OtaUpgrade
