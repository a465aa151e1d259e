import Mathlib
import OtaUpgrade.Proofs.Link.Delivery
import OtaUpgrade.Proofs.Link.Relay
import OtaUpgrade.Proofs.Session.Sizing

/-!
Firmware data fits the link. The session leaves room in each packet for the write header and for
what the carriage adds, and the carriage adds no more than it declares; so whatever is written to
the data channel fits a packet with the header, however small the packets are. Where they are too
small for a single byte, nothing is ever written.
-/
namespace OtaUpgrade

/-- Unless the settings fix the size of chunks, it is what the packet has room for. -/
theorem Config.chunkSizeFor?_of_none {config : Config} (hauto : config.chunkSize = none)
    {overhead : Nat} (hword : config.attOverhead + overhead < wordLimit) (mtu : Nat) :
    config.chunkSizeFor? mtu overhead = some (mtu - (config.attOverhead + overhead)) := by
  rw [chunkSizeFor?, hauto]
  exact if_pos hword

namespace ClosedLoop

variable {σ : Type} [Link σ]

/-- What is written on a link with packets of `mtu` bytes, of which the write header takes
`header`. -/
structure Fitting (image : Option Image) (carriage : Carriage) (header mtu : Nat)
    (l : ClosedLoop (Tapped σ)) : Prop where
  /-- Every payload on the data channel carries a chunk of the image, with a byte at least, and
  leaves room for the header. -/
  data : ∀ payload, .write .data payload ∈ l.adapter.link.received →
    payload.length + header ≤ mtu ∧ ∃ firmware chunk count, image = some firmware ∧
      firmware.Chunk (mtu - (header + carriage.overhead)) chunk ∧ 0 < chunk.length ∧
      payload = carriage.carried count chunk
  /-- In packets without room for a byte nothing was ever written or is about to be. -/
  unwritten : mtu ≤ header + carriage.overhead → ∀ channel payload,
    .write channel payload ∉ l.adapter.link.received ∧
      .write channel payload ∉ l.adapter.jobs
  /-- Over such a link an upgrade does not come past connecting. -/
  offline : mtu ≤ header + carriage.overhead → l.host.session.phase ∈ Phase.offline
  /-- The report that it is up ends the upgrade, for want of room unless something else went wrong
  before. -/
  refused : mtu ≤ header + carriage.overhead → l.host.session.phase = .connect →
    ∀ error, (l.stir (.told (.connection true error))).host.session.finished = true ∧
      (l.stir (.told (.connection true error))).host.session.error
        = l.host.session.error.or (some ⟨.connect, .invalidMtu mtu⟩)

/-- What follows a session that keeps to the size of its chunks is written so. -/
theorem Follows.fitting {s : Session} {hs : List Happening} {l : ClosedLoop (Tapped σ)}
    {carriage : Carriage} {header : Nat} {d₀ : Device} (h : Follows s carriage l hs)
    (hwhole : ∀ hs, (s.live hs).crash? = none)
    (hsized : s.Sized d₀ (d₀.mtu - (header + carriage.overhead)) []) :
    Fitting s.image carriage header d₀.mtu l := by
  have himage := (hsized.sound.alike_live hs (hwhole hs)).image
  have hlive := hsized.live hs (hwhole hs)
  rw [List.nil_append, ← h.session] at hlive
  have hnoRoom (hm : d₀.mtu ≤ header + carriage.overhead) :
      d₀.mtu - (header + carriage.overhead) = 0 := by omega
  have hdeeds (channel : Characteristic) := congrArg (Trace.writes channel) (s.deeds_chronicle hs)
  constructor
  case data =>
    intro payload hp
    obtain ⟨chunk, hasked, count, rfl⟩ := h.relays.received _ _ hp
    rw [← Trace.mem_writes, ← hdeeds] at hasked
    obtain ⟨firmware, hi, hchunk⟩ := hlive.data chunk hasked
    have hlength := hchunk.length
    rw [h.session, himage] at hi
    refine ⟨?_, firmware, chunk, count, hi, hchunk, hlength.1, rfl⟩
    rw [carriage.length_carried]
    omega
  case unwritten =>
    intro hm channel payload
    have hnone := (hlive.noRoom (hnoRoom hm)).2 channel
    rw [hdeeds] at hnone
    have hunasked (data : Bytes) : .write channel data ∉ Trace.calls (s.live hs).effects := by
      rw [← Trace.mem_writes, hnone]
      exact List.not_mem_nil
    constructor
    · intro hp
      obtain ⟨data, hasked, -⟩ := h.relays.received _ _ hp
      exact hunasked data hasked
    · intro hj
      exact hunasked payload (h.relays.jobs _ hj)
  case offline => exact fun hm => (hlive.noRoom (hnoRoom hm)).1
  case refused =>
    intro hm hp error
    have hleaves := hlive.leaves
    rw [hnoRoom hm] at hleaves
    obtain ⟨htold, -, hcrash⟩ := Session.live_told (hwhole hs) (.connection true error)
    rw [hwhole, ← h.session] at hcrash
    have hlives : l.host.live = true := by
      have hunfinished : l.host.session.finished = false := by
        rw [Bool.eq_false_iff, ne_eq, hlive.sound.finished_iff, hp]
        decide
      rw [Host.live, hunfinished, h.whole]
      rfl
    have hstir : l.stir (.told (.connection true error)) = l.handle (.connection true error) :=
      if_pos hlives
    rw [hstir, (h.handle hwhole _).session, htold, ← h.session]
    exact hlive.sound.handle_noRoom hleaves hp hcrash.symm

/-- A fresh session and a fresh adapter. -/
theorem Follows.starting (config : Config) (mode : Mode) (image : Option Image)
    (collaborators : Collaborators) (guard : Guard) (name : String) (carriage : Carriage)
    (link : σ) :
    let adapter : Adapter (Tapped σ) := { name, carriage, link := { inner := link } }
    Follows (.fresh config mode image (some adapter.device) collaborators guard) carriage
      (starting config mode image collaborators guard adapter) [] := by
  refine ⟨rfl, rfl, ⟨0, ?_⟩, ?_, ?_⟩
  · cases carriage <;> rfl
  · exact List.forall_mem_nil _
  · exact fun _ _ hp => absurd hp List.not_mem_nil

/-- Whatever happens in a loop whose chunk size is left to the link, and whatever the link does,
what is written fits its packets. -/
theorem fitting_stirAll (config : Config) (mode : Mode) (image : Option Image)
    (collaborators : Collaborators) (guard : Guard) (name : String) (carriage : Carriage)
    (link : σ) (hauto : config.chunkSize = none)
    (hword : config.attOverhead + carriage.overhead < wordLimit) (stirs : List Stir) :
    let adapter : Adapter (Tapped σ) := { name, carriage, link := { inner := link } }
    Fitting image carriage config.attOverhead (Link.mtu link)
      ((starting config mode image collaborators guard adapter).stirAll stirs) := by
  intro adapter
  have hroom : config.chunkSizeFor? adapter.device.mtu adapter.device.overhead = some _ :=
    config.chunkSizeFor?_of_none hauto hword (Link.mtu link)
  have hsized := Session.Sized.fresh hroom mode image collaborators guard
  have hreliable :
      (Session.fresh config mode image (some adapter.device) collaborators guard).Reliable := by
    rintro d ⟨⟩
    exact ⟨rfl, hword⟩
  have hwhole := hreliable.crash?_live hsized.sound
  have hstart := Follows.starting config mode image collaborators guard name carriage link
  obtain ⟨hs, h⟩ := hstart.stirAll hwhole stirs
  exact h.fitting hwhole hsized

/-- Three bytes over packets of five, three of which the write header takes: a chunk of two bytes
and one of the byte that is left. -/
theorem fitting_smallPackets :
    let config : Config := {}
    let image : Image := ⟨#[4, 5, 6], by decide, by decide⟩
    let peripheral : Peripheral := { setup := { variant := some .legacy, mtu := 5 } }
    let adapter : Adapter (Tapped Peripheral) :=
      { name := "node", carriage := .plain, link := { inner := peripheral } }
    let stirs : List Stir :=
      .move .deliver :: (List.replicate 8 [Move.work, .work, .work, .deliver]).flatten.map .move
    let l := (starting config .direct (some image) {} {} adapter).stirAll stirs
    config.chunkSize = none ∧ config.attOverhead + Carriage.plain.overhead < wordLimit ∧
      Fitting (some image) .plain 3 5 l ∧
      .write .data [4, 5] ∈ l.adapter.link.received ∧
      .write .data [6] ∈ l.adapter.link.received := by
  intro config image peripheral adapter stirs l
  have hword : config.attOverhead + Carriage.plain.overhead < wordLimit := by decide
  have hfitting := fitting_stirAll config .direct (some image) {} {} "node" .plain peripheral rfl
    hword stirs
  exact ⟨rfl, hword, hfitting, by decide +kernel, by decide +kernel⟩

/-- Packets of three bytes have no room for one of firmware. But the upgrade was stopped before the
link was up, so when the report comes that it is, it ends as stopped and not for want of room. -/
theorem stopped_before_refused :
    let config : Config := {}
    let image : Image := ⟨#[9, 8], by decide, by decide⟩
    let peripheral : Peripheral := { setup := { mtu := 3 } }
    let adapter : Adapter (Tapped Peripheral) :=
      { name := "node", carriage := .plain, link := { inner := peripheral } }
    let l := (starting config .direct (some image) {} {} adapter).stirAll
      [.move .deliver, .told (.abort false)]
    let l' := l.stir (.told (.connection true none))
    config.chunkSize = none ∧ config.attOverhead + Carriage.plain.overhead < wordLimit ∧
      Link.mtu peripheral ≤ config.attOverhead + Carriage.plain.overhead ∧
      l.host.session.phase = .connect ∧ l'.host.session.finished = true ∧
      l'.host.session.error = some ⟨.connect, .aborted⟩ ∧
      l'.host.session.error ≠ some ⟨.connect, .invalidMtu (Link.mtu peripheral)⟩ := by
  intro config image peripheral adapter l l'
  have herror : l'.host.session.error = some ⟨.connect, .aborted⟩ := by decide +kernel
  refine ⟨rfl, by decide, by decide, by decide +kernel, by decide +kernel, herror, ?_⟩
  rw [herror]
  decide

end ClosedLoop
end OtaUpgrade
