import OtaUpgrade.Link.Basic
import OtaUpgrade.Tunnel

/-!
The far end of a tunnel: a link that takes wrapped writes and wraps what the device answers. Since
wrapping cannot fail (`TunnelEnd.wrap`), no answer is lost over it and no notice is dropped.
-/
namespace OtaUpgrade

/-- A link behind a tunnel. -/
structure SealedLink (σ : Type) where
  inner : σ
  /-- The end of the tunnel at the node. -/
  far : TunnelEnd

namespace SealedLink

variable {σ : Type}

/-- The link behind a fresh tunnel under a key. -/
def ofKey (key : SecretKey) (inner : σ) : SealedLink σ :=
  { inner, far := { key, direction := .fromNode } }

/-- Passes a call on to the link inside. -/
def inside {α : Type} (l : SealedLink σ) (call : σ → Answer α × σ) : Answer α × SealedLink σ :=
  let (a, inner) := call l.inner
  (a, { l with inner })

/-- Wraps a value on its way back. -/
def seals (l : SealedLink σ) (value : Bytes) : Bytes × SealedLink σ :=
  (l.far.wrap value, { l with far := l.far.advance })

/-- Wraps the values of notices, in order. -/
def sealNotices (l : SealedLink σ) : List Notice → List Notice × SealedLink σ
  | [] => ([], l)
  | .disconnected :: rest =>
    let (sealedRest, l) := l.sealNotices rest
    (.disconnected :: sealedRest, l)
  | .indication channel value :: rest =>
    let (wrapped, l) := l.seals value
    let (sealedRest, l) := l.sealNotices rest
    (.indication channel wrapped :: sealedRest, l)

/-- Unwraps what is written and wraps an answer that comes at once. -/
def writeThrough [Link σ] (l : SealedLink σ) (channel : Characteristic) (wrapped : Bytes) :
    Answer (Option Bytes) × SealedLink σ :=
  match l.far.unwrap wrapped with
  | .error e => (.failed e, l)
  | .ok payload =>
    match l.inside fun inner => Link.write inner channel payload with
    | (.ok (some response), l) =>
      let (wrapped, l) := l.seals response
      (.ok (some wrapped), l)
    | other => other

/-- Wraps what is read. -/
def readThrough [Link σ] (l : SealedLink σ) (channel : Characteristic) :
    Answer Bytes × SealedLink σ :=
  match l.inside fun inner => Link.read inner channel with
  | (.ok value, l) =>
    let (wrapped, l) := l.seals value
    (.ok wrapped, l)
  | other => other

instance [Link σ] : Link (SealedLink σ) where
  connect l := l.inside Link.connect
  disconnect l := l.inside Link.disconnect
  discover l := l.inside Link.discover
  setNotify l channel enabled := l.inside fun inner => Link.setNotify inner channel enabled
  write := writeThrough
  read := readThrough
  mtu l := Link.mtu l.inner
  takeNotices l :=
    let (notices, inner) := Link.takeNotices l.inner
    { l with inner }.sealNotices notices

end SealedLink
end OtaUpgrade
