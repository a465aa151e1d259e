import OtaUpgrade.Link.Basic

/-!
A link whose calls go wrong on schedule: each fault of a list alters one call, in order.
-/
namespace OtaUpgrade

/-- What goes wrong with a call. -/
structure Fault where
  /-- The driver breaks down. -/
  breaksDown : Bool := false
  /-- The call fails and does not reach the device. -/
  error : Option LinkError := none
  /-- Notices that the call raises besides the device's own. -/
  notices : List Notice := []
  /-- What takes the place of a response. -/
  response : Option (Option Bytes) := none
  /-- A byte of the response, by its place, and the bits of it that are turned over. -/
  flip : Option (Nat × UInt8) := none
  /-- What is told of the notifications. -/
  enabled : Option Bool := none
  deriving DecidableEq, Repr

namespace Fault

/-- Turns bits of one byte over. -/
def flipped (f : Fault) (value : Bytes) : Bytes :=
  match f.flip with
  | none => value
  | some (place, mask) => value.modify place (· ^^^ mask)

/-- What a write answers under the fault. -/
def onResponse (f : Fault) (response : Option Bytes) : Option Bytes :=
  (f.response.getD response).map f.flipped

/-- What a read yields under the fault. -/
def onValue (f : Fault) (value : Bytes) : Bytes :=
  f.flipped ((f.response.map fun r => r.getD []).getD value)

end Fault

/-- A link with the faults of its next calls. -/
structure FaultyLink (σ : Type) where
  inner : σ
  /-- Faults of the calls to come, oldest first; a call may have none. -/
  faults : List (Option Fault) := []
  /-- Notices raised by faults and not yet taken. -/
  raised : List Notice := []

namespace FaultyLink

variable {σ : Type}

/-- Makes a call under the next fault. -/
def call {α : Type} (l : FaultyLink σ) (run : σ → Answer α × σ) (alter : Fault → α → α) :
    Answer α × FaultyLink σ :=
  match l.faults with
  | some f :: rest =>
    let l := { l with faults := rest, raised := l.raised ++ f.notices }
    if f.breaksDown then (.crash, l)
    else
      match f.error with
      | some e => (.failed e, l)
      | none =>
        let (a, inner) := run l.inner
        (a.map (alter f), { l with inner })
  | faults =>
    let (a, inner) := run l.inner
    (a, { l with inner, faults := faults.tail })

instance [Link σ] : Link (FaultyLink σ) where
  connect l := l.call Link.connect fun _ a => a
  disconnect l := l.call Link.disconnect fun _ a => a
  discover l := l.call Link.discover fun _ a => a
  setNotify l channel enabled :=
    l.call (fun inner => Link.setNotify inner channel enabled) fun f a => f.enabled.getD a
  write l channel payload := l.call (fun inner => Link.write inner channel payload) Fault.onResponse
  read l channel := l.call (fun inner => Link.read inner channel) Fault.onValue
  mtu l := Link.mtu l.inner
  takeNotices l :=
    let (notices, inner) := Link.takeNotices l.inner
    (notices ++ l.raised, { l with inner, raised := [] })

end FaultyLink
end OtaUpgrade
