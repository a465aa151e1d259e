import OtaUpgrade.Link.Error
import OtaUpgrade.Protocol.Identity

/-!
Everything that can move a session: what the device, the mesh core, the timer and the caller tell
it. Events wait in an inbox until the session takes them, in the order in which they were posted.
-/
namespace OtaUpgrade

/-- What became of a write: the answer that came with it, if one did, or a failure. -/
inductive WriteResult where
  | ok (response : Option Bytes)
  | failed (error : LinkError)
  deriving DecidableEq, Repr

/-- Something a session is told. -/
inductive Event where
  /-- Begin the upgrade. -/
  | start
  | connection (connected : Bool) (error : Option LinkError)
  | service (variant : Option Variant) (error : Option LinkError)
  | notifications (enabled : Bool) (error : Option LinkError)
  | written (channel : Characteristic) (result : WriteResult)
  /-- A value was read, or came as an indication. -/
  | value (channel : Characteristic) (value : Option Bytes) (error : Option LinkError)
  | meshMetadata (metadata : Option ComponentMetadata)
  /-- The timeout with this number is over. -/
  | timeout (id : Nat)
  /-- The caller asks to stop; `dfu` if on behalf of mesh DFU. -/
  | abort (dfu : Bool)
  deriving DecidableEq, Repr

/-- The events a session has not taken yet. A closed inbox takes in no more. -/
structure Inbox where
  waiting : List Event := []
  closed : Bool := false
  deriving DecidableEq, Repr

namespace Inbox

/-- Adds an event at the end, unless the inbox is closed. -/
def post (inbox : Inbox) (e : Event) : Inbox :=
  if inbox.closed then inbox else { inbox with waiting := inbox.waiting ++ [e] }

/-- Adds events at the end, one after the other. -/
def postAll (inbox : Inbox) (es : List Event) : Inbox :=
  es.foldl post inbox

/-- Takes in nothing from now on and forgets what waits. -/
def close (_ : Inbox) : Inbox :=
  { waiting := [], closed := true }

theorem postAll_of_open {inbox : Inbox} (h : inbox.closed = false) (es : List Event) :
    inbox.postAll es = { inbox with waiting := inbox.waiting ++ es } := by
  induction es generalizing inbox with
  | nil => simp [postAll]
  | cons e es ih =>
    have hp : inbox.post e = { inbox with waiting := inbox.waiting ++ [e] } := by
      simp [post, h]
    simp only [postAll, List.foldl_cons] at ih ⊢
    rw [hp]
    have hi := @ih { inbox with waiting := inbox.waiting ++ [e] } h
    simpa using hi

end Inbox
end OtaUpgrade
