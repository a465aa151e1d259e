import OtaUpgrade.Link.Error

/-!
A link: the blocking calls by which a device is reached. A call is answered, fails, or breaks the
link's driver down; what the device does of its own accord is collected as notices until someone
takes them. Taking notices and telling the packet size always go through.
-/
namespace OtaUpgrade

/-- What became of a call on a link. -/
inductive Answer (α : Type) where
  | ok (value : α)
  | failed (error : LinkError)
  /-- The driver broke down within the call. -/
  | crash
  deriving DecidableEq, Repr

namespace Answer

/-- Goes on with the value of a call that succeeded. -/
def bind {α β : Type} (a : Answer α) (next : α → Answer β) : Answer β :=
  match a with
  | ok value => next value
  | failed e => failed e
  | crash => crash

/-- Changes the value of a call that succeeded. -/
def map {α β : Type} (f : α → β) (a : Answer α) : Answer β :=
  a.bind fun value => ok (f value)

/-- The answer that a result stands for. -/
def ofExcept {α : Type} : Except LinkError α → Answer α
  | .ok value => ok value
  | .error e => failed e

end Answer

/-- Something the device did of its own accord. -/
inductive Notice where
  | indication (channel : Characteristic) (value : Bytes)
  | disconnected
  deriving DecidableEq, Repr

/-- The calls of a link, over its states. -/
class Link (σ : Type) where
  connect : σ → Answer Unit × σ
  disconnect : σ → Answer Unit × σ
  /-- Looks for the upgrade service; a device may have none. -/
  discover : σ → Answer (Option Variant) × σ
  /-- Switches notifications of a channel and tells whether they are on now. -/
  setNotify : σ → Characteristic → Bool → Answer Bool × σ
  /-- Writes a value; some devices answer at once. -/
  write : σ → Characteristic → Bytes → Answer (Option Bytes) × σ
  read : σ → Characteristic → Answer Bytes × σ
  /-- Most bytes of a packet. -/
  mtu : σ → Nat
  /-- The notices since they were last taken, oldest first. -/
  takeNotices : σ → List Notice × σ

end OtaUpgrade
