/-!
The phases of an upgrade, in the order of the protocol, and what a session can wait for within a
phase.
-/
namespace OtaUpgrade

/-- Where an upgrade stands. -/
inductive Phase where
  | idle
  | connect
  | serviceDiscover
  | readAppInfo
  | enableNotification
  | prepareForDownload
  | startDownload
  | dataTransfer
  | verify
  | abort
  | complete
  deriving DecidableEq, Repr, Inhabited

namespace Phase

/-- Every phase, in protocol order. -/
def all : List Phase :=
  [idle, connect, serviceDiscover, readAppInfo, enableNotification, prepareForDownload,
    startDownload, dataTransfer, verify, abort, complete]

/-- The phase's place in protocol order. -/
def rank : Phase → Nat
  | idle => 0
  | connect => 1
  | serviceDiscover => 2
  | readAppInfo => 3
  | enableNotification => 4
  | prepareForDownload => 5
  | startDownload => 6
  | dataTransfer => 7
  | verify => 8
  | abort => 9
  | complete => 10

instance : LE Phase := ⟨fun a b => a.rank ≤ b.rank⟩

instance : LT Phase := ⟨fun a b => a.rank < b.rank⟩

instance (a b : Phase) : Decidable (a ≤ b) := inferInstanceAs (Decidable (a.rank ≤ b.rank))

instance (a b : Phase) : Decidable (a < b) := inferInstanceAs (Decidable (a.rank < b.rank))

instance : Max Phase := ⟨fun a b => if a ≤ b then b else a⟩

/-- How many phases come at or after this one. -/
def remaining (p : Phase) : Nat := 11 - p.rank

/-- The phase's name in messages. -/
def name : Phase → String
  | idle => "IDLE"
  | connect => "CONNECT"
  | serviceDiscover => "SERVICE_DISCOVER"
  | readAppInfo => "READ_APP_INFO"
  | enableNotification => "ENABLE_NOTIFICATION"
  | prepareForDownload => "PREPARE_FOR_DOWNLOAD"
  | startDownload => "START_DOWNLOAD"
  | dataTransfer => "DATA_TRANSFER"
  | verify => "VERIFY"
  | abort => "ABORT"
  | complete => "COMPLETE"

/-- The peripheral is in a download that the abort command can give up. -/
def canAbort (p : Phase) : Bool :=
  prepareForDownload ≤ p && p ≤ verify

/-- No command has been sent yet, so that tearing down needs none. -/
def isBeforeDownload (p : Phase) : Bool :=
  p ≤ enableNotification

/-- The upgrade is over. -/
def isTerminal (p : Phase) : Bool :=
  p == complete

theorem rank_lt (p : Phase) : p.rank < 11 := by
  cases p <;> decide

theorem remaining_pos (p : Phase) : 0 < p.remaining :=
  Nat.sub_pos_of_lt p.rank_lt

/-- A later phase has fewer phases left. -/
theorem remaining_lt {p q : Phase} (h : p < q) : q.remaining < p.remaining :=
  Nat.sub_lt_sub_left p.rank_lt h

end Phase

/-- What a session waits for within its phase. -/
inductive Wait where
  | nothing
  | appInfo
  | meshMetadata
  /-- A command is on its way to the control point. -/
  | write
  /-- The command was written; its status will come as an indication. -/
  | response
  /-- A chunk is on its way. -/
  | chunkAck
  deriving DecidableEq, Repr, Inhabited

namespace Wait

/-- Everything a session can wait for. -/
def all : List Wait := [nothing, appInfo, meshMetadata, write, response, chunkAck]

/-- The wait's name in one word. -/
def label : Wait → String
  | nothing => "None"
  | appInfo => "AwaitingAppInfo"
  | meshMetadata => "AwaitingMeshMetadata"
  | write => "AwaitingWrite"
  | response => "AwaitingResponse"
  | chunkAck => "AwaitingChunkAck"

/-- The wait in words. -/
def text : Wait → String
  | nothing => "-"
  | appInfo => "awaiting app info"
  | meshMetadata => "awaiting mesh metadata"
  | write => "awaiting write"
  | response => "awaiting response"
  | chunkAck => "awaiting chunk ack"

end Wait
end OtaUpgrade
