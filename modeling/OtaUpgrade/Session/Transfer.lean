import OtaUpgrade.Checksum.Running

/-!
How far the data transfer has come. The offset counts the bytes that were acknowledged; the
checksum and the count of chunks run ahead of it by the chunk in flight.
-/
namespace OtaUpgrade

/-- The books of a data transfer. -/
structure Transfer where
  imageSize : Nat
  /-- Bytes acknowledged. -/
  offset : Nat := 0
  /-- Size of the chunk in flight, zero when there is none. -/
  inFlight : Nat := 0
  /-- Most bytes of a chunk, zero as long as it is unknown. -/
  chunkSize : Nat := 0
  chunksSent : Nat := 0
  crc : RunningCrc := {}
  /-- How often the checksum was made final. -/
  finalizations : Nat := 0
  deriving DecidableEq, Repr

namespace Transfer

/-- Bytes not yet acknowledged; `none` when the offset is past the end. -/
def remaining? (t : Transfer) : Option Nat :=
  if t.offset ≤ t.imageSize then some (t.imageSize - t.offset) else none

/-- Start and end of the next chunk; `none` when everything is acknowledged or the chunk size is
unknown. -/
def nextChunk? (t : Transfer) : Option (Nat × Nat) :=
  if t.imageSize ≤ t.offset ∨ t.chunkSize = 0 then none
  else some (t.offset, t.offset + min t.chunkSize (t.imageSize - t.offset))

/-- Every byte is acknowledged. -/
def isDone (t : Transfer) : Bool :=
  t.offset == t.imageSize

/-- How many chunks the image takes. -/
def totalChunks (t : Transfer) : Nat :=
  if t.chunkSize = 0 then 0 else (t.imageSize + t.chunkSize - 1) / t.chunkSize

/-- The books once the chunk from `start` to `stop` is on its way under the checksum `crc`. With
the last chunk the checksum becomes final. -/
def sent (t : Transfer) (crc : RunningCrc) (start stop : Nat) : Transfer :=
  let last := stop == t.imageSize
  { t with
    crc := if last then crc.finalize else crc
    finalizations := if last then t.finalizations + 1 else t.finalizations
    inFlight := stop - start
    chunksSent := t.chunksSent + 1 }

end Transfer
end OtaUpgrade
