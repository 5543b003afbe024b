import CounterPolling.Dialogue
import CounterPolling.Partition.Basic

/-!
# Bulk reads, tried and in passes

Whether objects can be read in bulk is found out by reading them in bulk once. Only the
statuses of a trial count, and a row whose status the driver leaves alone passes.

A pass over a partition reads its rows in chunks, one bulk read for each. A row counts as
read when its bulk read answered and reported success for it; until the driver says so a
row counts as failed. A bulk read that fails loses its own chunk only.
-/

namespace CounterPolling

/-- Tries one bulk read over all keys; the statuses of its rows, or why it failed. -/
def tryBulkRead (kind : ObjectKind) (keys : List RowKey) (ids : List Int)
    (mode : ReadMode) : Dialogue (Except DriverError (List Status)) := do
  match ← Dialogue.question (.bulkRead kind keys ids mode) with
  | .error error => return .error error
  | .ok fill => return .ok (fill.statuses .success keys.length)

/-- Whether a trial went well for every row. -/
def trialPasses : Except DriverError (List Status) → Bool
  | .error _ => false
  | .ok statuses => statuses.all Status.isSuccess

/-- The counters of one row, as the driver delivered them. -/
structure Reading where
  /-- The row that was read. -/
  row : Row
  /-- One value for each counter of the partition. -/
  values : List UInt64
  deriving DecidableEq

/-- What one pass over a partition did. -/
structure Sweep where
  /-- Bulk reads issued. -/
  calls : Nat
  /-- Rows read, in order. -/
  readings : List Reading
  deriving DecidableEq

/-- Bounds of the chunks of a number of rows: first position, and the one past the last. -/
def chunkBounds (rows chunkSize : Nat) : List (Nat × Nat) :=
  if rows = 0 then []
  else
    let step := if chunkSize = 0 then rows else min chunkSize rows
    (List.range ((rows + step - 1) / step)).map fun i =>
      (i * step, min (i * step + step) rows)

namespace BulkFill

/-- The rows that a bulk read delivered, in order. -/
def readings (fill : BulkFill) (width : Nat) (rows : List Row) : List Reading :=
  (rows.zip (fill.statuses .failure rows.length)).zipIdx.filterMap fun entry =>
    if entry.1.2.isSuccess then some ⟨entry.1.1, fill.counters width entry.2⟩ else none

end BulkFill

namespace Partition

variable {family : CounterFamily}

/-- Bounds of the chunks that a pass reads. -/
def chunks (p : Partition family) : List (Nat × Nat) :=
  chunkBounds p.size p.chunkSize

/-- The rows from one position up to another. -/
def slice (p : Partition family) (bounds : Nat × Nat) : List Row :=
  (p.rows.drop bounds.1).take (bounds.2 - bounds.1)

/-- Reads one chunk. -/
def readChunk (p : Partition family) (kind : ObjectKind) (mode : ReadMode)
    (bounds : Nat × Nat) : Dialogue (List Reading) := do
  let rows := p.slice bounds
  let request := Request.bulkRead kind (rows.map Row.key) (CounterId.raws p.ids) mode
  match ← Dialogue.question request with
  | .error error =>
    Dialogue.report (.bulkReadFailed kind bounds.1 bounds.2 p.name error)
    return []
  | .ok fill => return fill.readings p.ids.length rows

/-- Reads chunks in turn and hands each row on as soon as its chunk is read. -/
def sweepChunks (p : Partition family) (kind : ObjectKind) (mode : ReadMode)
    (publish : Reading → Dialogue Unit) : List (Nat × Nat) → Dialogue Sweep
  | [] => return ⟨0, []⟩
  | bounds :: rest => do
    let readings ← p.readChunk kind mode bounds
    Dialogue.each publish readings
    let later ← sweepChunks p kind mode publish rest
    return ⟨later.calls + 1, readings ++ later.readings⟩

/-- Reads every row. -/
def sweep (p : Partition family) (kind : ObjectKind) (mode : ReadMode)
    (publish : Reading → Dialogue Unit) : Dialogue Sweep :=
  p.sweepChunks kind mode publish p.chunks

end Partition

end CounterPolling
