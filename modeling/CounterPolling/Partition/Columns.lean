import CounterPolling.Partition.Slots

/-!
# Partitions kept in columns

The rows of a partition may be kept in two columns of equal length, one with the objects and one
with the keys. A row is what stands at one position of both, so whatever is added to a column or
taken from it has to be added to the other one or taken from it too. What would reach beyond the end
of a column comes to nothing at all.
-/

namespace CounterPolling

/-- What is left of a column once the entry at a position is taken away, if there is one. -/
def takeAway? {α : Type} (column : Array α) (position : Nat) : Option (Array α) :=
  if h : position < column.size then some (column.eraseIdx position h) else none

/-- The part of a column between two positions, if the column reaches that far. -/
def part? {α : Type} (column : Array α) (bounds : Nat × Nat) : Option (List α) :=
  if bounds.2 ≤ column.size then some (column.extract bounds.1 bounds.2).toList else none

/-- Rows of a partition in two columns, with the slots that all bulk reads of them write into. -/
structure Columns (family : CounterFamily) where
  /-- The share of a counter list that the partition stands for. -/
  name : String
  /-- Rows in one bulk read, zero for all at once. -/
  chunkSize : Nat
  /-- The counters read for every row. -/
  ids : List (CounterId family)
  /-- The numbers of the counters, as the driver takes them. -/
  raws : List Int
  /-- The object of each row. -/
  vids : Array ObjectId
  /-- The key of each row. -/
  keys : Array RowKey
  /-- What bulk reads write into. -/
  slots : ReadSlots

namespace Columns

variable {family : CounterFamily}

/-- Columns without rows. -/
def new (name : String) (chunkSize : Nat) (ids : List (CounterId family)) : Columns family :=
  ⟨name, chunkSize, ids, CounterId.raws ids, #[], #[], ⟨[], []⟩⟩

/-- The rows, in order. -/
def rows (b : Columns family) : List Row :=
  (b.vids.toList.zip b.keys.toList).map fun entry => ⟨entry.1, entry.2⟩

/-- The partition that is kept in the columns. -/
def partition (b : Columns family) : Partition family :=
  ⟨b.name, b.chunkSize, b.ids, b.rows⟩

/-- Adds a row at the end of both columns. -/
def push (b : Columns family) (row : Row) : Columns family :=
  { b with vids := b.vids.push row.vid, keys := b.keys.push row.key }

/--
Takes away every row of an object from a position on. The position moves on past the rows of other
objects only, as the row behind one that is taken away comes to stand in its place.
-/
def removeFrom (vid : ObjectId) (vids : Array ObjectId) (keys : Array RowKey) (position : Nat) :
    Option (Array ObjectId × Array RowKey) :=
  if h : position < vids.size then
    if vids[position] = vid then
      match takeAway? keys position with
      | none => none
      | some keys => removeFrom vid (vids.eraseIdx position h) keys position
    else removeFrom vid vids keys (position + 1)
  else some (vids, keys)
termination_by vids.size - position

/-- Removes every row of an object in place, and counts them. -/
def remove (b : Columns family) (vid : ObjectId) : Option (Columns family × Nat) :=
  (removeFrom vid b.vids b.keys 0).map fun left =>
    ({ b with vids := left.1, keys := left.2 }, b.vids.size - left.1.size)

/-- Changes the number of rows in one bulk read. -/
def withChunkSize (b : Columns family) (chunkSize : Nat) : Columns family :=
  { b with chunkSize := chunkSize }

/-- Reads one chunk into slots; a failed bulk read may leave anything in them. -/
def readChunk (b : Columns family) (kind : ObjectKind) (mode : ReadMode)
    (spoil : DriverError → ReadSlots → ReadSlots) (bounds : Nat × Nat) (slots : ReadSlots) :
    Dialogue (Option (List Reading × ReadSlots)) :=
  match part? b.vids bounds, part? b.keys bounds with
  | some vids, some keys => do
    let prepared := slots.prepare (bounds.2 - bounds.1) b.raws.length
    match ← Dialogue.question (.bulkRead kind keys b.raws mode) with
    | .error error =>
      Dialogue.report (.bulkReadFailed kind bounds.1 bounds.2 b.name error)
      return some ([], spoil error prepared)
    | .ok fill =>
      let written := prepared.write fill
      let rows := (vids.zip keys).map fun entry => ⟨entry.1, entry.2⟩
      return some (written.readings b.raws.length rows, written)
  | _, _ => return none

/-- Reads chunks in turn, each into the slots as the one before left them. -/
def readChunks (b : Columns family) (kind : ObjectKind) (mode : ReadMode)
    (spoil : DriverError → ReadSlots → ReadSlots) (publish : Reading → Dialogue Unit) :
    List (Nat × Nat) → ReadSlots → Dialogue (Option (Sweep × ReadSlots))
  | [], slots => return some (⟨0, []⟩, slots)
  | bounds :: rest, slots => do
    match ← b.readChunk kind mode spoil bounds slots with
    | none => return none
    | some (readings, slots) =>
      Dialogue.each publish readings
      match ← readChunks b kind mode spoil publish rest slots with
      | none => return none
      | some (later, slots) => return some (⟨later.calls + 1, readings ++ later.readings⟩, slots)

/-- Reads every row. Only the slots change. -/
def poll (b : Columns family) (kind : ObjectKind) (mode : ReadMode)
    (spoil : DriverError → ReadSlots → ReadSlots) (publish : Reading → Dialogue Unit) :
    Dialogue (Option (Columns family × Sweep)) := do
  let outcome ←
    b.readChunks kind mode spoil publish (chunkBounds b.vids.size b.chunkSize) b.slots
  return outcome.map fun (sweep, slots) => ({ b with slots := slots }, sweep)

end Columns

end CounterPolling
