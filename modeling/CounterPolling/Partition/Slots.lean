import CounterPolling.Partition.Sweep

/-!
# Slots that bulk reads write into

A bulk read is handed slots: a status for each of its rows, and a value for each counter of each
row. All chunks of all passes over a partition may share one set of slots. Before each bulk read the
slots are emptied and made to fit its rows, and the rows read are told from what it wrote.
-/

namespace CounterPolling

/-- What bulk reads write into. -/
structure ReadSlots where
  /-- A status for each row. -/
  statuses : List Status
  /-- The counters, row by row. -/
  counters : List UInt64
  deriving DecidableEq

namespace ReadSlots

/-- A list brought to a length: cut off, or filled up with a value. -/
def fit {α : Type} (length : Nat) (value : α) (list : List α) : List α :=
  list.take length ++ List.replicate (length - list.length) value

/-- The slots without their contents. -/
def clear : ReadSlots → ReadSlots
  | ⟨_, _⟩ => ⟨[], []⟩

/-- Empties the slots and makes them fit a number of rows: failed, and with zeros for counters. -/
def prepare (slots : ReadSlots) (rows width : Nat) : ReadSlots :=
  ⟨fit rows .failure slots.clear.statuses, fit (rows * width) 0 slots.clear.counters⟩

/-- Writes what a bulk read delivers over what is in the slots. -/
def write (slots : ReadSlots) (fill : BulkFill) : ReadSlots :=
  ⟨slots.statuses.mapIdx fun row status => (fill.status row).getD status,
    slots.counters.mapIdx fun position value => (fill.counter position).getD value⟩

/-- The rows that the slots report success for, each with its counters. -/
def readings (slots : ReadSlots) (width : Nat) (rows : List Row) : List Reading :=
  (rows.zip slots.statuses).zipIdx.filterMap fun entry =>
    if entry.1.2.isSuccess then
      some ⟨entry.1.1, (slots.counters.drop (entry.2 * width)).take width⟩
    else none

end ReadSlots

namespace Partition

variable {family : CounterFamily}

/-- Reads one chunk into slots; a failed bulk read may leave anything in them. -/
def readChunkInto (p : Partition family) (kind : ObjectKind) (mode : ReadMode)
    (spoil : DriverError → ReadSlots → ReadSlots) (bounds : Nat × Nat) (slots : ReadSlots) :
    Dialogue (List Reading × ReadSlots) := do
  let rows := p.slice bounds
  let prepared := slots.prepare rows.length p.ids.length
  let request := Request.bulkRead kind (rows.map Row.key) (CounterId.raws p.ids) mode
  match ← Dialogue.question request with
  | .error error =>
    Dialogue.report (.bulkReadFailed kind bounds.1 bounds.2 p.name error)
    return ([], spoil error prepared)
  | .ok fill =>
    let written := prepared.write fill
    return (written.readings p.ids.length rows, written)

/-- Reads chunks in turn, each into the slots as the one before left them. -/
def sweepChunksInto (p : Partition family) (kind : ObjectKind) (mode : ReadMode)
    (spoil : DriverError → ReadSlots → ReadSlots) (publish : Reading → Dialogue Unit) :
    List (Nat × Nat) → ReadSlots → Dialogue (Sweep × ReadSlots)
  | [], slots => return (⟨0, []⟩, slots)
  | bounds :: rest, slots => do
    let (readings, slots) ← p.readChunkInto kind mode spoil bounds slots
    Dialogue.each publish readings
    let (later, slots) ← sweepChunksInto p kind mode spoil publish rest slots
    return (⟨later.calls + 1, readings ++ later.readings⟩, slots)

/-- Reads every row into slots, which hold what an earlier pass left. -/
def sweepInto (p : Partition family) (kind : ObjectKind) (mode : ReadMode)
    (spoil : DriverError → ReadSlots → ReadSlots) (publish : Reading → Dialogue Unit)
    (slots : ReadSlots) : Dialogue (Sweep × ReadSlots) :=
  p.sweepChunksInto kind mode spoil publish p.chunks slots

end Partition

end CounterPolling
