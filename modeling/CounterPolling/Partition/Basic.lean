import CounterPolling.Counter.Id
import CounterPolling.Object.Id

/-!
# Partitions

A partition is a set of counters with the rows that are read for them together. A row is
a key of a bulk read with the virtual id it is read for; one object may own several rows.
-/

namespace CounterPolling

/-- A key of a bulk read, and the object it is read for. -/
structure Row where
  /-- The object that owns the row. -/
  vid : ObjectId
  /-- What the driver is asked for. -/
  key : RowKey
  deriving DecidableEq

/-- Rows that are read with one list of counters. -/
structure Partition (family : CounterFamily) where
  /-- The share of a counter list that the partition stands for. -/
  name : String
  /-- Rows in one bulk read, zero for all at once. -/
  chunkSize : Nat
  /-- The counters read for every row. -/
  ids : List (CounterId family)
  /-- The rows, in the order they were added. -/
  rows : List Row
  deriving DecidableEq

namespace Partition

variable {family : CounterFamily}

/-- The object of each row. -/
def vids (p : Partition family) : List ObjectId :=
  p.rows.map Row.vid

/-- Number of rows. -/
def size (p : Partition family) : Nat :=
  p.rows.length

/-- Whether there are no rows. -/
def isEmpty (p : Partition family) : Bool :=
  p.rows.isEmpty

/-- Whether an object owns a row. -/
def holds (p : Partition family) (vid : ObjectId) : Bool :=
  p.rows.any fun row => row.vid == vid

/-- Number of rows that an object owns. -/
def rowCount (p : Partition family) (vid : ObjectId) : Nat :=
  p.rows.countP fun row => row.vid == vid

/-- Adds rows after the present ones. -/
def addRows (p : Partition family) (rows : List Row) : Partition family :=
  { p with rows := p.rows ++ rows }

/-- Adds one row after the present ones. -/
def addRow (p : Partition family) (row : Row) : Partition family :=
  p.addRows [row]

/-- Removes every row of an object. -/
def remove (p : Partition family) (vid : ObjectId) : Partition family :=
  { p with rows := p.rows.filter fun row => row.vid != vid }

/-- Changes the number of rows in one bulk read. -/
def withChunkSize (p : Partition family) (chunkSize : Nat) : Partition family :=
  { p with chunkSize := chunkSize }

@[simp]
theorem rows_addRows (p : Partition family) (rows : List Row) :
    (p.addRows rows).rows = p.rows ++ rows := rfl

@[simp]
theorem rows_addRow (p : Partition family) (row : Row) :
    (p.addRow row).rows = p.rows ++ [row] := rfl

@[simp]
theorem rows_remove (p : Partition family) (vid : ObjectId) :
    (p.remove vid).rows = p.rows.filter fun row => row.vid != vid := rfl

@[simp]
theorem rows_withChunkSize (p : Partition family) (chunkSize : Nat) :
    (p.withChunkSize chunkSize).rows = p.rows := rfl

/-- What is removed is what was counted. -/
theorem size_remove_add_rowCount (p : Partition family) (vid : ObjectId) :
    (p.remove vid).size + p.rowCount vid = p.size := by
  simp only [size, rowCount, rows_remove]
  induction p.rows with
  | nil => rfl
  | cons row rows ih =>
    by_cases h : row.vid = vid <;> simp [h] <;> omega

end Partition

end CounterPolling
