import CounterPolling.Chunking.Split
import CounterPolling.Data.SortedMap
import CounterPolling.Partition.Basic
import CounterPolling.Switch.ReadMode

/-!
# Tables of partitions

The partitions of a group stand in a table, under a key that tells which counters are
read and how. Objects that ask for the same counters share a partition; one without rows
is dropped.
-/

namespace CounterPolling

/-- What tells partitions apart: the read mode of the objects' own, and the counters. -/
structure PartitionKey (family : CounterFamily) where
  /-- The read mode that the objects came with, if they did. -/
  mode : Option ReadMode
  /-- The counters read, ascending. -/
  ids : List (CounterId family)
  deriving DecidableEq

namespace PartitionKey

variable {family : CounterFamily}

/-- Keys are compared by mode first, and then by counters. -/
def order : PartitionKey family → PartitionKey family → Ordering :=
  compareLex (compareOn mode) (compareOn ids)

instance : Ord (PartitionKey family) := ⟨order⟩

instance : Std.TransCmp (order : PartitionKey family → PartitionKey family → Ordering) := by
  unfold order
  infer_instance

instance : Std.TransOrd (PartitionKey family) :=
  inferInstanceAs (Std.TransCmp order)

instance : Std.LawfulEqOrd (PartitionKey family) where
  compare_self {a} := by
    have h : Std.ReflCmp (order : PartitionKey family → _ → _) := inferInstance
    exact h.compare_self
  eq_of_compare {a b} h := by
    obtain ⟨hmode, hids⟩ := compareLex_eq_eq.mp h
    cases a
    cases b
    cases Std.LawfulEqOrd.eq_of_compare hmode
    cases Std.LawfulEqOrd.eq_of_compare hids
    rfl

end PartitionKey

/-- The partitions of a group by key. -/
abbrev PartitionTable (family : CounterFamily) : Type :=
  SortedMap (PartitionKey family) (Partition family)

namespace PartitionTable

variable {family : CounterFamily}

/-- Whether some partition holds a row of an object. -/
def holds (table : PartitionTable family) (vid : ObjectId) : Bool :=
  table.any fun _ p => p.holds vid

/-- Removes every row of an object, and the partitions left without rows. -/
def remove (table : PartitionTable family) (vid : ObjectId) : PartitionTable family :=
  (table.map fun _ p => p.remove vid).filter fun _ p => !p.isEmpty

/-- Adds rows for one share of a counter list, in a new partition if there is none for it. -/
def addShare (mode : Option ReadMode) (rows : List Row) (table : PartitionTable family)
    (share : Share family) : PartitionTable family :=
  let key : PartitionKey family := ⟨mode, share.ids⟩
  let present := (table.get? key).getD ⟨share.name, share.chunkSize, share.ids, []⟩
  table.insert key (present.addRows rows)

/-- Adds rows for every share of a counter list. -/
def addShares (mode : Option ReadMode) (rows : List Row) (shares : List (Share family))
    (table : PartitionTable family) : PartitionTable family :=
  shares.foldl (addShare mode rows) table

/-- Changes the chunk size of each partition whose name is given one. -/
def resize (table : PartitionTable family) (sizeOf? : String → Option Nat) :
    PartitionTable family :=
  table.map fun _ p => p.withChunkSize ((sizeOf? p.name).getD p.chunkSize)

end PartitionTable

end CounterPolling
