import CounterPolling.Data.SortedSet
import CounterPolling.Partition.Table

/-!
# Merging partitions and dividing them anew

When other prefixes come into force, partitions are merged back into the counter sets
that the shares were parts of, and these are divided by the new prefixes. Without
prefixes each partition is a whole set already. With prefixes the sets can be told only
if all partitions hold the same objects in the same mode; they are the parts of one set
then.
-/

namespace CounterPolling

/-- A counter set with the rows read for it. -/
structure WholeSet (family : CounterFamily) where
  /-- The read mode that the objects came with, if they did. -/
  mode : Option ReadMode
  /-- The counters read, ascending. -/
  ids : List (CounterId family)
  /-- The rows. -/
  rows : List Row
  deriving DecidableEq

namespace PartitionTable

variable {family : CounterFamily}

/-- Who is read in a partition, and in which mode. -/
def membership (entry : PartitionKey family × Partition family) :
    Option ReadMode × SortedSet ObjectId :=
  (entry.1.mode, SortedSet.ofList entry.2.vids)

/-- Each partition as a whole set. -/
def wholeSets (table : PartitionTable family) : List (WholeSet family) :=
  table.entries.map fun entry => ⟨entry.1.mode, entry.1.ids, entry.2.rows⟩

/-- All partitions as the parts of one set, if they hold the same objects. -/
def union? (table : PartitionTable family) : Option (List (WholeSet family)) :=
  match table.entries with
  | [] => some []
  | first :: rest =>
    if rest.all fun entry => membership entry == membership first then
      let ids := table.keys.flatMap PartitionKey.ids
      some [⟨first.1.mode, SortedSet.toList (SortedSet.ofList ids), first.2.rows⟩]
    else none

/-- The counter sets that the partitions divide, as far as that can be told. -/
def merge? (prefixes : PrefixConfig) (table : PartitionTable family) :
    Option (List (WholeSet family)) :=
  if prefixes.isEmpty then some table.wholeSets else table.union?

/-- The table that divides counter sets by a prefix configuration. -/
def ofWholeSets (prefixes : PrefixConfig) (defaultSize : Nat)
    (sets : List (WholeSet family)) : PartitionTable family :=
  sets.foldl
    (fun table set => table.addShares set.mode set.rows (prefixes.split defaultSize set.ids)) ∅

end PartitionTable

end CounterPolling
