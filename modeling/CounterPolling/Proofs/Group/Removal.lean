import CounterPolling.Proofs.Group.Growth
import CounterPolling.Proofs.Partition.Apart

/-!
# Dropping one object from a group

Dropping an object asks nothing of the driver, and concerns no other object: what stands under
the others and the rows that partitions read for them stay as they are. Main statements:
`Group.mem_vids_without` and `Group.tracking_without`.
-/

namespace CounterPolling

/-- How an object is read in bulk with the counters of one partition. -/
structure BulkTracking where
  /-- The read mode that the object came with, if it did. -/
  mode : Option ReadMode
  /-- The share of a counter list that the partition stands for. -/
  name : String
  /-- Rows in one bulk read, zero for all at once. -/
  chunkSize : Nat
  /-- The numbers of the counters read. -/
  counters : List Int
  /-- The rows of the object, in the order they were added. -/
  keys : List RowKey
  deriving DecidableEq

/-- All that a group has of an object. -/
structure Tracking where
  /-- What stands under the object itself: the driver's id, counters and a read mode. -/
  own : Option (ObjectId × List Int × Option ReadMode)
  /-- How the object is read in bulk, partition by partition. -/
  bulk : List BulkTracking
  deriving DecidableEq

namespace Partition

variable {family : CounterFamily} {p : Partition family} {mode : Option ReadMode}
  {vid other : ObjectId}

/-- The rows that an object owns. -/
def rowsOf (p : Partition family) (vid : ObjectId) : List Row :=
  p.rows.filter fun row => row.vid == vid

/-- How a partition reads an object that owns some of its rows. -/
def tracking? (p : Partition family) (mode : Option ReadMode) (vid : ObjectId) :
    Option BulkTracking :=
  if (p.rowsOf vid).isEmpty then none
  else some ⟨mode, p.name, p.chunkSize, CounterId.raws p.ids, (p.rowsOf vid).map Row.key⟩

/-- The rows of other objects are all there apart from the named ones. -/
theorem rowsOf_apartFrom {named : List ObjectId} (h : other ∉ named) :
    (p.apartFrom named).rowsOf other = p.rowsOf other := by
  unfold rowsOf apartFrom
  rw [List.filter_filter]
  refine List.filter_congr fun row _ => ?_
  by_cases hrow : row.vid = other
  · simp [hrow, h]
  · simp [hrow]

theorem tracking?_apartFrom {named : List ObjectId} (h : other ∉ named) :
    (p.apartFrom named).tracking? mode other = p.tracking? mode other := by
  unfold tracking?
  rw [rowsOf_apartFrom h]
  rfl

/-- A partition without rows reads nothing. -/
theorem tracking?_of_isEmpty (h : p.isEmpty = true) : p.tracking? mode vid = none := by
  rw [tracking?, rowsOf, List.isEmpty_iff.mp h]
  rfl

end Partition

/-- How the partitions under a table's keys read an object. -/
def bulkTracking {family : CounterFamily} {κ : Type} [Ord κ] (modeOf : κ → Option ReadMode)
    (table : SortedMap κ (Partition family)) (vid : ObjectId) : List BulkTracking :=
  table.entries.filterMap fun entry => entry.2.tracking? (modeOf entry.1) vid

/-- How the other objects are read is told by a table apart from the named ones. -/
theorem bulkTracking_apartFrom {family : CounterFamily} {κ : Type} [Ord κ]
    (modeOf : κ → Option ReadMode) (table : SortedMap κ (Partition family))
    {named : List ObjectId} {other : ObjectId} (h : other ∉ named) :
    bulkTracking modeOf (table.apartFrom named) other = bulkTracking modeOf table other := by
  unfold bulkTracking SortedMap.apartFrom
  rw [SortedMap.entries_filter, SortedMap.entries_map, List.filterMap_filter, List.filterMap_map]
  refine List.filterMap_congr fun entry _ => ?_
  rw [Function.comp_apply]
  split
  · exact Partition.tracking?_apartFrom h
  · next hempty =>
    rw [← Partition.tracking?_apartFrom h]
    exact (Partition.tracking?_of_isEmpty (by simpa using hempty)).symm

/-- Dropping an object, and the partitions left without rows, leaves how others are read. -/
theorem bulkTracking_remove {family : CounterFamily} {κ : Type} [Ord κ]
    (modeOf : κ → Option ReadMode) (table : SortedMap κ (Partition family))
    {vid other : ObjectId} (h : other ≠ vid) :
    bulkTracking modeOf ((table.map fun _ p => p.remove vid).filter fun _ p => !p.isEmpty) other =
      bulkTracking modeOf table other := by
  rw [← SortedMap.apartFrom_singleton]
  exact bulkTracking_apartFrom modeOf table fun hmem => h (List.mem_singleton.mp hmem)

namespace Group

variable {group : Group} {vid other : ObjectId}

/-- All that the group has of an object. -/
def tracking (group : Group) (vid : ObjectId) : Tracking :=
  match group with
  | stats _ g =>
    ⟨(g.singles.get? vid).map fun r => (r.rid, CounterId.raws r.ids, r.mode),
      bulkTracking PartitionKey.mode g.partitions vid⟩
  | attributes _ g =>
    ⟨(g.objects.get? vid).map fun list => (list.rid, CounterId.raws list.ids, none), []⟩
  | meterBuckets g =>
    ⟨(g.interfaces.get? vid).map fun rid => (rid, [], none),
      bulkTracking (fun _ => none) g.partitions vid⟩

/-- The group once an object was dropped. -/
def without (group : Group) (vid : ObjectId) : Group :=
  match group with
  | stats family g => stats family (if g.tracks vid then g.untrack vid else g)
  | attributes family g => attributes family { g with objects := g.objects.erase vid }
  | meterBuckets g => meterBuckets (g.untrack vid)

/-- In every branch a removal comes to the group without the object. -/
theorem remove_always (group : Group) (vid : ObjectId) :
    (group.remove vid).Always fun after => after = group.without vid := by
  cases group with
  | stats family g =>
    rw [remove, Dialogue.always_map, StatsGroup.remove, without]
    split
    · rfl
    · exact Dialogue.always_bind_of_forall fun _ => rfl
  | attributes family g =>
    rw [remove, Dialogue.always_map, AttributeGroup.remove, without]
    split
    · rfl
    · next habsent =>
      rw [SortedMap.erase_eq_self (by simpa using habsent)]
      exact Dialogue.always_bind_of_forall fun _ => rfl
  | meterBuckets g =>
    rw [remove, Dialogue.always_map, MeterGroup.remove, without]
    split
    · rfl
    · next habsent =>
      rw [MeterGroup.untrack, if_neg habsent]
      exact Dialogue.always_bind_of_forall fun _ => rfl

/-- Whatever the driver answers, a removal comes to the group without the object. -/
theorem value_remove (group : Group) (vid : ObjectId) (switch : Switch) (past : List Event) :
    ((group.remove vid).run switch past).value = group.without vid :=
  (group.remove_always vid).value switch past

@[simp]
theorem settings_without (group : Group) (vid : ObjectId) :
    (group.without vid).settings = group.settings := by
  cases group with
  | stats family g =>
    change (if g.tracks vid then g.untrack vid else g).settings = g.settings
    split
    · exact g.settings_untrack vid
    · rfl
  | attributes family g => rfl
  | meterBuckets g => exact g.settings_untrack vid

/-- What is left once an object was dropped are the others, unless it was tracked in two ways. -/
theorem mem_vids_without (h : group.Exclusive) :
    other ∈ (group.without vid).vids ↔ other ≠ vid ∧ other ∈ group.vids := by
  cases group with
  | stats family g =>
    have hexclusive : g.Exclusive := h
    unfold without vids
    dsimp only
    split
    · rw [StatsGroup.mem_vids, StatsGroup.mem_vids, StatsGroup.contains_untrack,
        StatsGroup.holds_untrack hexclusive, and_or_left]
    · next habsent =>
      refine (and_iff_right_of_imp ?_).symm
      rintro hother rfl
      rw [StatsGroup.mem_vids, ← Bool.or_eq_true] at hother
      exact habsent hother
  | attributes family g =>
    unfold without vids AttributeGroup.vids
    rw [← SortedMap.contains_iff, ← SortedMap.contains_iff, SortedMap.contains_erase, ne_comm]
  | meterBuckets g => exact MeterGroup.mem_vids_untrack

/-- Dropping an object leaves how others are tracked. -/
theorem tracking_without (group : Group) (h : other ≠ vid) :
    (group.without vid).tracking other = group.tracking other := by
  cases group with
  | stats family g =>
    unfold without tracking
    dsimp only
    split
    · unfold StatsGroup.untrack
      split
      · rw [SortedMap.get?_erase_of_ne g.singles h.symm]
      · rw [PartitionTable.remove, bulkTracking_remove PartitionKey.mode g.partitions h]
    · rfl
  | attributes family g =>
    unfold without tracking
    dsimp only
    rw [SortedMap.get?_erase_of_ne g.objects h.symm]
  | meterBuckets g =>
    unfold without tracking MeterGroup.untrack
    dsimp only
    split
    · rw [SortedMap.get?_erase_of_ne g.interfaces h.symm, bulkTracking_remove _ g.partitions h]
    · rfl

end Group

end CounterPolling
