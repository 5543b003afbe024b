import CounterPolling.Partition.Merge
import CounterPolling.Proofs.Data.Membership

/-!
# The rows of a table

A table is seen here as the rows that stand under each key, none under a key without a
partition. Each operation on tables is described by what it does to this view, and by the
counters that are read for a row in consequence.
-/

namespace CounterPolling

namespace PartitionTable

variable {family : CounterFamily} {table : PartitionTable family}

/-- The rows under a key. -/
def rowsAt (table : PartitionTable family) (key : PartitionKey family) : List Row :=
  ((table.get? key).map Partition.rows).getD []

/-- A counter is read for a row in a mode. -/
def Reads (table : PartitionTable family) (mode : Option ReadMode) (row : Row)
    (id : CounterId family) : Prop :=
  ∃ key : PartitionKey family, key.mode = mode ∧ row ∈ table.rowsAt key ∧ id ∈ key.ids

theorem rowsAt_eq {key : PartitionKey family} {p : Partition family}
    (h : table.get? key = some p) : table.rowsAt key = p.rows := by
  simp [rowsAt, h]

theorem mem_rowsAt {key : PartitionKey family} {row : Row} :
    row ∈ table.rowsAt key ↔ ∃ p, (key, p) ∈ table.entries ∧ row ∈ p.rows := by
  cases h : table.get? key with
  | none =>
    simp only [rowsAt, h, Option.map_none, Option.getD_none, List.not_mem_nil, false_iff]
    rintro ⟨p, hp, -⟩
    rw [← SortedMap.get?_eq_some_iff, h] at hp
    exact Option.some_ne_none p hp.symm
  | some p =>
    rw [rowsAt_eq h]
    constructor
    · intro hrow
      exact ⟨p, SortedMap.get?_eq_some_iff.mp h, hrow⟩
    · rintro ⟨p', hp', hrow⟩
      rw [← SortedMap.get?_eq_some_iff, h] at hp'
      cases hp'
      exact hrow

/-- An object is held exactly if a row of it stands under some key. -/
theorem holds_iff {vid : ObjectId} :
    table.holds vid = true ↔ ∃ key, ∃ row ∈ table.rowsAt key, row.vid = vid := by
  simp only [holds, SortedMap.any, Partition.holds, List.any_eq_true, beq_iff_eq, mem_rowsAt]
  constructor
  · rintro ⟨⟨key, p⟩, he, row, hrow, hvid⟩
    exact ⟨key, row, ⟨p, he, hrow⟩, hvid⟩
  · rintro ⟨key, row, ⟨p, he, hrow⟩, hvid⟩
    exact ⟨(key, p), he, row, hrow, hvid⟩

@[simp]
theorem rowsAt_empty (key : PartitionKey family) :
    (∅ : PartitionTable family).rowsAt key = [] := rfl

section Shares

variable {mode : Option ReadMode} {rows : List Row}

/-- Looking up after rows were added for one share. -/
theorem get?_addShare (table : PartitionTable family) (share : Share family)
    (key : PartitionKey family) :
    (table.addShare mode rows share).get? key =
      if key = ⟨mode, share.ids⟩ then
        some (((table.get? key).getD ⟨share.name, share.chunkSize, share.ids, []⟩).addRows rows)
      else table.get? key := by
  unfold addShare
  split
  · next h =>
    subst h
    exact SortedMap.get?_insert_self _ _ _
  · next h => exact SortedMap.get?_insert_of_ne _ _ (Ne.symm h)

theorem rowsAt_addShare (table : PartitionTable family) (share : Share family)
    (key : PartitionKey family) :
    (table.addShare mode rows share).rowsAt key =
      table.rowsAt key ++ if key = ⟨mode, share.ids⟩ then rows else [] := by
  by_cases h : key = ⟨mode, share.ids⟩
  · rw [rowsAt, get?_addShare, if_pos h, if_pos h]
    cases hp : table.get? key with
    | none => simp [rowsAt, hp]
    | some p => simp [rowsAt, hp]
  · rw [rowsAt, get?_addShare, if_neg h, if_neg h, List.append_nil]
    rfl

/-- Rows added for shares stand behind the present ones, once under the key of each share. -/
theorem rowsAt_addShares {shares : List (Share family)} (h : (shares.map Share.ids).Nodup)
    (table : PartitionTable family) (key : PartitionKey family) :
    (table.addShares mode rows shares).rowsAt key =
      table.rowsAt key ++
        if key.mode = mode ∧ key.ids ∈ shares.map Share.ids then rows else [] := by
  induction shares generalizing table with
  | nil => simp [addShares]
  | cons share shares ih =>
    obtain ⟨hfirst, hrest⟩ := List.nodup_cons.mp h
    have hstep := ih hrest (table.addShare mode rows share)
    change ((table.addShare mode rows share).addShares mode rows shares).rowsAt key = _
    rw [hstep, rowsAt_addShare, List.append_assoc]
    congr 1
    obtain ⟨m, ids⟩ := key
    by_cases hm : m = mode
    · by_cases hids : ids = share.ids
      · subst hm hids
        simp [hfirst]
      · simp [hm, hids]
    · simp [hm]

end Shares

/-- Looking up after an object was removed. -/
theorem get?_remove (table : PartitionTable family) (vid : ObjectId)
    (key : PartitionKey family) :
    (table.remove vid).get? key =
      ((table.get? key).map fun p => p.remove vid).filter fun p => !p.isEmpty := by
  rw [remove, SortedMap.get?_filter, SortedMap.get?_map]

@[simp]
theorem rowsAt_remove (table : PartitionTable family) (vid : ObjectId)
    (key : PartitionKey family) :
    (table.remove vid).rowsAt key = (table.rowsAt key).filter fun row => row.vid != vid := by
  rw [rowsAt, get?_remove]
  cases hp : table.get? key with
  | none => simp [rowsAt, hp]
  | some p =>
    rw [rowsAt_eq hp, Option.map_some]
    cases hrows : (p.remove vid).rows with
    | nil =>
      have hempty : (p.remove vid).isEmpty = true := List.isEmpty_iff.mpr hrows
      rw [Partition.rows_remove] at hrows
      simp [Option.filter, hempty, hrows]
    | cons row rest =>
      have hempty : (p.remove vid).isEmpty = false := by
        rw [Partition.isEmpty, hrows]
        rfl
      simp [Option.filter, hempty]

/-- After an object was removed the others are held as before. -/
@[simp]
theorem holds_remove {vid vid' : ObjectId} :
    (table.remove vid).holds vid' = true ↔ vid' ≠ vid ∧ table.holds vid' = true := by
  simp only [holds_iff, rowsAt_remove, List.mem_filter, bne_iff_ne, ne_eq]
  constructor
  · rintro ⟨key, row, ⟨hrow, hne⟩, rfl⟩
    exact ⟨hne, key, row, hrow, rfl⟩
  · rintro ⟨hne, key, row, hrow, rfl⟩
    exact ⟨key, row, ⟨hrow, hne⟩, rfl⟩

@[simp]
theorem get?_resize (table : PartitionTable family) (sizeOf? : String → Option Nat)
    (key : PartitionKey family) :
    (table.resize sizeOf?).get? key =
      (table.get? key).map fun p => p.withChunkSize ((sizeOf? p.name).getD p.chunkSize) :=
  SortedMap.get?_map _ _ _

@[simp]
theorem rowsAt_resize (table : PartitionTable family) (sizeOf? : String → Option Nat)
    (key : PartitionKey family) : (table.resize sizeOf?).rowsAt key = table.rowsAt key := by
  cases hp : table.get? key <;> simp [rowsAt, hp]

@[simp]
theorem holds_resize {sizeOf? : String → Option Nat} {vid : ObjectId} :
    (table.resize sizeOf?).holds vid = table.holds vid := by
  rw [Bool.eq_iff_iff, holds_iff, holds_iff]
  simp only [rowsAt_resize]

end PartitionTable

end CounterPolling
