import CounterPolling.Proofs.Data.Exchange
import CounterPolling.Proofs.Partition.Rows

/-!
# Tables apart from some objects

A table is seen here without the rows of some objects, and without the partitions that have no
others. Rows of these objects may come and go: what is seen of every other object, the order of
its rows and the partitions that it stands in stay the same. Main statements:
`SortedMap.apartFrom_addRows`, `SortedMap.apartFrom_remove` and `SortedMap.apartFrom_eq_self`.
-/

namespace CounterPolling

namespace Partition

variable {family : CounterFamily} {p : Partition family} {named : List ObjectId} {vid : ObjectId}

/-- The partition without the rows of some objects. -/
def apartFrom (p : Partition family) (named : List ObjectId) : Partition family :=
  { p with rows := p.rows.filter fun row => row.vid ∉ named }

theorem apartFrom_addRows {rows : List Row} (h : ∀ row ∈ rows, row.vid ∈ named) :
    (p.addRows rows).apartFrom named = p.apartFrom named := by
  have hnone : rows.filter (fun row => row.vid ∉ named) = [] :=
    List.filter_eq_nil_iff.mpr fun row hrow => by simpa using h row hrow
  simp only [apartFrom, addRows, List.filter_append, hnone, List.append_nil]

theorem apartFrom_remove (h : vid ∈ named) :
    (p.remove vid).apartFrom named = p.apartFrom named := by
  simp only [apartFrom, remove, List.filter_filter]
  congr 1
  refine List.filter_congr fun row _ => ?_
  by_cases hrow : row.vid = vid
  · simp [hrow, h]
  · simp [hrow]

theorem apartFrom_singleton (p : Partition family) (vid : ObjectId) :
    p.apartFrom [vid] = p.remove vid := by
  simp only [apartFrom, remove, List.mem_singleton]
  congr 1
  exact List.filter_congr fun row _ => by by_cases hrow : row.vid = vid <;> simp [hrow]

theorem apartFrom_eq_self (h : ∀ row ∈ p.rows, row.vid ∉ named) : p.apartFrom named = p := by
  have hall : p.rows.filter (fun row => row.vid ∉ named) = p.rows :=
    List.filter_eq_self.mpr fun row hrow => decide_eq_true (h row hrow)
  rw [apartFrom, hall]

end Partition

namespace SortedMap

variable {family : CounterFamily} {κ : Type} [Ord κ]
  {table : SortedMap κ (Partition family)} {named : List ObjectId} {vid : ObjectId} {key : κ}

/-- The table without the rows of some objects, and without the partitions that have no others. -/
def apartFrom (table : SortedMap κ (Partition family)) (named : List ObjectId) :
    SortedMap κ (Partition family) :=
  (table.map fun _ p => p.apartFrom named).filter fun _ p => !p.isEmpty

/-- Apart from one object a table is what is left once that object was removed. -/
theorem apartFrom_singleton (table : SortedMap κ (Partition family)) (vid : ObjectId) :
    table.apartFrom [vid] =
      (table.map fun _ p => p.remove vid).filter fun _ p => !p.isEmpty := by
  simp only [apartFrom, Partition.apartFrom_singleton]

variable [Std.TransOrd κ] [Std.LawfulEqOrd κ]

theorem get?_apartFrom (table : SortedMap κ (Partition family)) (named : List ObjectId) (key : κ) :
    (table.apartFrom named).get? key =
      ((table.get? key).map fun p => p.apartFrom named).filter fun p => !p.isEmpty := by
  rw [apartFrom, get?_filter, get?_map]

/-- Rows of the objects may be added to any partition, or make one that was not there. -/
theorem apartFrom_addRows {fresh : Partition family} {rows : List Row}
    (hfresh : fresh.rows = []) (hrows : ∀ row ∈ rows, row.vid ∈ named) :
    (table.insert key (((table.get? key).getD fresh).addRows rows)).apartFrom named =
      table.apartFrom named := by
  refine ext_get? fun key' => ?_
  rw [get?_apartFrom, get?_apartFrom]
  by_cases hkey : key = key'
  · subst hkey
    rw [get?_insert_self, Option.map_some, Partition.apartFrom_addRows hrows]
    cases table.get? key with
    | some p => rfl
    | none =>
      have hempty : (fresh.apartFrom named).isEmpty = true := by
        rw [Partition.isEmpty, Partition.apartFrom, hfresh]
        rfl
      rw [Option.getD_none, Option.filter_some, hempty]
      rfl
  · rw [get?_insert_of_ne _ _ hkey]

/-- An object may be removed. -/
theorem apartFrom_remove (h : vid ∈ named) :
    ((table.map fun _ p => p.remove vid).filter fun _ p => !p.isEmpty).apartFrom named =
      table.apartFrom named := by
  refine ext_get? fun key => ?_
  rw [get?_apartFrom, get?_apartFrom, get?_filter, get?_map]
  cases table.get? key with
  | none => rfl
  | some p =>
    rw [Option.map_some, Option.map_some, ← Partition.apartFrom_remove h]
    cases hrows : (p.remove vid).rows with
    | cons row rest =>
      have hsome : (p.remove vid).isEmpty = false := by
        rw [Partition.isEmpty, hrows]
        rfl
      rw [Option.filter_some, hsome]
      rfl
    | nil =>
      have hempty : (p.remove vid).isEmpty = true := List.isEmpty_iff.mpr hrows
      have hapart : ((p.remove vid).apartFrom named).isEmpty = true := by
        rw [Partition.isEmpty, Partition.apartFrom, hrows]
        rfl
      rw [Option.filter_some, Option.filter_some, hempty, hapart]
      rfl

/-- A table without empty partitions is as it is apart from objects that have no row in it. -/
theorem apartFrom_eq_self
    (h : ∀ key p, table.get? key = some p → p.rows ≠ [] ∧ ∀ row ∈ p.rows, row.vid ∉ named) :
    table.apartFrom named = table := by
  refine ext_get? fun key => ?_
  rw [get?_apartFrom]
  cases hp : table.get? key with
  | none => rfl
  | some p =>
    obtain ⟨hne, hothers⟩ := h key p hp
    have hsome : p.isEmpty = false := by
      rw [Partition.isEmpty, List.isEmpty_eq_false_iff]
      exact hne
    rw [Option.map_some, Partition.apartFrom_eq_self hothers, Option.filter_some, hsome]
    rfl

end SortedMap

namespace PartitionTable

variable {family : CounterFamily} {table : PartitionTable family} {named : List ObjectId}
  {rows : List Row}

/-- Rows of the objects may be added for any shares. -/
theorem apartFrom_addShares (hrows : ∀ row ∈ rows, row.vid ∈ named) (mode : Option ReadMode)
    (shares : List (Share family)) :
    (table.addShares mode rows shares).apartFrom named = table.apartFrom named := by
  induction shares generalizing table with
  | nil => rfl
  | cons share shares ih =>
    calc
      (table.addShares mode rows (share :: shares)).apartFrom named =
          (table.addShare mode rows share).apartFrom named := ih
      _ = table.apartFrom named := SortedMap.apartFrom_addRows rfl hrows

end PartitionTable

end CounterPolling
