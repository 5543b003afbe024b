import CounterPolling.Partition.Sweep
import Mathlib.Data.List.Basic

/-!
# Chunks cover a partition

The chunks of a pass, one after the other, are the rows of the partition: none is left out
and none is read twice. Main statements: `Partition.flatMap_slice_chunks`, and
`BulkFill.readings_eq`, which rows of a chunk are read.
-/

namespace CounterPolling

/-- Pieces of one size, taken in turn from the front of a list, make up its front. -/
theorem flatMap_pieces {α : Type} (list : List α) (step count : Nat) :
    (List.range count).flatMap (fun i => (list.drop (i * step)).take step) =
      list.take (count * step) := by
  induction count with
  | zero => simp
  | succ count ih =>
    calc (List.range (count + 1)).flatMap (fun i => (list.drop (i * step)).take step)
        = list.take (count * step) ++ (list.drop (count * step)).take step := by
          rw [List.range_succ, List.flatMap_append, ih]
          simp
      _ = list.take ((count + 1) * step) := by
          rw [Nat.succ_mul, List.take_add]

/-- The rows that a bulk read delivers are those that its statuses report success for. -/
theorem BulkFill.readings_eq (fill : BulkFill) (width : Nat) (rows : List Row) :
    fill.readings width rows = rows.zipIdx.filterMap fun entry =>
      if fill.status entry.2 = some .success then
        some ⟨entry.1, fill.counters width entry.2⟩
      else none := by
  have hstatus : (rows.zip (fill.statuses .failure rows.length)).zipIdx =
      rows.zipIdx.map fun entry => ((entry.1, (fill.status entry.2).getD .failure), entry.2) := by
    apply List.ext_getElem
    · simp
    · intro i hi hi'
      simp [BulkFill.statuses]
  unfold BulkFill.readings
  rw [hstatus, List.filterMap_map]
  congr 1
  funext entry
  cases hentry : fill.status entry.2 with
  | none => simp [hentry, Status.isSuccess]
  | some status => simp [hentry]

/-- The size of all chunks but the last: the given size, or that of the list if it is less or none
is given. -/
private theorem exists_step {rows : Nat} (hrows : 0 < rows) (chunkSize : Nat) :
    ∃ step, 0 < step ∧ step ≤ rows ∧ (chunkSize ≠ 0 → step ≤ chunkSize) ∧
      (rows + step - 1) / step =
        (if chunkSize = 0 then 1 else (rows + chunkSize - 1) / chunkSize) ∧
      chunkBounds rows chunkSize = (List.range ((rows + step - 1) / step)).map fun i =>
        (i * step, min (i * step + step) rows) := by
  have hone : ∀ size, rows ≤ size → (rows + size - 1) / size = 1 :=
    fun size hsize => Nat.div_eq_of_lt_le (by omega) (by omega)
  refine ⟨if chunkSize = 0 then rows else min chunkSize rows, ?_, ?_, ?_, ?_, ?_⟩
  · split <;> omega
  · split <;> omega
  · intro hsize
    rw [if_neg hsize]
    exact Nat.min_le_left _ _
  · split
    · exact hone rows (Nat.le_refl rows)
    · rcases Nat.le_total chunkSize rows with hle | hge
      · rw [Nat.min_eq_left hle]
      · rw [Nat.min_eq_right hge, hone rows (Nat.le_refl rows), hone chunkSize hge]
  · rw [chunkBounds, if_neg (Nat.ne_of_gt hrows)]

/-- If one chunk is enough it has all rows. -/
theorem chunkBounds_of_le {rows chunkSize : Nat} (hrows : 0 < rows)
    (h : chunkSize = 0 ∨ rows ≤ chunkSize) : chunkBounds rows chunkSize = [(0, rows)] := by
  have hstep : (if chunkSize = 0 then rows else min chunkSize rows) = rows := by
    split <;> omega
  have hcount : (rows + rows - 1) / rows = 1 := Nat.div_eq_of_lt_le (by omega) (by omega)
  rw [chunkBounds, if_neg (Nat.ne_of_gt hrows), hstep]
  dsimp only
  rw [hcount]
  simp

/-- The chunks of a list, one after the other, are the list. -/
theorem flatMap_chunkBounds {α : Type} (list : List α) (chunkSize : Nat) :
    (chunkBounds list.length chunkSize).flatMap (fun bounds =>
      (list.drop bounds.1).take (bounds.2 - bounds.1)) = list := by
  rcases Nat.eq_zero_or_pos list.length with hzero | hpos
  · rw [chunkBounds, if_pos hzero]
    exact (List.eq_nil_of_length_eq_zero hzero).symm
  · obtain ⟨step, hstep, -, -, -, hbounds⟩ := exists_step hpos chunkSize
    have hslice : ∀ i, (list.drop (i * step)).take
        (min (i * step + step) list.length - i * step) = (list.drop (i * step)).take step := by
      intro i
      have hlength : (list.drop (i * step)).length = list.length - i * step := List.length_drop
      rcases Nat.le_total (i * step + step) list.length with hle | hge
      · rw [Nat.min_eq_left hle, Nat.add_sub_cancel_left]
      · rw [Nat.min_eq_right hge, List.take_of_length_le (Nat.le_of_eq hlength),
          List.take_of_length_le (by omega)]
    have hcount : list.length ≤ (list.length + step - 1) / step * step := by
      have hmod := Nat.div_add_mod (list.length + step - 1) step
      have hlt := Nat.mod_lt (list.length + step - 1) hstep
      rw [Nat.mul_comm] at hmod
      omega
    rw [hbounds, List.flatMap_map, List.flatMap_congr fun i _ => hslice i, flatMap_pieces,
      List.take_of_length_le hcount]

/-- The bounds cut a number of rows into ranges that follow each other and are not empty, none of
them longer than the chunk size if one is given, and no more of them than it takes. -/
structure Cuts (rows chunkSize : Nat) (bounds : List (Nat × Nat)) : Prop where
  positions_eq : bounds.flatMap (fun range => List.range' range.1 (range.2 - range.1)) =
    List.range rows
  nonempty : ∀ range ∈ bounds, range.1 < range.2
  bounded : chunkSize ≠ 0 → ∀ range ∈ bounds, range.2 - range.1 ≤ chunkSize
  count : bounds.length = if chunkSize = 0 then min rows 1 else (rows + chunkSize - 1) / chunkSize

/-- Chunk bounds cut the rows. -/
theorem cuts_chunkBounds (rows chunkSize : Nat) :
    Cuts rows chunkSize (chunkBounds rows chunkSize) := by
  have hmem : ∀ range ∈ chunkBounds rows chunkSize,
      range.1 < range.2 ∧ range.2 ≤ rows ∧ (chunkSize ≠ 0 → range.2 - range.1 ≤ chunkSize) := by
    rcases Nat.eq_zero_or_pos rows with rfl | hpos
    · exact fun range hrange => absurd hrange List.not_mem_nil
    · obtain ⟨step, hstep, -, hsize, -, hbounds⟩ := exists_step hpos chunkSize
      rw [hbounds]
      intro range hrange
      obtain ⟨i, hi, rfl⟩ := List.mem_map.mp hrange
      have hstart : i * step < rows := by
        have hle := (Nat.le_div_iff_mul_le hstep).mp (List.mem_range.mp hi)
        rw [Nat.succ_mul] at hle
        omega
      refine ⟨by dsimp only; omega, Nat.min_le_right _ _, fun hne => ?_⟩
      have hle := hsize hne
      dsimp only
      omega
  refine ⟨?_, fun range hrange => (hmem range hrange).1,
    fun hsize range hrange => (hmem range hrange).2.2 hsize, ?_⟩
  · have hcover := flatMap_chunkBounds (List.range rows) chunkSize
    rw [List.length_range] at hcover
    rw [← hcover]
    refine List.flatMap_congr fun range hrange => ?_
    obtain ⟨hlt, hle, -⟩ := hmem range hrange
    refine List.ext_getElem ?_ fun i hi hi' => ?_
    · simp only [List.length_range', List.length_take, List.length_drop, List.length_range]
      omega
    · simp
  · rcases Nat.eq_zero_or_pos rows with rfl | hpos
    · rw [chunkBounds, if_pos rfl]
      split
      · rfl
      · exact (Nat.div_eq_of_lt (by omega)).symm
    · obtain ⟨step, -, -, -, hcount, hbounds⟩ := exists_step hpos chunkSize
      rw [hbounds, List.length_map, List.length_range, hcount]
      split
      · exact (Nat.min_eq_right hpos).symm
      · rfl

namespace Partition

variable {family : CounterFamily}

/-- The chunks of a partition, one after the other, are its rows. -/
theorem flatMap_slice_chunks (p : Partition family) : p.chunks.flatMap p.slice = p.rows :=
  flatMap_chunkBounds p.rows p.chunkSize

end Partition

end CounterPolling
