import CounterPolling.Partition.Columns
import CounterPolling.Proofs.Partition.Sweeps

/-!
# Columns stay aligned

Two columns are aligned if one list of rows gives the entries of both. Rows are added at both ends
at once and taken away from both at the same positions, and passes change neither column. So the
columns always show the rows that were added and not removed later, and no command reaches beyond
the end of one. Main statements: `removeFrom_aligned`, the invariant of removing in place, and
`columns_stay_aligned`.
-/

namespace CounterPolling

/-- Something that is done to rows in columns. -/
inductive ColumnCommand
  | push (row : Row)
  | remove (vid : ObjectId)
  | resize (chunkSize : Nat)
  | poll (kind : ObjectKind) (mode : ReadMode)
  deriving DecidableEq

namespace ColumnCommand

/-- The rows that commands add and do not remove later, in the order they are added. -/
def remaining : List ColumnCommand → List Row
  | [] => []
  | push row :: later =>
    if remove row.vid ∈ later then remaining later else row :: remaining later
  | _ :: later => remaining later

end ColumnCommand

/-- Rows are what stands in their two columns. -/
theorem map_zip_columns (rows : List Row) :
    ((rows.map Row.vid).zip (rows.map Row.key)).map (fun entry => (⟨entry.1, entry.2⟩ : Row)) =
      rows := by
  rw [List.zip_map', List.map_map]
  exact List.map_id rows

/-- The part of a column that shows a list is the part of the list. -/
theorem part?_toArray {α : Type} (list : List α) (bounds : Nat × Nat)
    (h : bounds.2 ≤ list.length) :
    part? list.toArray bounds = some ((list.drop bounds.1).take (bounds.2 - bounds.1)) := by
  simp [part?, h, List.extract_eq_take_drop]

/-- No chunk reaches beyond the rows. -/
theorem le_of_mem_chunkBounds {rows chunkSize : Nat} {bounds : Nat × Nat}
    (h : bounds ∈ chunkBounds rows chunkSize) : bounds.2 ≤ rows := by
  have hcuts := cuts_chunkBounds rows chunkSize
  have hlt := hcuts.nonempty bounds h
  have hlast : bounds.2 - 1 ∈ List.range rows := by
    rw [← hcuts.positions_eq, List.mem_flatMap]
    exact ⟨bounds, h, List.mem_range'_1.mpr (by omega)⟩
  have hbelow := List.mem_range.mp hlast
  omega

namespace Columns

variable {family : CounterFamily} {b : Columns family} {rows : List Row}

/-- Both columns show the same rows, and the numbers are those of the counters. -/
structure Aligned (b : Columns family) (rows : List Row) : Prop where
  vids_eq : b.vids = (rows.map Row.vid).toArray
  keys_eq : b.keys = (rows.map Row.key).toArray
  raws_eq : b.raws = CounterId.raws b.ids

theorem aligned_new (name : String) (chunkSize : Nat) (ids : List (CounterId family)) :
    (new name chunkSize ids).Aligned [] :=
  ⟨rfl, rfl, rfl⟩

/-- The rows of aligned columns are those that they show. -/
theorem Aligned.rows_eq (h : b.Aligned rows) : b.rows = rows := by
  rw [Columns.rows, h.vids_eq, h.keys_eq]
  exact map_zip_columns rows

theorem Aligned.push (h : b.Aligned rows) (row : Row) : (b.push row).Aligned (rows ++ [row]) where
  vids_eq := by simp [Columns.push, h.vids_eq]
  keys_eq := by simp [Columns.push, h.keys_eq]
  raws_eq := h.raws_eq

theorem Aligned.withChunkSize (h : b.Aligned rows) (chunkSize : Nat) :
    (b.withChunkSize chunkSize).Aligned rows :=
  ⟨h.vids_eq, h.keys_eq, h.raws_eq⟩

section Remove

/-- Removing in place keeps the rows before the position, and takes from the others those of the
object, in both columns alike. -/
theorem removeFrom_aligned (vid : ObjectId) (kept rest : List Row) :
    removeFrom vid ((kept ++ rest).map Row.vid).toArray ((kept ++ rest).map Row.key).toArray
        kept.length =
      some (((kept ++ rest.filter fun row => row.vid != vid).map Row.vid).toArray,
        ((kept ++ rest.filter fun row => row.vid != vid).map Row.key).toArray) := by
  induction rest generalizing kept with
  | nil =>
    rw [removeFrom, dif_neg (by simp)]
    rfl
  | cons row rest ih =>
    have hvids : kept.length < ((kept ++ row :: rest).map Row.vid).toArray.size := by simp
    have hkeys : kept.length < ((kept ++ row :: rest).map Row.key).toArray.size := by simp
    have hvid : ((kept ++ row :: rest).map Row.vid).toArray[kept.length] = row.vid := by simp
    rw [removeFrom, dif_pos hvids, hvid]
    by_cases hrow : row.vid = vid
    · -- the row behind the removed one comes to stand at the same position
      have hcolumn : ∀ {α : Type} (entry : Row → α)
          (hlt : kept.length < ((kept ++ row :: rest).map entry).toArray.size),
          ((kept ++ row :: rest).map entry).toArray.eraseIdx kept.length hlt =
            ((kept ++ rest).map entry).toArray := by
        intro α entry hlt
        simp [List.eraseIdx_append_of_length_le]
      rw [if_pos hrow, takeAway?, dif_pos hkeys, hcolumn, hcolumn]
      simp only [ih kept, List.filter_cons, hrow, bne_self_eq_false, Bool.false_eq_true, if_false]
    · have hnext := ih (kept ++ [row])
      rw [List.append_assoc, List.append_assoc, List.length_append] at hnext
      simp only [List.singleton_append, List.length_singleton] at hnext
      rw [if_neg hrow, hnext]
      simp [hrow]

/-- Removing an object leaves aligned columns with the rows of the others, and counts its own. -/
theorem Aligned.remove (h : b.Aligned rows) (vid : ObjectId) :
    ∃ after, b.remove vid = some (after, rows.countP fun row => row.vid == vid) ∧
      after.Aligned (rows.filter fun row => row.vid != vid) ∧
      after.partition = b.partition.remove vid := by
  have hloop := removeFrom_aligned vid [] rows
  rw [List.nil_append, List.length_nil, List.nil_append, ← h.vids_eq, ← h.keys_eq] at hloop
  refine ⟨{ b with
    vids := ((rows.filter fun row => row.vid != vid).map Row.vid).toArray
    keys := ((rows.filter fun row => row.vid != vid).map Row.key).toArray }, ?_,
    ⟨rfl, rfl, h.raws_eq⟩, ?_⟩
  · have hcount : rows.length - (rows.filter fun row => row.vid != vid).length =
        rows.countP fun row => row.vid == vid := by
      have hsum := (Partition.mk b.name b.chunkSize b.ids rows).size_remove_add_rowCount vid
      rw [Partition.size, Partition.rows_remove, Partition.size, Partition.rowCount] at hsum
      exact Nat.sub_eq_of_eq_add' hsum.symm
    rw [Columns.remove, hloop, ← hcount]
    simp [h.vids_eq]
  · rw [Partition.remove, partition, partition, h.rows_eq]
    congr 1
    exact Aligned.rows_eq ⟨rfl, rfl, h.raws_eq⟩

end Remove

section Poll

variable {kind : ObjectKind} {mode : ReadMode} {spoil : DriverError → ReadSlots → ReadSlots}
  {publish : Reading → Dialogue Unit}

/-- Reading a chunk of aligned columns is reading the chunk of their rows. -/
theorem Aligned.readChunk_eq (h : b.Aligned rows) {bounds : Nat × Nat}
    (hlength : bounds.2 ≤ rows.length) (slots : ReadSlots) :
    b.readChunk kind mode spoil bounds slots =
      some <$> b.partition.readChunkInto kind mode spoil bounds slots := by
  have hvids := part?_toArray (rows.map Row.vid) bounds (by simpa using hlength)
  have hkeys := part?_toArray (rows.map Row.key) bounds (by simpa using hlength)
  rw [← h.vids_eq, ← List.map_drop, ← List.map_take] at hvids
  rw [← h.keys_eq, ← List.map_drop, ← List.map_take] at hkeys
  have hslice : b.partition.slice bounds = (rows.drop bounds.1).take (bounds.2 - bounds.1) := by
    rw [Partition.slice, partition, h.rows_eq]
  have hsize : (b.partition.slice bounds).length = bounds.2 - bounds.1 := by
    rw [hslice, List.length_take, List.length_drop]
    omega
  rw [← hslice] at hvids hkeys
  have hwidth : b.raws.length = b.ids.length := by
    rw [h.raws_eq, CounterId.raws, List.length_map]
  unfold readChunk Partition.readChunkInto
  rw [hvids, hkeys]
  dsimp only
  rw [map_zip_columns, hwidth, hsize, h.raws_eq]
  simp only [map_bind]
  refine bind_congr fun answer => ?_
  cases answer with
  | error error => rfl
  | ok fill => rfl

theorem Aligned.readChunks_eq (h : b.Aligned rows) {chunks : List (Nat × Nat)}
    (hchunks : ∀ bounds ∈ chunks, bounds.2 ≤ rows.length) (slots : ReadSlots) :
    b.readChunks kind mode spoil publish chunks slots =
      some <$> b.partition.sweepChunksInto kind mode spoil publish chunks slots := by
  induction chunks generalizing slots with
  | nil => rfl
  | cons bounds rest ih =>
    obtain ⟨hbounds, hrest⟩ := List.forall_mem_cons.mp hchunks
    rw [readChunks, Partition.sweepChunksInto, h.readChunk_eq hbounds]
    simp only [map_bind, bind_map_left]
    refine bind_congr fun read => bind_congr fun _ => ?_
    rw [ih hrest read.2, bind_map_left]
    rfl

/-- A pass over aligned columns is a pass over their rows, and changes nothing but the slots. -/
theorem Aligned.poll_eq (h : b.Aligned rows) :
    b.poll kind mode spoil publish =
      (fun read => some ({ b with slots := read.2 }, read.1)) <$>
        b.partition.sweepInto kind mode spoil publish b.slots := by
  have hchunks : b.partition.chunks = chunkBounds b.vids.size b.chunkSize := by
    rw [Partition.chunks, Partition.size, partition, h.rows_eq, h.vids_eq]
    simp
  have hbounded : ∀ bounds ∈ b.partition.chunks, bounds.2 ≤ rows.length := by
    intro bounds hbounds
    rw [Partition.chunks, Partition.size, partition, h.rows_eq] at hbounds
    exact le_of_mem_chunkBounds hbounds
  rw [poll, ← hchunks, h.readChunks_eq hbounded, Partition.sweepInto, bind_map_left]
  rfl

end Poll

section Histories

/-- Does what a command says; nothing is left if it reaches beyond the end of a column. -/
def perform (spoil : DriverError → ReadSlots → ReadSlots) (publish : Reading → Dialogue Unit)
    (b : Columns family) : ColumnCommand → Dialogue (Option (Columns family))
  | .push row => return some (b.push row)
  | .remove vid => return (b.remove vid).map Prod.fst
  | .resize chunkSize => return some (b.withChunkSize chunkSize)
  | .poll kind mode => Option.map Prod.fst <$> b.poll kind mode spoil publish

/-- Does what commands say, one after the other. -/
def performAll (spoil : DriverError → ReadSlots → ReadSlots) (publish : Reading → Dialogue Unit) :
    List ColumnCommand → Columns family → Dialogue (Option (Columns family))
  | [], b => return some b
  | command :: later, b => do
    match ← b.perform spoil publish command with
    | none => return none
    | some b => performAll spoil publish later b

variable {spoil : DriverError → ReadSlots → ReadSlots} {publish : Reading → Dialogue Unit}

/-- What is shown after one command. -/
def shownAfter (rows : List Row) : ColumnCommand → List Row
  | .push row => rows ++ [row]
  | .remove vid => rows.filter fun row => row.vid != vid
  | .resize _ | .poll .. => rows

/-- Each command keeps columns aligned, in every branch. -/
theorem Aligned.perform (h : b.Aligned rows) (command : ColumnCommand) :
    (b.perform spoil publish command).Always fun outcome =>
      ∃ after, outcome = some after ∧ after.Aligned (shownAfter rows command) := by
  cases command with
  | push row => exact ⟨b.push row, rfl, h.push row⟩
  | remove vid =>
    obtain ⟨after, hafter, haligned, -⟩ := h.remove vid
    exact ⟨after, by rw [hafter]; rfl, haligned⟩
  | resize chunkSize => exact ⟨b.withChunkSize chunkSize, rfl, h.withChunkSize chunkSize⟩
  | poll kind mode =>
    rw [Columns.perform, h.poll_eq, Dialogue.always_map, Dialogue.always_map]
    refine Dialogue.always_of_forall (fun read => ?_) _
    exact ⟨{ b with slots := read.2 }, rfl, h.vids_eq, h.keys_eq, h.raws_eq⟩

/-- Commands leave, of the rows shown at first, those of objects that they do not remove, and behind
them the rows that they add and do not remove later. -/
theorem Aligned.performAll (h : b.Aligned rows) (commands : List ColumnCommand) :
    (b.performAll spoil publish commands).Always fun outcome =>
      ∃ after, outcome = some after ∧
        after.Aligned ((rows.filter fun row => .remove row.vid ∉ commands) ++
          ColumnCommand.remaining commands) := by
  induction commands generalizing b rows with
  | nil => exact ⟨b, rfl, by simpa [ColumnCommand.remaining] using h⟩
  | cons command later ih =>
    have hrows : (rows.filter fun row => .remove row.vid ∉ command :: later) ++
        ColumnCommand.remaining (command :: later) =
      ((shownAfter rows command).filter fun row => .remove row.vid ∉ later) ++
        ColumnCommand.remaining later := by
      cases command with
      | push row =>
        by_cases hlater : .remove row.vid ∈ later <;>
          simp [shownAfter, ColumnCommand.remaining, hlater]
      | remove vid =>
        simp only [shownAfter, ColumnCommand.remaining, List.filter_filter]
        congr 2
        funext row
        by_cases hrow : row.vid = vid <;> simp [hrow]
      | resize chunkSize => simp [shownAfter, ColumnCommand.remaining]
      | poll kind mode => simp [shownAfter, ColumnCommand.remaining]
    rw [hrows, Columns.performAll]
    refine (h.perform command).bind ?_
    rintro _ ⟨after, rfl, hafter⟩
    exact ih hafter

/-- Columns that start without rows, after any additions, removals, changes of the chunk size and
passes, whatever the driver answers to these. No command has reached beyond the end of a column. The
columns have one length, and at each position they have the object and the key of one row: the rows
that were added and not removed later, in the order they were added. Removing an object comes to an
end, counts its rows, and leaves exactly those of the others, in order and with their keys; the
partition loses what it loses by removing the object. A pass reads what a pass over these rows
reads, so each row is handed on with its own object. -/
theorem columns_stay_aligned (name : String) (chunkSize : Nat) (ids : List (CounterId family))
    (commands : List ColumnCommand) (spoil : DriverError → ReadSlots → ReadSlots)
    (publish : Reading → Dialogue Unit) (switch : Switch) (past : List Event) :
    let shown := ColumnCommand.remaining commands
    ∃ b, (((new name chunkSize ids).performAll spoil publish commands).run switch past).value =
        some b ∧
      b.vids.size = b.keys.size ∧ b.vids.toList = shown.map Row.vid ∧
      b.keys.toList = shown.map Row.key ∧
      (∀ vid, ∃ after, b.remove vid = some (after, shown.countP fun row => row.vid == vid) ∧
        after.vids.toList = (shown.filter fun row => row.vid != vid).map Row.vid ∧
        after.keys.toList = (shown.filter fun row => row.vid != vid).map Row.key ∧
        after.partition = b.partition.remove vid) ∧
      ∀ kind mode, Option.map Prod.snd <$> b.poll kind mode spoil publish =
        some <$> b.partition.sweep kind mode publish := by
  intro shown
  have halways : ((new name chunkSize ids).performAll spoil publish commands).Always _ :=
    (aligned_new name chunkSize ids).performAll commands
  obtain ⟨b, hb, haligned⟩ := halways.value switch past
  rw [List.filter_nil, List.nil_append] at haligned
  refine ⟨b, hb, ?_, ?_, ?_, fun vid => ?_, fun kind mode => ?_⟩
  · simp [haligned.vids_eq, haligned.keys_eq]
  · rw [haligned.vids_eq]
  · rw [haligned.keys_eq]
  · obtain ⟨after, hafter, hleft, hpartition⟩ := haligned.remove vid
    exact ⟨after, hafter, by rw [hleft.vids_eq], by rw [hleft.keys_eq], hpartition⟩
  · rw [haligned.poll_eq, Functor.map_map, ← Partition.map_sweepInto b.partition b.slots,
      Functor.map_map]
    rfl

end Histories

end Columns

end CounterPolling
