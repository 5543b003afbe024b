import CounterPolling.Partition.Slots
import CounterPolling.Proofs.Dialogue.Transcript
import CounterPolling.Proofs.Partition.Chunks
import Mathlib.Data.List.Flatten

/-!
# What a pass over a partition hands on

A pass issues one bulk read for each chunk, and hands on the rows that the answer to the row's own
chunk delivers. Neither another chunk nor an earlier pass has a say in it, although all of them
write into the same slots. Main statements: `Partition.map_sweepInto`, by which slots may be shared,
and `Partition.sweepInto_hands_on`.
-/

namespace CounterPolling

/-- What passes a test, changed on the way. -/
theorem filterMap_ite {α β : Type} (keep : α → Prop) [DecidablePred keep] (f : α → β)
    (list : List α) :
    (list.filterMap fun a => if keep a then some (f a) else none) =
      (list.filter fun a => keep a).map f := by
  induction list with
  | nil => rfl
  | cons a rest ih => by_cases h : keep a <;> simp [h, ih]

namespace ReadSlots

variable {fill : BulkFill} {slots : ReadSlots} {rows width : Nat}

@[simp]
theorem statuses_prepare : (slots.prepare rows width).statuses = List.replicate rows .failure := by
  simp [prepare, clear, fit]

@[simp]
theorem counters_prepare :
    (slots.prepare rows width).counters = List.replicate (rows * width) 0 := by
  simp [prepare, clear, fit]

/-- Of prepared slots, those not written report failure. -/
theorem statuses_write_prepare :
    ((slots.prepare rows width).write fill).statuses = fill.statuses .failure rows := by
  refine List.ext_getElem (by simp [write]) fun i hi hi' => ?_
  simp [write, BulkFill.statuses]

/-- Of prepared slots, those of a row hold what was written there, and zero elsewhere. -/
theorem counters_write_prepare {row : Nat} (hrow : row < rows) :
    (((slots.prepare rows width).write fill).counters.drop (row * width)).take width =
      fill.counters width row := by
  have hle : row * width + width ≤ rows * width := by
    rw [← Nat.succ_mul]
    exact Nat.mul_le_mul_right width hrow
  refine List.ext_getElem ?_ fun i hi hi' => ?_
  · simp only [write, counters_prepare, List.length_take, List.length_drop, List.length_mapIdx,
      List.length_replicate, BulkFill.length_counters]
    omega
  · simp [write, BulkFill.counters]

/-- What is read off prepared slots is what the bulk read delivered, whatever they held before. -/
theorem readings_write_prepare (slots : ReadSlots) (fill : BulkFill) (width : Nat)
    (rows : List Row) :
    ((slots.prepare rows.length width).write fill).readings width rows =
      fill.readings width rows := by
  unfold readings BulkFill.readings
  rw [statuses_write_prepare]
  refine List.filterMap_congr fun entry hentry => ?_
  have hrow : entry.2 < rows.length := by
    have hlt := (List.mem_zipIdx hentry).2.1
    simpa using hlt
  rw [counters_write_prepare hrow]

end ReadSlots

namespace Partition

variable {family : CounterFamily} {kind : ObjectKind} {mode : ReadMode}
  {spoil : DriverError → ReadSlots → ReadSlots} {publish : Reading → Dialogue Unit}

/-- Reading a chunk into slots reads what reading it does, whatever the slots held. -/
theorem map_readChunkInto (p : Partition family) (bounds : Nat × Nat) (slots : ReadSlots) :
    Prod.fst <$> p.readChunkInto kind mode spoil bounds slots = p.readChunk kind mode bounds := by
  unfold readChunkInto readChunk
  simp only [map_bind]
  refine bind_congr fun answer => ?_
  cases answer with
  | error error => rfl
  | ok fill =>
    dsimp only
    rw [map_pure, ReadSlots.readings_write_prepare]

/-- Chunks that share slots are read as if each had its own. -/
theorem map_sweepChunksInto (p : Partition family) (chunks : List (Nat × Nat))
    (slots : ReadSlots) :
    Prod.fst <$> p.sweepChunksInto kind mode spoil publish chunks slots =
      p.sweepChunks kind mode publish chunks := by
  induction chunks generalizing slots with
  | nil => rfl
  | cons bounds rest ih =>
    have hchunk : Prod.fst <$> p.readChunkInto kind mode spoil bounds slots =
        p.readChunk kind mode bounds := p.map_readChunkInto bounds slots
    rw [sweepChunksInto, sweepChunks, ← hchunk]
    simp only [map_bind, bind_map_left, map_pure]
    refine bind_congr fun read => bind_congr fun _ => ?_
    rw [← ih read.2, bind_map_left]

/-- A pass reads the same whatever the slots held before it. -/
theorem map_sweepInto (p : Partition family) (slots : ReadSlots) :
    Prod.fst <$> p.sweepInto kind mode spoil publish slots = p.sweep kind mode publish :=
  p.map_sweepChunksInto p.chunks slots

/-- The rows of a chunk that an answer delivers, in order: those whose own status was set to
success, each with what was put into the row's counter slots, and zero where nothing was. -/
def delivered (p : Partition family) (bounds : Nat × Nat) :
    Except DriverError BulkFill → List Reading
  | .error _ => []
  | .ok fill => (p.slice bounds).zipIdx.filterMap fun entry =>
    if fill.status entry.2 = some .success then
      some ⟨entry.1, (List.range p.ids.length).map fun column =>
        (fill.counter (entry.2 * p.ids.length + column)).getD 0⟩
    else none

/-- The rows that an answer delivers are rows of the chunk, in order. -/
theorem rows_delivered_sublist (p : Partition family) (bounds : Nat × Nat)
    (answer : Except DriverError BulkFill) :
    ((p.delivered bounds answer).map Reading.row).Sublist (p.slice bounds) := by
  cases answer with
  | error error => exact List.nil_sublist _
  | ok fill =>
    have hkept : ((p.slice bounds).zipIdx.filter fun entry =>
        fill.status entry.2 = some .success).Sublist (p.slice bounds).zipIdx := List.filter_sublist
    have hrows := hkept.map Prod.fst
    rw [List.zipIdx_map_fst] at hrows
    rw [delivered, filterMap_ite, List.map_map]
    exact hrows

/-- Events read one chunk: the driver answers the bulk read of the chunk's rows, and then a failure
is reported, or the rows that the answer delivers are handed on. -/
def HandsOn (p : Partition family) (kind : ObjectKind) (mode : ReadMode)
    (publish : Reading → Dialogue Unit) (switch : Switch)
    (chunk : (Nat × Nat) × Except DriverError BulkFill) (block : List Event) : Prop :=
  let request := Request.bulkRead kind ((p.slice chunk.1).map Row.key) (CounterId.raws p.ids) mode
  ∃ past, chunk.2 = switch past request ∧
    block = .answered request chunk.2 ::
      match chunk.2 with
      | .error error =>
        [.handedOut (.notice (.bulkReadFailed kind chunk.1.1 chunk.1.2 p.name error))]
      | .ok fill => ((Dialogue.each publish (p.delivered chunk.1 (.ok fill))).run switch
        (past ++ [.answered request chunk.2])).events

/-- Reading a chunk and handing on its rows comes to what the answer delivers. -/
theorem readChunk_handsOn (p : Partition family) (kind : ObjectKind) (mode : ReadMode)
    (publish : Reading → Dialogue Unit) (bounds : Nat × Nat) (switch : Switch)
    (past : List Event) :
    ∃ answer, ((p.readChunk kind mode bounds).run switch past).value = p.delivered bounds answer ∧
      p.HandsOn kind mode publish switch (bounds, answer)
        ((do
          let readings ← p.readChunk kind mode bounds
          Dialogue.each publish readings).run switch past).events := by
  let request := Request.bulkRead kind ((p.slice bounds).map Row.key) (CounterId.raws p.ids) mode
  refine ⟨switch past request, ?_, past, rfl, ?_⟩
  · unfold readChunk
    rw [Dialogue.value_run_bind, Dialogue.run_question]
    cases switch past request with
    | error error => rfl
    | ok fill => exact fill.readings_eq _ _
  · unfold readChunk
    rw [bind_assoc, Dialogue.events_run_bind, Dialogue.run_question]
    cases switch past request with
    | error error => rfl
    | ok fill =>
      have hdelivered : fill.readings p.ids.length (p.slice bounds) =
          p.delivered bounds (.ok fill) := fill.readings_eq _ _
      dsimp only
      rw [pure_bind, hdelivered]
      rfl

/-- Reading chunks in turn hands on, for each of them, what its own answer delivers. -/
theorem sweepChunks_handsOn (p : Partition family) (kind : ObjectKind) (mode : ReadMode)
    (publish : Reading → Dialogue Unit) (chunks : List (Nat × Nat)) (switch : Switch)
    (past : List Event) :
    let outcome := (p.sweepChunks kind mode publish chunks).run switch past
    ∃ answers : List (Except DriverError BulkFill), answers.length = chunks.length ∧
      InTurn (p.HandsOn kind mode publish switch) (chunks.zip answers) outcome.events ∧
      outcome.value = ⟨chunks.length, (chunks.zip answers).flatMap fun chunk =>
        p.delivered chunk.1 chunk.2⟩ := by
  induction chunks generalizing past with
  | nil => exact ⟨[], rfl, .nil, rfl⟩
  | cons bounds rest ih =>
    obtain ⟨answer, hread, hblock⟩ := p.readChunk_handsOn kind mode publish bounds switch past
    generalize hevents : ((do
      let readings ← p.readChunk kind mode bounds
      Dialogue.each publish readings).run switch past).events = block at hblock
    obtain ⟨answers, hlength, hturn, hlater⟩ := ih (past ++ block)
    generalize hrest : (p.sweepChunks kind mode publish rest).run switch (past ++ block) = later
      at hturn hlater
    have hrun : (p.sweepChunks kind mode publish (bounds :: rest)).run switch past =
        ⟨⟨later.value.calls + 1, p.delivered bounds answer ++ later.value.readings⟩,
          block ++ later.events⟩ := by
      rw [← hrest, ← hevents, ← hread, sweepChunks]
      simp only [Dialogue.run_bind, Dialogue.pure_eq_done, Dialogue.run_done, List.append_nil,
        List.append_assoc]
    rw [hrun, hlater]
    exact ⟨answer :: answers, congrArg (· + 1) hlength, .cons hblock hturn, rfl⟩

/-- A pass over any number of rows, in chunks of any size and into slots with any contents, cuts the
rows into chunks and issues one bulk read for each. Whether they fail or not it counts them all. It
hands on, in the order of the rows, exactly what the answer to the own chunk delivers of each row;
what other chunks, earlier passes and failed bulk reads left in the slots is never handed on. -/
theorem sweepInto_hands_on (p : Partition family) (kind : ObjectKind) (mode : ReadMode)
    (publish : Reading → Dialogue Unit) (spoil : DriverError → ReadSlots → ReadSlots)
    (slots : ReadSlots) (switch : Switch) (past : List Event) :
    let outcome := (Prod.fst <$> p.sweepInto kind mode spoil publish slots).run switch past
    Cuts p.size p.chunkSize p.chunks ∧ p.chunks.flatMap p.slice = p.rows ∧
    (∃ answers : List (Except DriverError BulkFill), answers.length = p.chunks.length ∧
      InTurn (p.HandsOn kind mode publish switch) (p.chunks.zip answers) outcome.events ∧
      outcome.value = ⟨p.chunks.length, (p.chunks.zip answers).flatMap fun chunk =>
        p.delivered chunk.1 chunk.2⟩) ∧
    (outcome.value.readings.map Reading.row).Sublist p.rows ∧
    outcome = (p.sweep kind mode publish).run switch past := by
  rw [p.map_sweepInto slots]
  obtain ⟨answers, hlength, hturn, hvalue⟩ :=
    p.sweepChunks_handsOn kind mode publish p.chunks switch past
  refine ⟨cuts_chunkBounds _ _, p.flatMap_slice_chunks, ⟨answers, hlength, hturn, hvalue⟩, ?_, rfl⟩
  have hrows : p.rows = (p.chunks.zip answers).flatMap fun chunk => p.slice chunk.1 := by
    have hchunks : (p.chunks.zip answers).map Prod.fst = p.chunks :=
      List.map_fst_zip (Nat.le_of_eq hlength.symm)
    rw [← p.flatMap_slice_chunks]
    nth_rewrite 1 [← hchunks]
    rw [List.flatMap_map]
  have hreadings := congrArg Sweep.readings hvalue
  change (Dialogue.run switch (p.sweepChunks kind mode publish p.chunks)
    past).value.readings = _ at hreadings
  unfold sweep
  rw [hreadings, hrows, List.map_flatMap]
  exact List.Sublist.flatMap_right _ fun chunk _ => p.rows_delivered_sublist chunk.1 chunk.2

end Partition

end CounterPolling
