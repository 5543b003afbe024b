import CounterPolling.Proofs.Group.Soundness
import CounterPolling.Proofs.Partition.Chunks

/-!
# The reads of a pass

A pass over a group issues one read for each object tracked by itself and one for each chunk
of a partition. Main statements: `Sound.slots_nodup` and `Sound.mem_slots_iff`, by which
together these reads ask for each counter of each object once.
-/

namespace CounterPolling

variable {family : CounterFamily}

/-- A read that a pass issues. -/
inductive ReadCall (family : CounterFamily)
  /-- The counters of one object. -/
  | single (vid : ObjectId) (registration : Registration family)
  /-- The counters of some rows of a partition, in the mode that the objects came with. -/
  | chunk (mode : Option ReadMode) (rows : List Row) (ids : List (CounterId family))

namespace ReadCall

/-- The rows that are read. -/
def rows : ReadCall family → List Row
  | single vid registration => [objectRow vid registration.rid]
  | chunk _ rows _ => rows

/-- The counters that are read for each row. -/
def ids : ReadCall family → List (CounterId family)
  | single _ registration => registration.ids
  | chunk _ _ ids => ids

/-- The slots of the read, row by row: one for each row and counter. -/
def slots (call : ReadCall family) : List (Row × CounterId family) :=
  call.rows.flatMap fun row => call.ids.map fun id => (row, id)

end ReadCall

/-- The reads of a partition, chunk by chunk. -/
def Partition.readCalls (mode : Option ReadMode) (p : Partition family) :
    List (ReadCall family) :=
  p.chunks.map fun bounds => .chunk mode (p.slice bounds) p.ids

namespace StatsGroup

variable {g : StatsGroup family}

/-- The request that a read is. -/
def request (g : StatsGroup family) : ReadCall family → Request
  | .single _ registration => .read g.kind registration.rid (CounterId.raws registration.ids)
  | .chunk mode rows ids =>
    .bulkRead g.kind (rows.map Row.key) (CounterId.raws ids) (g.settings.modeFor mode)

/-- The reads of a pass, in order. -/
def readCalls (g : StatsGroup family) : List (ReadCall family) :=
  (g.singles.entries.flatMap fun entry => [.single entry.1 entry.2]) ++
    g.partitions.entries.flatMap fun entry => entry.2.readCalls entry.1.mode

/-- A counter is registered for a row: of an object tracked by itself, or in bulk. -/
def Registers (g : StatsGroup family) (row : Row) (id : CounterId family) : Prop :=
  (∃ r, g.singles.get? row.vid = some r ∧ row.key = .object r.rid ∧ id ∈ r.ids) ∨
    ∃ mode, g.partitions.Reads mode row id

/-- The slots of a partition's reads are its rows, each with each of its counters. -/
theorem flatMap_slots_readCalls (mode : Option ReadMode) (p : Partition family) :
    (p.readCalls mode).flatMap ReadCall.slots =
      p.rows.flatMap fun row => p.ids.map fun id => (row, id) := by
  have hslots : ∀ bounds, (ReadCall.chunk mode (p.slice bounds) p.ids).slots =
      (p.slice bounds).flatMap fun row => p.ids.map fun id => (row, id) := fun _ => rfl
  unfold Partition.readCalls
  rw [List.flatMap_map]
  simp only [hslots]
  rw [← List.flatMap_assoc, p.flatMap_slice_chunks]

theorem flatMap_slots_eq (g : StatsGroup family) :
    g.readCalls.flatMap ReadCall.slots =
      (g.singles.entries.flatMap fun entry =>
        entry.2.ids.map fun id => (objectRow entry.1 entry.2.rid, id)) ++
      g.partitions.entries.flatMap fun entry =>
        entry.2.rows.flatMap fun row => entry.2.ids.map fun id => (row, id) := by
  unfold readCalls
  rw [List.flatMap_append, List.flatMap_assoc, List.flatMap_assoc]
  simp only [flatMap_slots_readCalls]
  congr 1
  simp [ReadCall.slots, ReadCall.rows, ReadCall.ids]

/-- The chunks of the partitions have a slot for what is read in bulk, and for nothing else. -/
theorem Sound.mem_chunk_slots_iff (h : g.Sound) {row : Row} {id : CounterId family} :
    (row, id) ∈ (g.partitions.entries.flatMap fun entry =>
        entry.2.readCalls entry.1.mode).flatMap ReadCall.slots ↔
      ∃ mode, g.partitions.Reads mode row id := by
  rw [List.flatMap_assoc]
  simp only [flatMap_slots_readCalls, List.mem_flatMap, List.mem_map, Prod.mk.injEq]
  constructor
  · rintro ⟨⟨key, p⟩, hentry, row', hrow, id', hid, rfl, rfl⟩
    have hp := SortedMap.get?_eq_some_iff.mpr hentry
    refine ⟨key.mode, key, rfl, PartitionTable.mem_rowsAt.mpr ⟨p, hentry, hrow⟩, ?_⟩
    rwa [(h.table.fits hp).ids_eq] at hid
  · rintro ⟨mode, key, rfl, hrow, hid⟩
    obtain ⟨p, hp, hmem⟩ := PartitionTable.mem_rowsAt.mp hrow
    have hfits := h.table.fits (SortedMap.get?_eq_some_iff.mpr hp)
    rw [← hfits.ids_eq] at hid
    exact ⟨(key, p), hp, row, hmem, id, hid, rfl, rfl⟩

/-- A pass asks for a counter of a row exactly if it is registered. -/
theorem Sound.mem_slots_iff (h : g.Sound) {row : Row} {id : CounterId family} :
    (row, id) ∈ g.readCalls.flatMap ReadCall.slots ↔ g.Registers row id := by
  rw [readCalls, List.flatMap_append, List.mem_append, h.mem_chunk_slots_iff]
  apply or_congr_left
  simp only [List.flatMap_assoc, ReadCall.slots, ReadCall.rows,
    ReadCall.ids, List.flatMap_singleton, List.mem_flatMap, List.mem_map, Prod.mk.injEq]
  constructor
  · rintro ⟨⟨vid, r⟩, hentry, id', hid, rfl, rfl⟩
    exact ⟨r, SortedMap.get?_eq_some_iff.mpr hentry, rfl, hid⟩
  · rintro ⟨r, hr, hkey, hid⟩
    refine ⟨(row.vid, r), SortedMap.get?_eq_some_iff.mp hr, id, hid, ?_, rfl⟩
    rw [objectRow, ← hkey]

/-- Rows of different objects, each with the same counters, make each pair once. -/
theorem nodup_pairs {rows : List Row} {ids : List (CounterId family)}
    (hrows : (rows.map Row.vid).Nodup) (hids : ids.Nodup) :
    (rows.flatMap fun row => ids.map fun id => (row.vid, id)).Nodup := by
  have hproduct : (rows.map Row.vid ×ˢ ids).Nodup := hrows.product hids
  change ((rows.map Row.vid).flatMap fun vid => ids.map (Prod.mk vid)).Nodup at hproduct
  rwa [List.flatMap_map] at hproduct

/-- Objects read by themselves are asked for each of their counters once. -/
theorem Sound.single_slots_nodup (h : g.Sound) :
    (g.singles.entries.flatMap fun entry =>
      entry.2.ids.map fun id => (entry.1, id)).Nodup := by
  apply List.nodup_flatMap.mpr
  constructor
  · rintro ⟨vid, r⟩ hentry
    have hids := h.singles (SortedMap.get?_eq_some_iff.mpr hentry)
    exact hids.2.nodup.map fun a b hab => congrArg Prod.snd hab
  · apply g.singles.ascend.imp
    intro a b hlt pair ha hb
    obtain ⟨id, -, rfl⟩ := List.mem_map.mp ha
    obtain ⟨id', -, heq⟩ := List.mem_map.mp hb
    rw [← (Prod.mk.inj heq).1, Std.ReflOrd.compare_self] at hlt
    cases hlt

/-- Objects read in bulk are asked for each of their counters once. -/
theorem Sound.chunk_slots_nodup (h : g.Sound) :
    (g.partitions.entries.flatMap fun entry =>
      entry.2.rows.flatMap fun row => entry.2.ids.map fun id => (row.vid, id)).Nodup := by
  apply List.nodup_flatMap.mpr
  constructor
  · rintro ⟨key, p⟩ hentry
    have hp := SortedMap.get?_eq_some_iff.mpr hentry
    have hnodup := h.table.vids_nodup key
    rw [PartitionTable.rowsAt_eq hp] at hnodup
    have hids := (h.table.fits hp).ascending.nodup
    rw [← (h.table.fits hp).ids_eq] at hids
    exact nodup_pairs hnodup hids
  · refine g.partitions.ascend.imp_of_mem fun {a b} ha hb hlt => ?_
    intro pair hpair hpair'
    obtain ⟨row, hrow, hmem⟩ := List.mem_flatMap.mp hpair
    obtain ⟨row', hrow', hmem'⟩ := List.mem_flatMap.mp hpair'
    obtain ⟨id, hid, rfl⟩ := List.mem_map.mp hmem
    obtain ⟨id', hid', heq⟩ := List.mem_map.mp hmem'
    obtain ⟨hvid, rfl⟩ := Prod.mk.inj heq
    have hkey : a.1 = b.1 := h.table.key_eq_of_classOf (SortedMap.get?_eq_some_iff.mpr ha)
      (SortedMap.get?_eq_some_iff.mpr hb) hrow hrow' hvid.symm hid hid' rfl
    rw [hkey, Std.ReflOrd.compare_self] at hlt
    cases hlt

/-- A pass asks for no counter of an object twice. -/
theorem Sound.slots_nodup (h : g.Sound) :
    ((g.readCalls.flatMap ReadCall.slots).map fun slot => (slot.1.vid, slot.2)).Nodup := by
  rw [flatMap_slots_eq, List.map_append, List.map_flatMap, List.map_flatMap]
  simp only [List.map_flatMap, List.map_map, Function.comp_def, objectRow]
  apply List.Nodup.append h.single_slots_nodup h.chunk_slots_nodup
  intro pair hsingle hbulk
  obtain ⟨⟨vid, r⟩, hentry, hmem⟩ := List.mem_flatMap.mp hsingle
  obtain ⟨⟨key, p⟩, hentry', hmem'⟩ := List.mem_flatMap.mp hbulk
  obtain ⟨row, hrow, hmem'⟩ := List.mem_flatMap.mp hmem'
  obtain ⟨id, -, rfl⟩ := List.mem_map.mp hmem
  obtain ⟨id', -, heq⟩ := List.mem_map.mp hmem'
  apply h.exclusive vid
  constructor
  · exact SortedMap.contains_iff_mem.mpr ⟨r, hentry⟩
  · apply PartitionTable.holds_iff.mpr
    exact ⟨key, row, PartitionTable.mem_rowsAt.mpr ⟨p, hentry', hrow⟩, (Prod.mk.inj heq).1⟩

end StatsGroup

end CounterPolling
