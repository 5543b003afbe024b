import CounterPolling.Proofs.Group.Removal

/-!
# Interfaces as wholes

An interface is read through the rows of its meter buckets. The rows of one interface stand side
by side in a single partition, one for each bucket that its switch is known to have. Dropping an
interface keeps the others so, and so does tracking one with all of its buckets. Main statements:
`MeterGroup.Sound.untrack` and `MeterGroup.Sound.put`.
-/

namespace CounterPolling

/-- The rows of an interface: one for each of its buckets, in the order of the meter classes. -/
def bucketRows (switch vid rid : ObjectId) (count : Nat) : List Row :=
  (eniBuckets switch rid count).map (⟨vid, ·⟩)

theorem vid_of_mem_bucketRows {switch vid rid : ObjectId} {count : Nat} {row : Row}
    (h : row ∈ bucketRows switch vid rid count) : row.vid = vid := by
  obtain ⟨key, -, rfl⟩ := List.mem_map.mp h
  rfl

theorem bucketRows_ne_nil {switch vid rid : ObjectId} {count : Nat} (h : 0 < count) :
    bucketRows switch vid rid count ≠ [] := by
  apply List.ne_nil_of_length_pos
  calc
    0 < count := h
    _ = (bucketRows switch vid rid count).length := by simp [bucketRows, eniBuckets]

namespace Partition

variable {family : CounterFamily} {p : Partition family} {vid other : ObjectId}
  {block rows : List Row}

/-- Some rows stand side by side, and no other row belongs to the object. -/
def HasBlock (p : Partition family) (vid : ObjectId) (block : List Row) : Prop :=
  ∃ before after, p.rows = before ++ block ++ after ∧ ∀ row ∈ before ++ after, row.vid ≠ vid

theorem holds_iff_mem : p.holds vid = true ↔ ∃ row ∈ p.rows, row.vid = vid := by
  simp only [holds, List.any_eq_true, beq_iff_eq]

@[simp]
theorem holds_remove : (p.remove vid).holds other = true ↔ other ≠ vid ∧ p.holds other = true := by
  simp only [holds_iff_mem, rows_remove, List.mem_filter, bne_iff_ne]
  constructor
  · rintro ⟨row, ⟨hrow, hne⟩, rfl⟩
    exact ⟨hne, row, hrow, rfl⟩
  · rintro ⟨hne, row, hrow, rfl⟩
    exact ⟨row, ⟨hrow, hne⟩, rfl⟩

theorem rowsOf_eq_nil (h : p.holds vid ≠ true) : p.rowsOf vid = [] := by
  apply List.filter_eq_nil_iff.mpr
  intro row hrow hvid
  exact h (holds_iff_mem.mpr ⟨row, hrow, beq_iff_eq.mp hvid⟩)

/-- The rows of the object are the block. -/
theorem HasBlock.rowsOf_eq (h : p.HasBlock vid block) (hblock : ∀ row ∈ block, row.vid = vid) :
    p.rowsOf vid = block := by
  obtain ⟨before, after, hrows, hothers⟩ := h
  obtain ⟨hbefore, hafter⟩ := List.forall_mem_append.mp hothers
  have hnone : ∀ rows : List Row, (∀ row ∈ rows, row.vid ≠ vid) →
      rows.filter (fun row => row.vid == vid) = [] := by
    intro rows h
    simpa using h
  have hall : block.filter (fun row => row.vid == vid) = block := by
    simpa using hblock
  rw [rowsOf, hrows, List.filter_append, List.filter_append, hnone before hbefore, hall,
    hnone after hafter, List.nil_append, List.append_nil]

/-- The block of an object stays together while another object is removed. -/
theorem HasBlock.remove (h : p.HasBlock vid block) (hblock : ∀ row ∈ block, row.vid = vid)
    (hvid : vid ≠ other) : (p.remove other).HasBlock vid block := by
  obtain ⟨before, after, hrows, hothers⟩ := h
  refine ⟨before.filter (fun row => row.vid != other), after.filter (fun row => row.vid != other),
    ?_, fun row hrow => ?_⟩
  · have hall : block.filter (fun row => row.vid != other) = block := by
      apply List.filter_eq_self.mpr
      intro row hrow
      rw [hblock row hrow]
      exact bne_iff_ne.mpr hvid
    rw [rows_remove, hrows, List.filter_append, List.filter_append, hall]
  · rw [← List.filter_append] at hrow
    exact hothers row (List.mem_filter.mp hrow).1

theorem HasBlock.withChunkSize (h : p.HasBlock vid block) (size : Nat) :
    (p.withChunkSize size).HasBlock vid block := h

/-- Rows of other objects may be added. -/
theorem HasBlock.addRows (h : p.HasBlock vid block) (hrows : ∀ row ∈ rows, row.vid ≠ vid) :
    (p.addRows rows).HasBlock vid block := by
  obtain ⟨before, after, heq, hothers⟩ := h
  refine ⟨before, after ++ rows, ?_, ?_⟩
  · rw [rows_addRows, heq, List.append_assoc]
  · rw [← List.append_assoc]
    exact List.forall_mem_append.mpr ⟨hothers, hrows⟩

/-- Rows that are added for an object without rows are its block. -/
theorem hasBlock_addRows (h : p.holds vid ≠ true) : (p.addRows rows).HasBlock vid rows := by
  refine ⟨p.rows, [], by rw [rows_addRows, List.append_nil], ?_⟩
  intro row hrow hvid
  rw [List.append_nil] at hrow
  exact h (holds_iff_mem.mpr ⟨row, hrow, hvid⟩)

end Partition

namespace MeterGroup

variable {g after : MeterGroup} {switch vid rid : ObjectId} {ids : List BucketCounter}

/-- The rows of an interface, over all partitions. -/
def rowsOf (g : MeterGroup) (vid : ObjectId) : List Row :=
  g.partitions.values.flatMap fun p => p.rowsOf vid

/-- An interface has no rows but in the partition of some counters. -/
def OnlyIn (g : MeterGroup) (vid : ObjectId) (ids : List BucketCounter) : Prop :=
  ∀ ids' p, g.partitions.get? ids' = some p → p.holds vid = true → ids' = ids

/-- An interface of a switch has a row in the partition of some counters for each of the buckets
that the switch is known to have, side by side. -/
def StandsIn (g : MeterGroup) (switch vid rid : ObjectId) (ids : List BucketCounter) : Prop :=
  ∃ p count, g.partitions.get? ids = some p ∧ g.countsBySwitch.get? switch = some count ∧
    0 < count ∧ p.HasBlock vid (bucketRows switch vid rid count)

/-- Every partition has rows and ascending counters, an interface that is tracked stands in one
partition and nowhere else, and one that is not has no rows. -/
structure Sound (g : MeterGroup) : Prop where
  filed : ∀ ids p, g.partitions.get? ids = some p →
    p.rows ≠ [] ∧ p.ids = ids ∧ ids ≠ [] ∧ CounterId.Ascending ids
  stands : ∀ vid rid, g.interfaces.get? vid = some rid →
    ∃ switch ids, g.StandsIn switch vid rid ids ∧ g.OnlyIn vid ids
  absent : ∀ vid, g.interfaces.get? vid = none →
    ∀ ids p, g.partitions.get? ids = some p → p.holds vid ≠ true

theorem sound_initial (settings : GroupSettings) : (initial settings).Sound where
  filed _ _ hp := absurd hp (by simp [initial])
  stands _ _ hrid := absurd hrid (by simp [initial])
  absent _ _ _ _ hp := absurd hp (by simp [initial])

/-- A group tracks what another does, and knows at least as many counts of buckets. -/
structure Retains (before after : MeterGroup) : Prop where
  settings_eq : after.settings = before.settings
  interfaces_eq : after.interfaces = before.interfaces
  partitions_eq : after.partitions = before.partitions
  counts : ∀ switch count, before.countsBySwitch.get? switch = some count →
    after.countsBySwitch.get? switch = some count

theorem Retains.refl (g : MeterGroup) : Retains g g := ⟨rfl, rfl, rfl, fun _ _ h => h⟩

theorem Retains.sound (h : Retains g after) (hsound : g.Sound) : after.Sound := by
  obtain ⟨-, hinterfaces, hpartitions, hcounts⟩ := h
  refine ⟨hpartitions ▸ hsound.filed, ?_, hinterfaces ▸ hpartitions ▸ hsound.absent⟩
  intro vid rid hrid
  rw [hinterfaces] at hrid
  obtain ⟨switch, ids, ⟨p, count, hp, hcount, hpos, hblock⟩, honly⟩ := hsound.stands vid rid hrid
  refine ⟨switch, ids, ⟨p, count, hpartitions ▸ hp, hcounts switch count hcount, hpos, hblock⟩, ?_⟩
  intro ids' p' hp'
  exact honly ids' p' (hpartitions ▸ hp')

section Rows

/-- The rows of an interface with rows in a single partition are those it has there. -/
theorem OnlyIn.rowsOf_eq (h : g.OnlyIn vid ids) {p : Partition .meterBucketStat}
    (hp : g.partitions.get? ids = some p) : g.rowsOf vid = p.rowsOf vid := by
  obtain ⟨first, rest, hentries⟩ := List.append_of_mem (SortedMap.get?_eq_some_iff.mp hp)
  have hkeys := g.partitions.ascend
  have helsewhere : ∀ entry ∈ g.partitions.entries, entry.1 ≠ ids →
      entry.2.rowsOf vid = [] := by
    intro entry hentry hne
    apply Partition.rowsOf_eq_nil
    intro hheld
    exact hne (h entry.1 entry.2 (SortedMap.get?_eq_some_iff.mpr hentry) hheld)
  have hself : ∀ {a b : List BucketCounter}, compare a b = .lt → a ≠ b := by
    rintro a _ hlt rfl
    simp [Std.ReflCmp.compare_self] at hlt
  rw [KeysAscend, hentries, List.pairwise_append] at hkeys
  obtain ⟨-, hrest, hfirst⟩ := hkeys
  have hbefore : first.flatMap (fun entry => entry.2.rowsOf vid) = [] := by
    apply List.flatMap_eq_nil_iff.mpr
    intro entry hentry
    refine helsewhere entry (hentries ▸ List.mem_append_left _ hentry) ?_
    exact hself (hfirst entry hentry _ List.mem_cons_self)
  have hafter : rest.flatMap (fun entry => entry.2.rowsOf vid) = [] := by
    apply List.flatMap_eq_nil_iff.mpr
    intro entry hentry
    refine helsewhere entry
      (hentries ▸ List.mem_append_right _ (List.mem_cons_of_mem _ hentry)) ?_
    exact (hself ((List.pairwise_cons.mp hrest).1 entry hentry)).symm
  rw [rowsOf, SortedMap.values, hentries, List.flatMap_map, List.flatMap_append,
    List.flatMap_cons, hbefore, hafter, List.nil_append, List.append_nil]

theorem Sound.rowsOf_eq_nil (h : g.Sound) (hvid : g.interfaces.get? vid = none) :
    g.rowsOf vid = [] := by
  apply List.flatMap_eq_nil_iff.mpr
  intro p hp
  obtain ⟨entry, hentry, rfl⟩ := List.mem_map.mp hp
  exact Partition.rowsOf_eq_nil
    (h.absent vid hvid entry.1 entry.2 (SortedMap.get?_eq_some_iff.mpr hentry))

theorem StandsIn.rowsOf_eq (h : g.StandsIn switch vid rid ids) (honly : g.OnlyIn vid ids) :
    ∃ count, g.countsBySwitch.get? switch = some count ∧ 0 < count ∧
      g.rowsOf vid = bucketRows switch vid rid count := by
  obtain ⟨p, count, hp, hcount, hpos, hblock⟩ := h
  refine ⟨count, hcount, hpos, ?_⟩
  calc
    g.rowsOf vid = p.rowsOf vid := honly.rowsOf_eq hp
    _ = bucketRows switch vid rid count := hblock.rowsOf_eq fun _ => vid_of_mem_bucketRows

/-- An interface is tracked exactly if it has rows. -/
theorem Sound.mem_vids_iff (h : g.Sound) :
    vid ∈ g.vids ↔ ∃ ids p, g.partitions.get? ids = some p ∧ p.holds vid = true := by
  rw [vids, ← SortedMap.contains_iff, SortedMap.contains_iff_get?]
  constructor
  · rintro ⟨rid, hrid⟩
    obtain ⟨switch, ids, ⟨p, count, hp, -, hpos, hblock⟩, -⟩ := h.stands vid rid hrid
    refine ⟨ids, p, hp, ?_⟩
    obtain ⟨row, hrow⟩ :=
      List.exists_mem_of_ne_nil (bucketRows switch vid rid count) (bucketRows_ne_nil hpos)
    obtain ⟨before, after, hrows, -⟩ := hblock
    refine Partition.holds_iff_mem.mpr ⟨row, ?_, vid_of_mem_bucketRows hrow⟩
    rw [hrows]
    exact List.mem_append_left _ (List.mem_append_right _ hrow)
  · rintro ⟨ids, p, hp, hheld⟩
    cases hrid : g.interfaces.get? vid with
    | none => exact absurd hheld (h.absent vid hrid ids p hp)
    | some rid => exact ⟨rid, rfl⟩

end Rows

section Untrack

/-- Dropping an interface keeps the others as they stand. -/
theorem Sound.untrack (h : g.Sound) (vid : ObjectId) : (g.untrack vid).Sound := by
  unfold MeterGroup.untrack
  split
  · have hget : ∀ {ids p}, ((g.partitions.map fun _ p => p.remove vid).filter fun _ p =>
        !p.isEmpty).get? ids = some p →
        ∃ q, g.partitions.get? ids = some q ∧ p = q.remove vid ∧ p.rows ≠ [] := by
      intro ids p hp
      rw [SortedMap.get?_filter, Option.filter_eq_some_iff, SortedMap.get?_map,
        Option.map_eq_some_iff] at hp
      obtain ⟨⟨q, hq, rfl⟩, hrows⟩ := hp
      exact ⟨q, hq, rfl, by simpa [Partition.isEmpty] using hrows⟩
    constructor
    · intro ids p hp
      obtain ⟨q, hq, rfl, hrows⟩ := hget hp
      obtain ⟨-, hids⟩ := h.filed ids q hq
      exact ⟨hrows, hids⟩
    · intro other rid hrid
      have hother : other ≠ vid := by
        rintro rfl
        rw [SortedMap.get?_erase_self] at hrid
        cases hrid
      rw [SortedMap.get?_erase_of_ne _ hother.symm] at hrid
      obtain ⟨switch, ids, ⟨p, count, hp, hcount, hpos, hblock⟩, honly⟩ :=
        h.stands other rid hrid
      have hkept := hblock.remove (fun _ => vid_of_mem_bucketRows) hother
      refine ⟨switch, ids, ⟨p.remove vid, count, ?_, hcount, hpos, hkept⟩, ?_⟩
      · have hrows : (p.remove vid).rows ≠ [] := by
          obtain ⟨before, after, heq, -⟩ := hkept
          rw [heq]
          simp [bucketRows_ne_nil hpos]
        rw [SortedMap.get?_filter, Option.filter_eq_some_iff, SortedMap.get?_map, hp]
        exact ⟨rfl, by simpa [Partition.isEmpty] using hrows⟩
      · intro ids' p' hp' hheld
        obtain ⟨q, hq, rfl, -⟩ := hget hp'
        exact honly ids' q hq (Partition.holds_remove.mp hheld).2
    · intro other hother ids p hp hheld
      obtain ⟨q, hq, rfl, -⟩ := hget hp
      obtain ⟨hne, hheld⟩ := Partition.holds_remove.mp hheld
      rw [SortedMap.get?_erase_of_ne _ hne.symm] at hother
      exact h.absent other hother ids q hq hheld
  · exact h

theorem get?_untrack_self (g : MeterGroup) (vid : ObjectId) :
    (g.untrack vid).interfaces.get? vid = none := by
  unfold untrack
  split
  · exact SortedMap.get?_erase_self _ _
  · next habsent => exact SortedMap.contains_eq_false_iff.mp (Bool.eq_false_iff.mpr habsent)

end Untrack

section Put

variable {ids' : List BucketCounter} {other : ObjectId} {count : Nat}

/-- The partition of some counters, new if there is none yet. -/
def partitionFor (g : MeterGroup) (ids : List BucketCounter) : Partition .meterBucketStat :=
  (g.partitions.get? ids).getD ⟨defaultShare, g.settings.chunkSize, ids, []⟩

theorem partitionFor_of_get? {p : Partition .meterBucketStat}
    (h : g.partitions.get? ids = some p) : g.partitionFor ids = p := by
  rw [partitionFor, h, Option.getD_some]

/-- A new partition has no rows. -/
theorem get?_of_holds (h : (g.partitionFor ids).holds vid = true) :
    g.partitions.get? ids = some (g.partitionFor ids) := by
  cases hp : g.partitions.get? ids with
  | none =>
    rw [partitionFor, hp] at h
    cases h
  | some p => rw [partitionFor_of_get? hp]

/-- An interface that is tracked has its rows in the partition of its counters. -/
theorem get?_put_self (g : MeterGroup) (switch vid rid : ObjectId) (ids : List BucketCounter)
    (count : Nat) :
    (g.put vid rid ids (eniBuckets switch rid count)).partitions.get? ids =
      some ((g.partitionFor ids).addRows (bucketRows switch vid rid count)) :=
  SortedMap.get?_insert_self _ _ _

theorem get?_put_of_ne (g : MeterGroup) (vid rid : ObjectId) (keys : List RowKey)
    (h : ids ≠ ids') :
    (g.put vid rid ids keys).partitions.get? ids' = g.partitions.get? ids' :=
  SortedMap.get?_insert_of_ne _ _ h

theorem interfaces_put_self (g : MeterGroup) (vid rid : ObjectId) (ids : List BucketCounter)
    (keys : List RowKey) : (g.put vid rid ids keys).interfaces.get? vid = some rid :=
  SortedMap.get?_insert_self _ _ _

theorem interfaces_put_of_ne (g : MeterGroup) (rid : ObjectId) (ids : List BucketCounter)
    (keys : List RowKey) (h : other ≠ vid) :
    (g.put vid rid ids keys).interfaces.get? other = g.interfaces.get? other :=
  SortedMap.get?_insert_of_ne _ _ h.symm

/-- The rows of the other interfaces are where they were. -/
theorem holds_of_put {p : Partition .meterBucketStat} (hother : other ≠ vid)
    (hp : (g.put vid rid ids (eniBuckets switch rid count)).partitions.get? ids' = some p)
    (hheld : p.holds other = true) :
    ∃ q, g.partitions.get? ids' = some q ∧ q.holds other = true := by
  by_cases hsame : ids = ids'
  · subst hsame
    rw [get?_put_self] at hp
    cases hp
    obtain ⟨row, hrow, hvid⟩ := Partition.holds_iff_mem.mp hheld
    rcases List.mem_append.mp hrow with hold | hnew
    · have hheld' := Partition.holds_iff_mem.mpr ⟨row, hold, hvid⟩
      exact ⟨g.partitionFor ids, get?_of_holds hheld', hheld'⟩
    · exact absurd (hvid.symm.trans (vid_of_mem_bucketRows hnew)) hother
  · rw [get?_put_of_ne g vid rid _ hsame] at hp
    exact ⟨p, hp, hheld⟩

/-- An interface that was not tracked has all of its buckets in one place afterwards. -/
theorem Sound.put_self (h : g.Sound) (habsent : g.interfaces.get? vid = none)
    (hcount : g.countsBySwitch.get? switch = some count) (hpos : 0 < count)
    (rid : ObjectId) (ids : List BucketCounter) :
    (g.put vid rid ids (eniBuckets switch rid count)).StandsIn switch vid rid ids ∧
      (g.put vid rid ids (eniBuckets switch rid count)).OnlyIn vid ids := by
  have hfresh : (g.partitionFor ids).holds vid ≠ true := fun hheld =>
    h.absent vid habsent ids _ (get?_of_holds hheld) hheld
  constructor
  · exact ⟨_, count, g.get?_put_self switch vid rid ids count, hcount, hpos,
      Partition.hasBlock_addRows hfresh⟩
  · intro ids' p hp hheld
    by_contra hne
    rw [get?_put_of_ne g vid rid _ (Ne.symm hne)] at hp
    exact h.absent vid habsent ids' p hp hheld

/-- Another interface stays where it was. -/
theorem StandsIn.put {switch' rid' : ObjectId} (h : g.StandsIn switch' other rid' ids')
    (hother : other ≠ vid) :
    (g.put vid rid ids (eniBuckets switch rid count)).StandsIn switch' other rid' ids' := by
  obtain ⟨p, count', hp, hcount', hpos', hblock⟩ := h
  by_cases hsame : ids = ids'
  · subst hsame
    refine ⟨_, count', g.get?_put_self switch vid rid ids count, hcount', hpos', ?_⟩
    rw [partitionFor_of_get? hp]
    exact hblock.addRows fun row hrow hvid =>
      hother (hvid.symm.trans (vid_of_mem_bucketRows hrow))
  · exact ⟨p, count', (get?_put_of_ne g vid rid _ hsame).trans hp, hcount', hpos', hblock⟩

/-- An interface that is not tracked may be tracked with all of its buckets. -/
theorem Sound.put (h : g.Sound) (habsent : g.interfaces.get? vid = none) (hids : ids ≠ [])
    (hasc : CounterId.Ascending ids) (hcount : g.countsBySwitch.get? switch = some count)
    (hpos : 0 < count) : (g.put vid rid ids (eniBuckets switch rid count)).Sound where
  filed ids' p hp := by
    by_cases hsame : ids = ids'
    · subst hsame
      rw [get?_put_self] at hp
      cases hp
      have hown : (g.partitionFor ids).ids = ids := by
        cases hfound : g.partitions.get? ids with
        | none => rw [partitionFor, hfound, Option.getD_none]
        | some q =>
          rw [partitionFor_of_get? hfound]
          exact (h.filed ids q hfound).2.1
      refine ⟨?_, hown, hids, hasc⟩
      rw [Partition.rows_addRows]
      exact List.append_ne_nil_of_right_ne_nil _ (bucketRows_ne_nil hpos)
    · rw [get?_put_of_ne g vid rid _ hsame] at hp
      exact h.filed ids' p hp
  stands other rid' hrid' := by
    by_cases hother : other = vid
    · subst hother
      rw [interfaces_put_self] at hrid'
      cases hrid'
      exact ⟨switch, ids, h.put_self habsent hcount hpos rid ids⟩
    · rw [interfaces_put_of_ne g rid ids _ hother] at hrid'
      obtain ⟨switch', ids', hstands, honly⟩ := h.stands other rid' hrid'
      refine ⟨switch', ids', hstands.put hother, fun ids'' p hp hheld => ?_⟩
      obtain ⟨q, hq, hqheld⟩ := holds_of_put hother hp hheld
      exact honly ids'' q hq hqheld
  absent other hnone ids' p hp hheld := by
    have hother : other ≠ vid := by
      rintro rfl
      rw [interfaces_put_self] at hnone
      cases hnone
    rw [interfaces_put_of_ne g rid ids _ hother] at hnone
    obtain ⟨q, hq, hqheld⟩ := holds_of_put hother hp hheld
    exact h.absent other hnone ids' q hq hqheld

end Put

end MeterGroup

end CounterPolling
