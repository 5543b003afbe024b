import CounterPolling.Proofs.Group.Interfaces
import CounterPolling.Proofs.Group.Removal

/-!
# Objects that a call does not name

A registration or a removal decides on its own objects only. Whether a group tracks another object
is not changed by it, in whichever way that object is tracked. Main statements:
`Group.mem_vids_add_of_ne` and `Group.mem_vids_without_of_ne`.
-/

namespace CounterPolling

namespace StatsGroup

variable {family : CounterFamily} {g : StatsGroup family} {vid other : ObjectId}

theorem mem_vids_untrack_of_ne (h : other ≠ vid) :
    other ∈ (g.untrack vid).vids ↔ other ∈ g.vids := by
  have hbulk : (g.untrack vid).partitions.holds other = true ↔
      g.partitions.holds other = true := by
    unfold untrack
    split
    · rfl
    · rw [PartitionTable.holds_remove, and_iff_right h]
  rw [mem_vids, mem_vids, contains_untrack, and_iff_right h, hbulk]

theorem mem_vids_untrackAll {vids : List ObjectId} (h : other ∉ vids) :
    other ∈ (g.untrackAll vids).vids ↔ other ∈ g.vids := by
  unfold untrackAll
  induction vids generalizing g with
  | nil => rfl
  | cons first rest ih =>
    rw [List.mem_cons, not_or] at h
    obtain ⟨hfirst, hrest⟩ := h
    rw [List.foldl_cons, ih hrest, mem_vids_untrack_of_ne hfirst]

/-- A decision concerns its own objects only. -/
theorem mem_vids_carryOut {decision : Decision family} {own : Option ReadMode}
    {objects : List (ObjectId × ObjectId)} (hcovers : decision.Covers own objects)
    (h : other ∉ objects.map Prod.fst) :
    other ∈ (g.carryOut decision).vids ↔ other ∈ g.vids := by
  have hplaced : ∀ p ∈ decision.placements, p.registration.ids ≠ [] ∧ p.vid ≠ other := by
    intro p hp
    obtain ⟨hsupported, rid, hobject, hregistration⟩ := hcovers.placed hp
    refine ⟨hregistration ▸ hsupported, ?_⟩
    rintro rfl
    exact h (List.mem_map_of_mem hobject)
  have hfresh : other ∉ decision.placements.map Placement.vid := by
    intro hmem
    obtain ⟨p, hp, hvid⟩ := List.mem_map.mp hmem
    exact (hplaced p hp).2 hvid
  have hnone : ∀ bulk, ¬ ∃ p ∈ decision.placements, p.vid = other ∧ p.bulk = bulk :=
    fun _ ⟨p, hp, hvid, _⟩ => (hplaced p hp).2 hvid
  rw [carryOut, mem_vids, contains_settle, holds_settle fun p hp => (hplaced p hp).1,
    or_iff_left (hnone false), or_iff_left (hnone true), ← mem_vids, mem_vids_untrackAll hfresh]
  exact mem_vids.trans mem_vids.symm

end StatsGroup

/-- No outcome of a registration concerns another interface. -/
theorem MeterGroup.Outcome.mem_vids_iff {g after : MeterGroup} {switch vid rid other : ObjectId}
    (h : g.Outcome switch vid rid after) (hother : other ≠ vid) :
    other ∈ after.vids ↔ other ∈ g.vids := by
  have hdropped : other ∈ (g.untrack vid).vids ↔ other ∈ g.vids := by
    rw [mem_vids_untrack, and_iff_right hother]
  cases h with
  | kept hkept => rw [vids, hkept.interfaces_eq, ← vids]
  | dropped hretains => rw [vids, hretains.interfaces_eq, ← vids, hdropped]
  | placed hretains _ _ _ _ =>
    rw [vids, ← SortedMap.contains_iff, put, SortedMap.contains_insert, or_iff_right hother.symm,
      hretains.interfaces_eq, SortedMap.contains_iff, ← vids, hdropped]

namespace Group

variable {group : Group} {vid other : ObjectId}

/-- A group that tracks nothing lists nothing. -/
theorem vids_initial (settings : GroupSettings) : (initial settings).vids = [] := by
  unfold initial
  split <;> rfl

theorem vids_mapSettings (change : GroupSettings → GroupSettings) (group : Group) :
    (group.mapSettings change).vids = group.vids := by
  cases group <;> rfl

/-- Registering an object does not concern another one, whatever the driver answers. -/
theorem mem_vids_add_of_ne (h : other ≠ vid) (rid : ObjectId) (names : List String)
    (asked : Option ReadMode) :
    (group.add vid rid names asked).Always fun after =>
      other ∈ after.vids ↔ other ∈ group.vids := by
  cases group with
  | stats family g =>
    refine (Dialogue.always_map _ _ _).mpr ?_
    refine (g.perform_always (.add vid rid names asked)).mono ?_
    rintro after ⟨decision, hcovers, rfl⟩
    exact StatsGroup.mem_vids_carryOut hcovers fun hmem => h (List.mem_singleton.mp hmem)
  | attributes family g =>
    rw [add, Dialogue.always_map]
    refine (g.add_always vid rid names).mono ?_
    rintro after (⟨-, rfl⟩ | ⟨-, rfl⟩)
    · rfl
    · rw [vids, AttributeGroup.vids, ← SortedMap.contains_iff, SortedMap.contains_insert,
        or_iff_right h.symm, SortedMap.contains_iff]
      rfl
  | meterBuckets g =>
    rw [add, Dialogue.always_map]
    refine (g.add_always vid rid names).mono ?_
    rintro after ⟨switch, houtcome⟩
    exact houtcome.mem_vids_iff h

/-- Dropping an object does not concern another one, even if it is tracked in two ways. -/
theorem mem_vids_without_of_ne (h : other ≠ vid) :
    other ∈ (group.without vid).vids ↔ other ∈ group.vids := by
  cases group with
  | stats family g =>
    unfold without vids
    dsimp only
    split
    · exact StatsGroup.mem_vids_untrack_of_ne h
    · rfl
  | attributes family g =>
    unfold without vids AttributeGroup.vids
    rw [← SortedMap.contains_iff, SortedMap.contains_erase, and_iff_right h.symm,
      SortedMap.contains_iff]
  | meterBuckets g => exact MeterGroup.mem_vids_untrack.trans (and_iff_right h)

end Group

end CounterPolling
