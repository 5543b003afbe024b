import CounterPolling.Proofs.Group.Interfaces
import CounterPolling.Proofs.Group.Sizes

/-!
# What new prefixes do to a group

New prefixes are refused, and then nothing changes, or they are taken. A group that takes them
tracks the same objects as before, provided that its partitions are rightly filed, as they are at
any time. Main statements: `StatsGroup.Filed.withPrefixes`, and `Group.Filed.perform`, by which
every command keeps partitions rightly filed.
-/

namespace CounterPolling

namespace PartitionTable

variable {family : CounterFamily} {table : PartitionTable family} {prefixes : PrefixConfig}
  {sets : List (WholeSet family)} {size : Nat} {vid : ObjectId}

/-- What is held once counter sets were added are the objects held before and those of the sets. -/
theorem holds_addSets (hids : ∀ set ∈ sets, set.ids ≠ []) :
    (table.addSets prefixes size sets).holds vid = true ↔
      table.holds vid = true ∨ ∃ set ∈ sets, ∃ row ∈ set.rows, row.vid = vid := by
  induction sets generalizing table with
  | nil => simp [addSets]
  | cons set rest ih =>
    obtain ⟨hfirst, hrest⟩ := List.forall_mem_cons.mp hids
    rw [addSets_cons, ih hrest, holds_addSplit hfirst, List.exists_mem_cons_iff, or_assoc]

/-- The merged sets of rightly filed partitions have counters, and the objects of the table. -/
theorem FiledWith.merge_holds {P : Partition family → Prop} (h : table.FiledWith prefixes P)
    (hmerge : table.merge? prefixes = some sets) :
    (∀ set ∈ sets, set.ids ≠ []) ∧
      ∀ vid, (∃ set ∈ sets, ∃ row ∈ set.rows, row.vid = vid) ↔ table.holds vid = true := by
  unfold merge? at hmerge
  split at hmerge
  · cases hmerge
    constructor
    · intro set hset
      obtain ⟨key, p, hp, rfl⟩ := mem_wholeSets.mp hset
      exact (h key p hp).1.ids_ne_nil
    · intro vid
      rw [holds_iff]
      constructor
      · rintro ⟨set, hset, row, hrow, hvid⟩
        obtain ⟨key, p, hp, rfl⟩ := mem_wholeSets.mp hset
        exact ⟨key, row, by rwa [rowsAt_eq hp], hvid⟩
      · rintro ⟨key, row, hrow, hvid⟩
        obtain ⟨p, hp, hmem⟩ := mem_rowsAt.mp hrow
        have hset := mem_wholeSets.mpr ⟨key, p, SortedMap.get?_eq_some_iff.mpr hp, rfl⟩
        exact ⟨_, hset, row, hmem, hvid⟩
  · cases hentries : table.entries with
    | nil =>
      rw [union?, hentries] at hmerge
      cases hmerge
      refine ⟨fun set hset => absurd hset List.not_mem_nil, fun vid => ?_⟩
      simp [PartitionTable.holds, SortedMap.any, hentries]
    | cons first rest =>
      obtain ⟨hsame, rfl⟩ := (union?_eq_some_iff hentries).mp hmerge
      have hfirst : first ∈ table.entries := hentries ▸ List.mem_cons_self
      have hfits := (h first.1 first.2 (SortedMap.get?_eq_some_iff.mpr hfirst)).1
      constructor
      · intro set hset hnil
        rw [List.mem_singleton.mp hset] at hnil
        obtain ⟨id, hid⟩ := List.exists_mem_of_ne_nil _ hfits.ids_ne_nil
        have hmem := mem_allIds.mpr ⟨first.1, first.2, hfirst, hid⟩
        exact List.ne_nil_of_mem hmem hnil
      · intro vid
        rw [holds_iff]
        constructor
        · rintro ⟨set, hset, row, hrow, hvid⟩
          rw [List.mem_singleton.mp hset] at hrow
          exact ⟨first.1, row, mem_rowsAt.mpr ⟨first.2, hfirst, hrow⟩, hvid⟩
        · rintro ⟨key, row, hrow, rfl⟩
          obtain ⟨p, hp, hmem⟩ := mem_rowsAt.mp hrow
          -- the partitions merge because each has the objects of the first
          have hvids : SortedSet.ofList p.vids = SortedSet.ofList first.2.vids := by
            rw [hentries] at hp
            rcases List.mem_cons.mp hp with rfl | hrest
            · rfl
            · exact congrArg Prod.snd (hsame _ hrest)
          have hvid : row.vid ∈ p.vids := List.mem_map_of_mem hmem
          rw [← SortedSet.has_ofList, hvids, SortedSet.has_ofList] at hvid
          exact ⟨_, List.mem_cons_self, List.mem_map.mp hvid⟩

/-- Regrouping rightly filed partitions keeps the objects that are held. -/
theorem FiledWith.holds_regroup {P : Partition family → Prop} (h : table.FiledWith prefixes P)
    (hmerge : table.merge? prefixes = some sets) (prefixes' : PrefixConfig) (size : Nat)
    (vid : ObjectId) :
    (ofWholeSets prefixes' size sets).holds vid = true ↔ table.holds vid = true := by
  obtain ⟨hids, hholds⟩ := h.merge_holds hmerge
  have hadded : (addSets prefixes' size ∅ sets).holds vid = true ↔ _ := holds_addSets hids
  have hnone : (∅ : PartitionTable family).holds vid = false := rfl
  rw [hnone, hholds] at hadded
  exact hadded.trans (or_iff_right Bool.false_ne_true)

end PartitionTable

namespace StatsGroup

variable {family : CounterFamily} {g after : StatsGroup family} {prefixes : PrefixConfig}

/-- Every partition is rightly filed under the prefixes in force. -/
def Filed (g : StatsGroup family) : Prop :=
  g.partitions.FiledWith g.settings.prefixes fun _ => True

/-- New prefixes are refused if the partitions cannot be merged, bring sizes only if they divide
alike, and divide the merged sets anew otherwise. -/
theorem withPrefixes_cases (g : StatsGroup family) (prefixes : PrefixConfig) :
    g.withPrefixes prefixes = .error (.conflictingPartitions g.settings.spec.name) ∨
    (PrefixConfig.DivideAlike g.settings.prefixes prefixes ∧ g.withPrefixes prefixes =
      .ok { g with
        settings := { g.settings with prefixes := prefixes }
        partitions := g.partitions.resize prefixes.sizeNamed? }) ∨
    ∃ sets, g.partitions.merge? g.settings.prefixes = some sets ∧ g.withPrefixes prefixes =
      .ok { g with
        settings := { g.settings with prefixes := prefixes }
        partitions := PartitionTable.ofWholeSets prefixes g.settings.chunkSize sets } := by
  unfold withPrefixes
  by_cases halike : PrefixConfig.DivideAlike g.settings.prefixes prefixes
  · exact .inr (.inl ⟨halike, if_pos halike⟩)
  · dsimp only
    rw [if_neg halike]
    cases g.partitions.merge? g.settings.prefixes with
    | none => exact .inl rfl
    | some sets => exact .inr (.inr ⟨sets, rfl, rfl⟩)

/-- A group that tracks nothing has nothing to divide anew. -/
theorem withPrefixes_initial (prefixes : PrefixConfig) (settings : GroupSettings) :
    (initial settings : StatsGroup family).withPrefixes prefixes =
      .ok (initial { settings with prefixes := prefixes }) := by
  have hmerge : (∅ : PartitionTable family).merge? settings.prefixes = some [] := by
    unfold PartitionTable.merge?
    split <;> rfl
  unfold withPrefixes
  dsimp only [initial]
  rw [hmerge]
  exact ite_self _

/-- Groups with the same objects in each of the two ways list the same objects. -/
theorem vids_eq_of_holds (hsingles : after.singles = g.singles)
    (hholds : ∀ vid, after.partitions.holds vid = true ↔ g.partitions.holds vid = true) :
    after.vids = g.vids := by
  refine congrArg SortedSet.toList (SortedSet.ext_has fun vid => ?_)
  rw [← SortedSet.mem_toList, ← SortedSet.mem_toList]
  change vid ∈ after.vids ↔ vid ∈ g.vids
  rw [mem_vids, mem_vids, hsingles, hholds]

/-- New prefixes that are taken leave partitions rightly filed and objects tracked. -/
theorem Filed.withPrefixes (h : g.Filed) (htaken : g.withPrefixes prefixes = .ok after) :
    after.Filed ∧ after.settings = { g.settings with prefixes := prefixes } ∧
      after.singles = g.singles ∧ after.vids = g.vids := by
  rcases g.withPrefixes_cases prefixes with hrefused | ⟨halike, heq⟩ | ⟨sets, hmerge, heq⟩
  · rw [hrefused] at htaken
    cases htaken
  · rw [heq] at htaken
    cases htaken
    refine ⟨fun key p hp => ?_, rfl, rfl, vids_eq_of_holds rfl fun vid => ?_⟩
    · rw [PartitionTable.get?_resize, Option.map_eq_some_iff] at hp
      obtain ⟨q, hq, rfl⟩ := hp
      exact ⟨(h key q hq).1.withChunkSize halike _, trivial⟩
    · rw [PartitionTable.holds_resize]
  · rw [heq] at htaken
    cases htaken
    refine ⟨?_, rfl, rfl, vids_eq_of_holds rfl fun vid => ?_⟩
    · exact (PartitionTable.FiledWith.regroup h hmerge prefixes _).mono fun _ _ => trivial
    · exact PartitionTable.FiledWith.holds_regroup h hmerge prefixes _ vid

/-- Every command keeps partitions rightly filed, whatever the driver answers. -/
theorem Filed.conclude (h : g.Filed) {command : GroupCommand} {decision : Decision family}
    {own : Option ReadMode} (hcovers : decision.Covers own command.objects) :
    (g.conclude decision command).Filed := by
  cases hcommand : command.configures with
  | false =>
    rw [Filed, (g.chunking_conclude decision hcommand).1]
    exact filedWith_conclude h (fun _ _ _ => trivial) (fun _ _ => trivial) hcommand hcovers
  | true =>
    cases command with
    | resize size =>
      intro key p hp
      simp only [StatsGroup.conclude, withChunkSize] at hp ⊢
      rw [PartitionTable.get?_resize, Option.map_eq_some_iff] at hp
      obtain ⟨q, hq, rfl⟩ := hp
      exact ⟨(h key q hq).1.withChunkSize rfl _, trivial⟩
    | regroup prefixes =>
      rw [StatsGroup.conclude]
      cases htaken : g.withPrefixes prefixes with
      | error refusal => exact h
      | ok after => exact (h.withPrefixes htaken).1
    | _ => cases hcommand

end StatsGroup

namespace Group

variable {group after : Group} {prefixes : PrefixConfig}

/-- Partitions are rightly filed; only groups of counters divide them by prefixes. -/
def Filed : Group → Prop
  | stats _ g => g.Filed
  | attributes .. | meterBuckets .. => True

theorem filed_initial (settings : GroupSettings) : (initial settings).Filed := by
  unfold initial
  split
  · exact PartitionTable.filedWith_empty _ _
  · trivial
  · trivial

theorem stats_perform_filed {family : CounterFamily} {g : StatsGroup family} (h : g.Filed)
    (command : GroupCommand) : ((stats family g).perform command).Always Filed := by
  rw [perform_stats, Dialogue.always_map]
  refine (g.perform_always command).mono ?_
  rintro after ⟨decision, hcovers, rfl⟩
  exact h.conclude hcovers

theorem add_filed (h : group.Filed) (vid rid : ObjectId) (names : List String)
    (asked : Option ReadMode) : (group.add vid rid names asked).Always Filed := by
  cases group with
  | stats family g => exact stats_perform_filed h (.add vid rid names asked)
  | _ =>
    rw [add, Dialogue.always_map]
    exact Dialogue.always_of_forall (fun _ => trivial) _

/-- Every command keeps partitions rightly filed, whatever the driver answers. -/
theorem Filed.perform (h : group.Filed) (command : GroupCommand) :
    (group.perform command).Always Filed := by
  cases group with
  | stats family g => exact stats_perform_filed h command
  | attributes family g =>
    cases command with
    | add vid rid names asked => exact add_filed h vid rid names asked
    | addMany vids rids names asked =>
      exact Dialogue.Always.carry (fun before hbefore object _ =>
        add_filed hbefore object.1 object.2 names asked) h
    | remove vid =>
      rw [Group.perform, remove, Dialogue.always_map]
      exact Dialogue.always_of_forall (fun _ => trivial) _
    | runPlugins arguments => exact Dialogue.always_bind_of_forall fun _ => trivial
    | poll => exact Dialogue.always_bind_of_forall fun _ => trivial
    | _ => trivial
  | meterBuckets g =>
    rw [MeterGroup.perform_meterBuckets, Dialogue.always_map]
    exact Dialogue.always_of_forall (fun _ => trivial) _

/-- A group refuses new prefixes for one reason only, or takes them and is told nothing else. -/
theorem withPrefixes_cases (group : Group) (prefixes : PrefixConfig) :
    group.withPrefixes prefixes = .error (.conflictingPartitions group.settings.spec.name) ∨
      ∃ after, group.withPrefixes prefixes = .ok after ∧
        after.settings = { group.settings with prefixes := prefixes } := by
  cases group with
  | stats family g =>
    rw [withPrefixes]
    rcases g.withPrefixes_cases prefixes with heq | ⟨-, heq⟩ | ⟨sets, -, heq⟩
    · rw [heq]
      exact .inl rfl
    · rw [heq]
      exact .inr ⟨_, rfl, rfl⟩
    · rw [heq]
      exact .inr ⟨_, rfl, rfl⟩
  | attributes family g => exact .inr ⟨_, rfl, rfl⟩
  | meterBuckets g => exact .inr ⟨_, rfl, rfl⟩

/-- A group that tracks nothing takes all prefixes. -/
theorem withPrefixes_initial (prefixes : PrefixConfig) (settings : GroupSettings) :
    (initial settings).withPrefixes prefixes =
      .ok (initial { settings with prefixes := prefixes }) := by
  unfold initial
  dsimp only
  split
  · rw [withPrefixes, StatsGroup.withPrefixes_initial]
    rfl
  · rfl
  · rfl

end Group

end CounterPolling
