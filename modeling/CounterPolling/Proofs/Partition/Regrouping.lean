import CounterPolling.Proofs.Partition.Soundness

/-!
# Regrouping keeps what is read

Merging the partitions of a sound table gives counter sets of objects that are apart from
each other, and dividing such sets by other prefixes gives a sound table again. Between the
two the same counters are read for the same rows. Main statement: `Sound.regroup`.
-/

namespace CounterPolling

variable {family : CounterFamily}

/-- A counter set that may be divided: neither counters nor rows are missing or repeated. -/
structure WholeSet.Proper (set : WholeSet family) : Prop where
  ids_ne_nil : set.ids ≠ []
  ascending : CounterId.Ascending set.ids
  rows_ne_nil : set.rows ≠ []
  vids_nodup : (set.rows.map Row.vid).Nodup

/-- Two counter sets have no object in common. -/
def WholeSet.Apart (a b : WholeSet family) : Prop :=
  ∀ row ∈ a.rows, ∀ row' ∈ b.rows, row.vid ≠ row'.vid

/-- Some of a number of counter sets has a row and a counter in a mode. -/
def WholeSet.SomeReads (sets : List (WholeSet family)) (mode : Option ReadMode) (row : Row)
    (id : CounterId family) : Prop :=
  ∃ set ∈ sets, set.mode = mode ∧ row ∈ set.rows ∧ id ∈ set.ids

namespace PartitionTable

variable {prefixes prefixes' : PrefixConfig} {table : PartitionTable family}
  {sets : List (WholeSet family)} {size : Nat}

theorem mem_wholeSets {set : WholeSet family} :
    set ∈ table.wholeSets ↔
      ∃ key p, table.get? key = some p ∧ set = ⟨key.mode, key.ids, p.rows⟩ := by
  simp only [wholeSets, List.mem_map, SortedMap.get?_eq_some_iff]
  constructor
  · rintro ⟨⟨key, p⟩, hp, rfl⟩
    exact ⟨key, p, hp, rfl⟩
  · rintro ⟨key, p, hp, rfl⟩
    exact ⟨(key, p), hp, rfl⟩

/-- All partitions are the parts of one set exactly if they have the objects and the mode of
the first. -/
theorem union?_eq_some_iff {first : PartitionKey family × Partition family}
    {rest : List (PartitionKey family × Partition family)}
    (hentries : table.entries = first :: rest) :
    table.union? = some sets ↔
      (∀ entry ∈ rest, membership entry = membership first) ∧
        sets = [⟨first.1.mode,
          SortedSet.toList (SortedSet.ofList (table.keys.flatMap PartitionKey.ids)),
          first.2.rows⟩] := by
  unfold union?
  rw [hentries]
  by_cases h : ∀ entry ∈ rest, membership entry = membership first
  · have hall : (rest.all fun entry => membership entry == membership first) = true := by
      simpa using h
    dsimp only
    rw [if_pos hall, Option.some.injEq]
    exact ⟨fun heq => ⟨h, heq.symm⟩, fun ⟨_, heq⟩ => heq.symm⟩
  · have hall : ¬ (rest.all fun entry => membership entry == membership first) = true := by
      simpa using h
    dsimp only
    rw [if_neg hall]
    exact ⟨fun heq => absurd heq.symm (Option.some_ne_none _), fun ⟨hrest, _⟩ => absurd hrest h⟩

/-- The rows of the merged sets are rows of the table. -/
theorem exists_mem_rowsAt_of_merge? (h : table.merge? prefixes = some sets)
    {set : WholeSet family} (hset : set ∈ sets) {row : Row} (hrow : row ∈ set.rows) :
    ∃ key, row ∈ table.rowsAt key := by
  unfold merge? at h
  split at h
  · cases h
    obtain ⟨key, p, hp, rfl⟩ := mem_wholeSets.mp hset
    exact ⟨key, by rwa [rowsAt_eq hp]⟩
  · cases hentries : table.entries with
    | nil =>
      rw [union?, hentries] at h
      cases h
      exact absurd hset List.not_mem_nil
    | cons first rest =>
      obtain ⟨-, rfl⟩ := (union?_eq_some_iff hentries).mp h
      rw [List.mem_singleton.mp hset] at hrow
      refine ⟨first.1, mem_rowsAt.mpr ⟨first.2, ?_, hrow⟩⟩
      rw [hentries]
      exact List.mem_cons_self

/-- Adds counter sets to a table one after the other, divided by a prefix configuration. -/
def addSets (prefixes : PrefixConfig) (size : Nat) (table : PartitionTable family)
    (sets : List (WholeSet family)) : PartitionTable family :=
  sets.foldl
    (fun table set => table.addShares set.mode set.rows (prefixes.split size set.ids)) table

theorem addSets_cons (set : WholeSet family) :
    table.addSets prefixes size (set :: sets) =
      (table.addShares set.mode set.rows (prefixes.split size set.ids)).addSets
        prefixes size sets := rfl

theorem mem_rowsAt_addSets {key : PartitionKey family} {row : Row}
    (h : row ∈ (table.addSets prefixes size sets).rowsAt key) :
    row ∈ table.rowsAt key ∨ ∃ set ∈ sets, row ∈ set.rows := by
  induction sets generalizing table with
  | nil => exact .inl h
  | cons set rest ih =>
    rw [addSets_cons] at h
    rcases ih h with hfirst | ⟨other, hother, hmem⟩
    · rcases mem_rowsAt_addSplit.mp hfirst with hold | ⟨-, -, hnew⟩
      · exact .inl hold
      · exact .inr ⟨set, List.mem_cons_self, hnew⟩
    · exact .inr ⟨other, List.mem_cons_of_mem _ hother, hmem⟩

/-- Regrouping makes no object held that was not. -/
theorem holds_of_regroup (h : table.merge? prefixes = some sets) {vid : ObjectId}
    (hheld : (ofWholeSets prefixes' size sets).holds vid = true) : table.holds vid = true := by
  obtain ⟨key, row, hrow, hvid⟩ := holds_iff.mp hheld
  obtain ⟨set, hset, hmem⟩ : ∃ set ∈ sets, row ∈ set.rows := by
    rcases mem_rowsAt_addSets hrow with hnone | hset
    · simp at hnone
    · exact hset
  obtain ⟨key', hrow'⟩ := exists_mem_rowsAt_of_merge? h hset hmem
  exact holds_iff.mpr ⟨key', row, hrow', hvid⟩

/-- Without prefixes each partition is a set of its own. -/
theorem Sound.wholeSets (h : table.Sound prefixes) (hempty : prefixes.isEmpty = true) :
    (∀ set ∈ table.wholeSets, set.Proper) ∧ table.wholeSets.Pairwise WholeSet.Apart ∧
      ∀ mode row id,
        WholeSet.SomeReads table.wholeSets mode row id ↔ table.Reads mode row id := by
  refine ⟨?_, ?_, ?_⟩
  · intro set hset
    obtain ⟨key, p, hp, rfl⟩ := mem_wholeSets.mp hset
    have hfits := h.fits hp
    have hnodup := h.vids_nodup key
    rw [rowsAt_eq hp] at hnodup
    exact ⟨hfits.ids_ne_nil, hfits.ascending, hfits.rows_ne_nil, hnodup⟩
  · unfold PartitionTable.wholeSets
    rw [List.pairwise_map]
    refine table.ascend.imp_of_mem fun {a b} ha hb hlt => ?_
    intro row hrow row' hrow' hvid
    have hkey : a.1 = b.1 := h.key_eq_of_isEmpty hempty (mem_rowsAt.mpr ⟨a.2, ha, hrow⟩)
      (mem_rowsAt.mpr ⟨b.2, hb, hrow'⟩) hvid
    rw [hkey] at hlt
    simp [Std.ReflCmp.compare_self] at hlt
  · intro mode row id
    constructor
    · rintro ⟨set, hset, rfl, hrow, hid⟩
      obtain ⟨key, p, hp, rfl⟩ := mem_wholeSets.mp hset
      exact ⟨key, rfl, by rwa [rowsAt_eq hp], hid⟩
    · rintro ⟨key, rfl, hrow, hid⟩
      obtain ⟨p, hp, -⟩ := h.fits_of_mem hrow
      rw [rowsAt_eq hp] at hrow
      exact ⟨⟨key.mode, key.ids, p.rows⟩, mem_wholeSets.mpr ⟨key, p, hp, rfl⟩, rfl, hrow, hid⟩

/-- A sound table has the same row for an object in each partition with the same objects. -/
theorem Sound.mem_rows_of_membership (h : table.Sound prefixes)
    {entry entry' : PartitionKey family × Partition family} (hentry : entry ∈ table.entries)
    (hentry' : entry' ∈ table.entries) (hsame : membership entry = membership entry') {row : Row}
    (hrow : row ∈ entry.2.rows) : row ∈ entry'.2.rows := by
  have hset : SortedSet.ofList entry.2.vids = SortedSet.ofList entry'.2.vids :=
    congrArg Prod.snd hsame
  have hvid : row.vid ∈ entry'.2.vids := by
    rw [← SortedSet.has_ofList, ← hset, SortedSet.has_ofList]
    exact List.mem_map_of_mem hrow
  obtain ⟨row', hrow', hvid'⟩ := List.mem_map.mp hvid
  have heq := (h.same_row (mem_rowsAt.mpr ⟨entry'.2, hentry', hrow'⟩)
    (mem_rowsAt.mpr ⟨entry.2, hentry, hrow⟩) hvid').1
  exact heq ▸ hrow'

theorem mem_allIds {id : CounterId family} :
    id ∈ SortedSet.toList (SortedSet.ofList (table.keys.flatMap PartitionKey.ids)) ↔
      ∃ key p, (key, p) ∈ table.entries ∧ id ∈ key.ids := by
  rw [SortedSet.mem_toList, SortedSet.has_ofList, List.mem_flatMap]
  simp only [SortedMap.keys, List.mem_map]
  constructor
  · rintro ⟨key, ⟨entry, hentry, rfl⟩, hid⟩
    exact ⟨entry.1, entry.2, hentry, hid⟩
  · rintro ⟨key, p, hp, hid⟩
    exact ⟨key, ⟨(key, p), hp, rfl⟩, hid⟩

/-- With the same objects everywhere the partitions are the parts of one set. -/
theorem Sound.union (h : table.Sound prefixes) (hunion : table.union? = some sets) :
    (∀ set ∈ sets, set.Proper) ∧ sets.Pairwise WholeSet.Apart ∧
      ∀ mode row id, WholeSet.SomeReads sets mode row id ↔ table.Reads mode row id := by
  cases hentries : table.entries with
  | nil =>
    rw [union?, hentries] at hunion
    cases hunion
    refine ⟨by simp, List.Pairwise.nil, fun mode row id => ?_⟩
    constructor
    · rintro ⟨set, hset, -⟩
      exact absurd hset List.not_mem_nil
    · rintro ⟨key, -, hrow, -⟩
      obtain ⟨p, hp, -⟩ := mem_rowsAt.mp hrow
      rw [hentries] at hp
      exact absurd hp List.not_mem_nil
  | cons first rest =>
    obtain ⟨hrest, rfl⟩ := (union?_eq_some_iff hentries).mp hunion
    have hfirst : (first.1, first.2) ∈ table.entries := hentries ▸ List.mem_cons_self
    have hget := SortedMap.get?_eq_some_iff.mpr hfirst
    have hfits := h.fits hget
    have hmember : ∀ {key p}, (key, p) ∈ table.entries →
        membership (key, p) = membership first := by
      intro key p hp
      rw [hentries] at hp
      rcases List.mem_cons.mp hp with rfl | hp
      · rfl
      · exact hrest _ hp
    refine ⟨?_, List.pairwise_singleton _ _, ?_⟩
    · intro set hset
      rw [List.mem_singleton.mp hset]
      obtain ⟨id, hid⟩ := List.exists_mem_of_ne_nil _ hfits.ids_ne_nil
      have hnodup := h.vids_nodup first.1
      rw [rowsAt_eq hget] at hnodup
      exact ⟨List.ne_nil_of_mem (mem_allIds.mpr ⟨first.1, first.2, hfirst, hid⟩),
        CounterId.ascending_toList _, hfits.rows_ne_nil, hnodup⟩
    · intro mode row id
      constructor
      · rintro ⟨set, hset, hmode, hrow, hid⟩
        rw [List.mem_singleton.mp hset] at hmode hrow hid
        obtain ⟨key, p, hp, hmem⟩ := mem_allIds.mp hid
        have hkey : key.mode = first.1.mode := congrArg Prod.fst (hmember hp)
        have hrow' := h.mem_rows_of_membership hfirst hp (hmember hp).symm hrow
        exact ⟨key, hkey.trans hmode, mem_rowsAt.mpr ⟨p, hp, hrow'⟩, hmem⟩
      · rintro ⟨key, rfl, hrow, hid⟩
        obtain ⟨p, hp, hmem⟩ := mem_rowsAt.mp hrow
        have hkey : key.mode = first.1.mode := congrArg Prod.fst (hmember hp)
        have hrow' := h.mem_rows_of_membership hp hfirst (hmember hp) hmem
        exact ⟨_, List.mem_singleton_self _, hkey.symm, hrow', mem_allIds.mpr ⟨key, p, hp, hid⟩⟩

/-- Merging a sound table gives proper sets, apart from each other, that read the same. -/
theorem Sound.merge (h : table.Sound prefixes) (hmerge : table.merge? prefixes = some sets) :
    (∀ set ∈ sets, set.Proper) ∧ sets.Pairwise WholeSet.Apart ∧
      ∀ mode row id, WholeSet.SomeReads sets mode row id ↔ table.Reads mode row id := by
  unfold merge? at hmerge
  split at hmerge
  · next hempty =>
    cases hmerge
    exact h.wholeSets hempty
  · exact h.union hmerge

/-- Proper sets, apart from each other and from a sound table, may be added to it. -/
theorem Sound.addSets (h : table.Sound prefixes) (hproper : ∀ set ∈ sets, set.Proper)
    (hapart : sets.Pairwise WholeSet.Apart)
    (hfresh : ∀ set ∈ sets, ∀ row ∈ set.rows, table.holds row.vid = false) :
    (table.addSets prefixes size sets).Sound prefixes ∧
      ∀ mode row id, (table.addSets prefixes size sets).Reads mode row id ↔
        table.Reads mode row id ∨ WholeSet.SomeReads sets mode row id := by
  induction sets generalizing table with
  | nil =>
    refine ⟨h, fun mode row id => ?_⟩
    simp [PartitionTable.addSets, WholeSet.SomeReads]
  | cons set rest ih =>
    obtain ⟨hfirst, hrest⟩ := List.pairwise_cons.mp hapart
    have hset := hproper set List.mem_cons_self
    have hstep : (table.addShares set.mode set.rows (prefixes.split size set.ids)).Sound
        prefixes :=
      h.addSplit hset.ascending hset.rows_ne_nil hset.vids_nodup
        (hfresh set List.mem_cons_self)
    have hlater : ∀ other ∈ rest, ∀ row ∈ other.rows,
        (table.addShares set.mode set.rows (prefixes.split size set.ids)).holds row.vid =
          false := by
      intro other hother row hrow
      rw [Bool.eq_false_iff]
      intro hheld
      rcases (holds_addSplit hset.ids_ne_nil).mp hheld with hold | ⟨row', hrow', hvid⟩
      · rw [hfresh other (List.mem_cons_of_mem _ hother) row hrow] at hold
        exact absurd hold (by decide)
      · exact hfirst other hother row' hrow' row hrow hvid
    obtain ⟨hsound, hreads⟩ := ih hstep
      (fun other hother => hproper other (List.mem_cons_of_mem _ hother)) hrest hlater
    rw [addSets_cons]
    refine ⟨hsound, fun mode row id => (hreads mode row id).trans ?_⟩
    rw [reads_addSplit hset.ascending, or_assoc]
    refine or_congr_right ?_
    simp only [WholeSet.SomeReads, List.mem_cons, exists_eq_or_imp]
    refine or_congr_left ?_
    exact and_congr_left' eq_comm

/-- Regrouping a sound table gives a sound table that reads the same. -/
theorem Sound.regroup (h : table.Sound prefixes) (hmerge : table.merge? prefixes = some sets) :
    (ofWholeSets prefixes' size sets).Sound prefixes' ∧
      ∀ mode row id,
        (ofWholeSets prefixes' size sets).Reads mode row id ↔ table.Reads mode row id := by
  obtain ⟨hproper, hapart, hreads⟩ := h.merge hmerge
  obtain ⟨hsound, hsame⟩ : (ofWholeSets prefixes' size sets).Sound prefixes' ∧
      ∀ mode row id, (ofWholeSets prefixes' size sets).Reads mode row id ↔
        (∅ : PartitionTable family).Reads mode row id ∨ WholeSet.SomeReads sets mode row id :=
    (Sound.empty prefixes').addSets hproper hapart fun _ _ _ _ => rfl
  refine ⟨hsound, fun mode row id => (hsame mode row id).trans ?_⟩
  rw [hreads]
  refine or_iff_right ?_
  rintro ⟨key, -, hrow, -⟩
  simp at hrow

end PartitionTable

end CounterPolling
