import CounterPolling.Proofs.Chunking.Classes
import CounterPolling.Proofs.Counter.Names
import CounterPolling.Proofs.Partition.Rows

/-!
# Sound tables

A table is sound under a prefix configuration if each partition stands for one class of
counters and each object stands, with one row in one mode, in at most one partition of a
class. Main statements: `Sound.addShares`, `Sound.remove` and `Sound.resize` keep a table
sound, and adding a counter set for fresh objects adds what is read for them.
-/

namespace CounterPolling

variable {family : CounterFamily}

/-- A partition is rightly filed: it has rows, its counters are those of its key, ascending
and of one class, and it has the name of that class. -/
structure Partition.Fits (prefixes : PrefixConfig) (key : PartitionKey family)
    (p : Partition family) : Prop where
  rows_ne_nil : p.rows ≠ []
  ids_eq : p.ids = key.ids
  ids_ne_nil : key.ids ≠ []
  ascending : CounterId.Ascending key.ids
  one_class : ∃ c, p.name = prefixes.className c ∧ ∀ id ∈ key.ids, prefixes.classOf id = c

theorem Partition.Fits.exists_mem_ids {prefixes : PrefixConfig} {key : PartitionKey family}
    {p : Partition family} (h : p.Fits prefixes key) : ∃ id, id ∈ p.ids := by
  rw [h.ids_eq]
  exact List.exists_mem_of_ne_nil _ h.ids_ne_nil

/-- A partition that has rows left stays rightly filed without an object. -/
theorem Partition.Fits.remove {prefixes : PrefixConfig} {key : PartitionKey family}
    {p : Partition family} (h : p.Fits prefixes key) {vid : ObjectId}
    (hrows : ¬ (p.remove vid).isEmpty = true) : (p.remove vid).Fits prefixes key :=
  ⟨fun hnil => hrows (List.isEmpty_iff.mpr hnil), h.ids_eq, h.ids_ne_nil, h.ascending, h.one_class⟩

/-- A partition stays rightly filed with a new size, and under prefixes that divide alike. -/
theorem Partition.Fits.withChunkSize {prefixes prefixes' : PrefixConfig}
    {key : PartitionKey family} {p : Partition family} (h : p.Fits prefixes key)
    (halike : PrefixConfig.DivideAlike prefixes prefixes') (size : Nat) :
    (p.withChunkSize size).Fits prefixes' key := by
  refine ⟨h.rows_ne_nil, h.ids_eq, h.ids_ne_nil, h.ascending, ?_⟩
  obtain ⟨c, hname, hclass⟩ := h.one_class
  refine ⟨c, hname.trans (halike.className_eq c), fun id hid => ?_⟩
  rw [← halike.classOf_eq]
  exact hclass id hid

/-- The partition that is made for a share of a counter set is rightly filed. -/
theorem Partition.fits_of_mem_split {prefixes : PrefixConfig} {size : Nat}
    {ids : List (CounterId family)} (hasc : CounterId.Ascending ids) {share : Share family}
    (hshare : share ∈ prefixes.split size ids) (mode : Option ReadMode) {rows : List Row}
    (hrows : rows ≠ []) :
    (⟨share.name, share.chunkSize, share.ids, rows⟩ : Partition family).Fits prefixes
      ⟨mode, share.ids⟩ := by
  obtain ⟨id, hid, rfl⟩ := (PrefixConfig.mem_split_iff hasc).mp hshare
  refine ⟨hrows, rfl, ?_, hasc.filter _, prefixes.classOf id, rfl, ?_⟩
  · exact List.ne_nil_of_mem (List.mem_filter.mpr ⟨hid, by simp⟩)
  · intro other hother
    simpa using (List.mem_filter.mp hother).2

/-- A partition with the name of unmatched counters has no matched ones. -/
theorem Partition.Fits.classOf_eq_none {prefixes : PrefixConfig} {key : PartitionKey family}
    {p : Partition family} (h : p.Fits prefixes key) (hname : p.name = defaultShare) :
    ∀ id ∈ p.ids, prefixes.classOf id = none := by
  intro id hid
  obtain ⟨c, hc, hclass⟩ := h.one_class
  rw [h.ids_eq] at hid
  have hmem := hclass id hid
  rwa [(PrefixConfig.className_eq_default_iff hmem).mp (hc ▸ hname)] at hmem

namespace PartitionTable

/-- Every partition is rightly filed and has a property. -/
def FiledWith (prefixes : PrefixConfig) (P : Partition family → Prop)
    (table : PartitionTable family) : Prop :=
  ∀ key p, table.get? key = some p → p.Fits prefixes key ∧ P p

/-- Every partition is rightly filed, and each object has one row in one mode, at most once
in a partition and in at most one partition of a class. -/
structure Sound (prefixes : PrefixConfig) (table : PartitionTable family) : Prop where
  fits : ∀ {key p}, table.get? key = some p → p.Fits prefixes key
  vids_nodup : ∀ key, ((table.rowsAt key).map Row.vid).Nodup
  same_row : ∀ {key key' row row'}, row ∈ table.rowsAt key → row' ∈ table.rowsAt key' →
    row.vid = row'.vid → row = row' ∧ key.mode = key'.mode
  key_eq : ∀ {key key' row row' id id'}, row ∈ table.rowsAt key → row' ∈ table.rowsAt key' →
    row.vid = row'.vid → id ∈ key.ids → id' ∈ key'.ids →
    prefixes.classOf id = prefixes.classOf id' → key = key'

namespace Sound

variable {prefixes prefixes' : PrefixConfig} {table : PartitionTable family}

theorem empty (prefixes : PrefixConfig) : (∅ : PartitionTable family).Sound prefixes where
  fits h := by simp at h
  vids_nodup key := by simp
  same_row h := by simp at h
  key_eq h := by simp at h

theorem fits_of_mem (h : table.Sound prefixes) {key : PartitionKey family} {row : Row}
    (hrow : row ∈ table.rowsAt key) : ∃ p, table.get? key = some p ∧ p.Fits prefixes key := by
  obtain ⟨p, hp, -⟩ := mem_rowsAt.mp hrow
  have hget := SortedMap.get?_eq_some_iff.mpr hp
  exact ⟨p, hget, h.fits hget⟩

/-- Each object held is read for some counter. -/
theorem holds_iff_reads (h : table.Sound prefixes) {vid : ObjectId} :
    table.holds vid = true ↔ ∃ mode row id, table.Reads mode row id ∧ row.vid = vid := by
  rw [holds_iff]
  constructor
  · rintro ⟨key, row, hrow, hvid⟩
    obtain ⟨p, -, hfits⟩ := h.fits_of_mem hrow
    obtain ⟨id, hid⟩ := List.exists_mem_of_ne_nil _ hfits.ids_ne_nil
    exact ⟨key.mode, row, id, ⟨key, rfl, hrow, hid⟩, hvid⟩
  · rintro ⟨mode, row, id, ⟨key, -, hrow, -⟩, hvid⟩
    exact ⟨key, row, hrow, hvid⟩

section Partitions

variable {key key' : PartitionKey family} {p p' : Partition family} {row row' : Row}

/-- Two partitions that hold an object and read counters of a common class are one partition. -/
theorem key_eq_of_classOf (h : table.Sound prefixes) (hp : table.get? key = some p)
    (hp' : table.get? key' = some p') (hrow : row ∈ p.rows) (hrow' : row' ∈ p'.rows)
    (hvid : row.vid = row'.vid) {id id' : CounterId family} (hid : id ∈ p.ids)
    (hid' : id' ∈ p'.ids) (hclass : prefixes.classOf id = prefixes.classOf id') : key = key' := by
  rw [(h.fits hp).ids_eq] at hid
  rw [(h.fits hp').ids_eq] at hid'
  rw [← rowsAt_eq hp] at hrow
  rw [← rowsAt_eq hp'] at hrow'
  exact h.key_eq hrow hrow' hvid hid hid' hclass

/-- Partitions that hold a common object agree on its mode and its row, and share no counter, no
class and no default name. -/
theorem of_common_object (h : table.Sound prefixes) (hp : table.get? key = some p)
    (hp' : table.get? key' = some p') (hrow : row ∈ p.rows) (hrow' : row' ∈ p'.rows)
    (hvid : row.vid = row'.vid) :
    key.mode = key'.mode ∧ row.key = row'.key ∧
      (key ≠ key' → ∀ id ∈ p.ids, ∀ id' ∈ p'.ids,
        id ≠ id' ∧ prefixes.classOf id ≠ prefixes.classOf id') ∧
      (p.name = defaultShare → p'.name = defaultShare → key = key') := by
  have hsame := h.same_row ((rowsAt_eq hp).symm ▸ hrow) ((rowsAt_eq hp').symm ▸ hrow') hvid
  refine ⟨hsame.2, congrArg Row.key hsame.1, ?_, ?_⟩
  · intro hkey id hid id' hid'
    constructor
    · rintro rfl
      exact hkey (h.key_eq_of_classOf hp hp' hrow hrow' hvid hid hid' rfl)
    · intro hclass
      exact hkey (h.key_eq_of_classOf hp hp' hrow hrow' hvid hid hid' hclass)
  · intro hname hname'
    obtain ⟨id, hid⟩ := (h.fits hp).exists_mem_ids
    obtain ⟨id', hid'⟩ := (h.fits hp').exists_mem_ids
    have hnone := (h.fits hp).classOf_eq_none hname id hid
    have hnone' := (h.fits hp').classOf_eq_none hname' id' hid'
    exact h.key_eq_of_classOf hp hp' hrow hrow' hvid hid hid' (hnone.trans hnone'.symm)

/-- Without prefixes an object has rows under a single key. -/
theorem key_eq_of_isEmpty (h : table.Sound prefixes) (hempty : prefixes.isEmpty = true)
    (hrow : row ∈ table.rowsAt key) (hrow' : row' ∈ table.rowsAt key')
    (hvid : row.vid = row'.vid) : key = key' := by
  obtain ⟨p, -, hfits⟩ := h.fits_of_mem hrow
  obtain ⟨p', -, hfits'⟩ := h.fits_of_mem hrow'
  obtain ⟨id, hid⟩ := List.exists_mem_of_ne_nil _ hfits.ids_ne_nil
  obtain ⟨id', hid'⟩ := List.exists_mem_of_ne_nil _ hfits'.ids_ne_nil
  have hclass : prefixes.classOf id = prefixes.classOf id' := by
    rw [PrefixConfig.classOf_of_isEmpty hempty, PrefixConfig.classOf_of_isEmpty hempty]
  exact h.key_eq hrow hrow' hvid hid hid' hclass

/-- Without prefixes the counters read for a row are those of the partition that it stands in. -/
theorem reads_iff_of_isEmpty (h : table.Sound prefixes) (hempty : prefixes.isEmpty = true)
    (hrow : row ∈ table.rowsAt key) {mode : Option ReadMode} {id : CounterId family} :
    table.Reads mode row id ↔ mode = key.mode ∧ id ∈ key.ids := by
  constructor
  · rintro ⟨key', rfl, hrow', hid⟩
    obtain rfl := h.key_eq_of_isEmpty hempty hrow' hrow rfl
    exact ⟨rfl, hid⟩
  · rintro ⟨rfl, hid⟩
    exact ⟨key, rfl, hrow, hid⟩

/-- Without prefixes an object stands in a single partition. -/
theorem existsUnique_of_isEmpty (h : table.Sound prefixes) (hempty : prefixes.isEmpty = true)
    {vid : ObjectId} (hheld : table.holds vid = true) :
    ∃! key, ∃ p, table.get? key = some p ∧ p.holds vid = true := by
  obtain ⟨key, row, hrow, hvid⟩ := holds_iff.mp hheld
  obtain ⟨p, hp, -⟩ := h.fits_of_mem hrow
  have hmember := hrow
  rw [rowsAt_eq hp] at hmember
  refine ⟨key, ⟨p, hp, List.any_eq_true.mpr ⟨row, hmember, by simpa using hvid⟩⟩, ?_⟩
  rintro key' ⟨p', hp', hheld'⟩
  obtain ⟨row', hrow', hvid'⟩ := List.any_eq_true.mp hheld'
  rw [← rowsAt_eq hp'] at hrow'
  exact h.key_eq_of_isEmpty hempty hrow' hrow (by rw [hvid, beq_iff_eq.mp hvid'])

end Partitions

theorem remove (h : table.Sound prefixes) (vid : ObjectId) :
    (table.remove vid).Sound prefixes where
  fits := by
    intro key p hp
    rw [get?_remove, Option.filter_eq_some_iff, Option.map_eq_some_iff] at hp
    obtain ⟨⟨p', hp', rfl⟩, hne⟩ := hp
    exact (h.fits hp').remove (by simpa using hne)
  vids_nodup key := by
    rw [rowsAt_remove]
    exact (h.vids_nodup key).sublist (List.filter_sublist.map Row.vid)
  same_row hrow hrow' := by
    rw [rowsAt_remove] at hrow hrow'
    exact h.same_row (List.mem_filter.mp hrow).1 (List.mem_filter.mp hrow').1
  key_eq hrow hrow' := by
    rw [rowsAt_remove] at hrow hrow'
    exact h.key_eq (List.mem_filter.mp hrow).1 (List.mem_filter.mp hrow').1

/-- New chunk sizes, and prefixes that divide alike, keep a table sound. -/
theorem resize (h : table.Sound prefixes) (halike : PrefixConfig.DivideAlike prefixes prefixes')
    (sizeOf? : String → Option Nat) : (table.resize sizeOf?).Sound prefixes' where
  fits := by
    intro key p hp
    rw [get?_resize, Option.map_eq_some_iff] at hp
    obtain ⟨p', hp', rfl⟩ := hp
    exact (h.fits hp').withChunkSize halike _
  vids_nodup key := by
    rw [rowsAt_resize]
    exact h.vids_nodup key
  same_row hrow hrow' := by
    rw [rowsAt_resize] at hrow hrow'
    exact h.same_row hrow hrow'
  key_eq hrow hrow' := by
    rw [rowsAt_resize] at hrow hrow'
    rw [← halike.classOf_eq, ← halike.classOf_eq]
    exact h.key_eq hrow hrow'

end Sound

section Shares

variable {prefixes : PrefixConfig} {table : PartitionTable family} {mode : Option ReadMode}
  {rows : List Row} {ids : List (CounterId family)} {size : Nat}

/-- The rows under a key after a counter set was added. -/
theorem mem_rowsAt_addSplit {key : PartitionKey family} {row : Row} :
    row ∈ (table.addShares mode rows (prefixes.split size ids)).rowsAt key ↔
      row ∈ table.rowsAt key ∨
        (key.mode = mode ∧ key.ids ∈ (prefixes.split size ids).map Share.ids ∧ row ∈ rows) := by
  rw [rowsAt_addShares PrefixConfig.split_ids_nodup, List.mem_append]
  by_cases h : key.mode = mode ∧ key.ids ∈ (prefixes.split size ids).map Share.ids
  · rw [if_pos h]
    exact ⟨fun hrow => hrow.imp id fun hr => ⟨h.1, h.2, hr⟩,
      fun hrow => hrow.imp id fun hr => hr.2.2⟩
  · rw [if_neg h]
    constructor
    · rintro (hrow | hrow)
      · exact .inl hrow
      · exact absurd hrow List.not_mem_nil
    · rintro (hrow | ⟨hmode, hids, -⟩)
      · exact .inl hrow
      · exact absurd ⟨hmode, hids⟩ h

/-- Adding a counter set for rows makes their objects held. -/
theorem holds_addSplit (hids : ids ≠ []) {vid : ObjectId} :
    (table.addShares mode rows (prefixes.split size ids)).holds vid = true ↔
      table.holds vid = true ∨ ∃ row ∈ rows, row.vid = vid := by
  simp only [holds_iff, mem_rowsAt_addSplit]
  constructor
  · rintro ⟨key, row, hrow | ⟨-, -, hrow⟩, hvid⟩
    · exact .inl ⟨key, row, hrow, hvid⟩
    · exact .inr ⟨row, hrow, hvid⟩
  · rintro (⟨key, row, hrow, hvid⟩ | ⟨row, hrow, hvid⟩)
    · exact ⟨key, row, .inl hrow, hvid⟩
    · obtain ⟨share, hshare⟩ : ∃ share, share ∈ prefixes.split size ids :=
        List.exists_mem_of_ne_nil _ (PrefixConfig.split_ne_nil hids)
      exact ⟨⟨mode, share.ids⟩, row, .inr ⟨rfl, List.mem_map_of_mem hshare, hrow⟩, hvid⟩

/-- Adding a counter set for rows makes its counters read for them. -/
theorem reads_addSplit (hasc : CounterId.Ascending ids) {m : Option ReadMode} {row : Row}
    {id : CounterId family} :
    (table.addShares mode rows (prefixes.split size ids)).Reads m row id ↔
      table.Reads m row id ∨ (m = mode ∧ row ∈ rows ∧ id ∈ ids) := by
  unfold Reads
  simp only [mem_rowsAt_addSplit]
  constructor
  · rintro ⟨key, hkey, hrow | ⟨hmode, hids, hrow⟩, hid⟩
    · exact .inl ⟨key, hkey, hrow, hid⟩
    · obtain ⟨share, hshare, heq⟩ := List.mem_map.mp hids
      rw [← heq] at hid
      exact .inr ⟨hkey.symm.trans hmode, hrow,
        (PrefixConfig.exists_mem_split_iff hasc).mp ⟨share, hshare, hid⟩⟩
  · rintro (⟨key, hkey, hrow, hid⟩ | ⟨rfl, hrow, hid⟩)
    · exact ⟨key, hkey, .inl hrow, hid⟩
    · obtain ⟨share, hshare, hmem⟩ : ∃ share ∈ prefixes.split size ids, id ∈ share.ids :=
        (PrefixConfig.exists_mem_split_iff hasc).mpr hid
      exact ⟨⟨m, share.ids⟩, rfl, .inr ⟨rfl, List.mem_map_of_mem hshare, hrow⟩, hmem⟩

/-- Every partition stays rightly filed while shares are added, and keeps a property that has
nothing to do with its rows if the partitions made for the shares have it. -/
theorem FiledWith.addShares {P : Partition family → Prop} {shares : List (Share family)}
    (h : table.FiledWith prefixes P) (hP : ∀ p rows, P p → P { p with rows }) (hrows : rows ≠ [])
    (hshares : ∀ share ∈ shares,
      (⟨share.name, share.chunkSize, share.ids, rows⟩ : Partition family).Fits prefixes
        ⟨mode, share.ids⟩ ∧ P ⟨share.name, share.chunkSize, share.ids, rows⟩) :
    (table.addShares mode rows shares).FiledWith prefixes P := by
  induction shares generalizing table with
  | nil => exact h
  | cons share shares ih =>
    have hstep : (table.addShare mode rows share).FiledWith prefixes P := by
      intro key p hp
      rw [get?_addShare] at hp
      split at hp
      · next hkey =>
        subst hkey
        obtain ⟨hshare, hPshare⟩ := hshares share List.mem_cons_self
        cases hold : table.get? ⟨mode, share.ids⟩ with
        | none =>
          rw [hold] at hp
          cases hp
          exact ⟨⟨by simpa using hrows, hshare.ids_eq, hshare.ids_ne_nil, hshare.ascending,
            hshare.one_class⟩,
            hP ⟨share.name, share.chunkSize, share.ids, rows⟩ ([] ++ rows) hPshare⟩
        | some q =>
          rw [hold] at hp
          cases hp
          obtain ⟨hq, hPq⟩ := h _ _ hold
          exact ⟨⟨by simp [hrows], hq.ids_eq, hq.ids_ne_nil, hq.ascending, hq.one_class⟩,
            hP _ _ hPq⟩
      · exact h key p hp
    exact ih hstep fun s hs => hshares s (List.mem_cons_of_mem _ hs)

theorem ids_eq_of_mem_split (hasc : CounterId.Ascending ids) {members : List (CounterId family)}
    (h : members ∈ (prefixes.split size ids).map Share.ids) {id : CounterId family}
    (hid : id ∈ members) :
    members = ids.filter fun other => prefixes.classOf other = prefixes.classOf id := by
  obtain ⟨share, hshare, rfl⟩ := List.mem_map.mp h
  obtain ⟨first, -, rfl⟩ := (PrefixConfig.mem_split_iff hasc).mp hshare
  have hclass : prefixes.classOf id = prefixes.classOf first := by
    simpa using (List.mem_filter.mp hid).2
  simp only [hclass]

/-- A counter set may be added for rows of objects that are not held yet. -/
theorem Sound.addSplit (h : table.Sound prefixes) (hasc : CounterId.Ascending ids)
    (hrows : rows ≠ []) (hnodup : (rows.map Row.vid).Nodup)
    (hfresh : ∀ row ∈ rows, table.holds row.vid = false) :
    (table.addShares mode rows (prefixes.split size ids)).Sound prefixes := by
  have hapart : ∀ {key : PartitionKey family} {row row' : Row}, row ∈ table.rowsAt key →
      row' ∈ rows → row.vid ≠ row'.vid := by
    intro key row row' hrow hrow' hvid
    have hheld := holds_iff.mpr ⟨key, row, hrow, hvid⟩
    rw [hfresh row' hrow'] at hheld
    exact absurd hheld (by decide)
  constructor
  · intro key p hp
    have hfiled : table.FiledWith prefixes fun _ => True := fun _ _ hq => ⟨h.fits hq, trivial⟩
    exact (hfiled.addShares (fun _ _ _ => trivial) hrows (fun share hshare =>
      ⟨Partition.fits_of_mem_split hasc hshare mode hrows, trivial⟩) key p hp).1
  · intro key
    rw [rowsAt_addShares PrefixConfig.split_ids_nodup]
    split
    · rw [List.map_append, List.nodup_append]
      refine ⟨h.vids_nodup key, hnodup, ?_⟩
      intro vid hvid vid' hvid'
      obtain ⟨row, hrow, rfl⟩ := List.mem_map.mp hvid
      obtain ⟨row', hrow', rfl⟩ := List.mem_map.mp hvid'
      exact hapart hrow hrow'
    · rw [List.append_nil]
      exact h.vids_nodup key
  · intro key key' row row' hrow hrow' hvid
    rcases mem_rowsAt_addSplit.mp hrow with hold | ⟨hmode, -, hnew⟩ <;>
      rcases mem_rowsAt_addSplit.mp hrow' with hold' | ⟨hmode', -, hnew'⟩
    · exact h.same_row hold hold' hvid
    · exact absurd hvid (hapart hold hnew')
    · exact absurd hvid.symm (hapart hold' hnew)
    · exact ⟨List.inj_on_of_nodup_map hnodup hnew hnew' hvid, hmode.trans hmode'.symm⟩
  · intro key key' row row' id id' hrow hrow' hvid hid hid' hclass
    rcases mem_rowsAt_addSplit.mp hrow with hold | ⟨hmode, hmem, hnew⟩ <;>
      rcases mem_rowsAt_addSplit.mp hrow' with hold' | ⟨hmode', hmem', hnew'⟩
    · exact h.key_eq hold hold' hvid hid hid' hclass
    · exact absurd hvid (hapart hold hnew')
    · exact absurd hvid.symm (hapart hold' hnew)
    · have hids := ids_eq_of_mem_split hasc hmem hid
      have hids' := ids_eq_of_mem_split hasc hmem' hid'
      rw [← hclass] at hids'
      obtain ⟨m, members⟩ := key
      obtain ⟨m', members'⟩ := key'
      exact congrArg₂ PartitionKey.mk (hmode.trans hmode'.symm) (hids.trans hids'.symm)

end Shares

end PartitionTable

end CounterPolling
