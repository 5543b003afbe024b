import CounterPolling.Proofs.Chunking.Items
import CounterPolling.Proofs.Partition.Regrouping

/-!
# Chunk sizes of partitions

A partition follows a prefix configuration if dividing its counters anew gives the partition's
own name and chunk size. A partition with the default name follows if it has the default size,
and any other if the configuration has its size under its name. Main statements:
`Fits.follows_iff_of_default`, `Fits.sizeNamed?_of_named` and `FiledWith.regroup`.
-/

namespace CounterPolling

variable {family : CounterFamily}

/-- Counters of one class are one share. -/
theorem PrefixConfig.split_of_one_class {config : PrefixConfig} {ids : List (CounterId family)}
    {c : Option Nat} (hasc : CounterId.Ascending ids) (hne : ids ≠ [])
    (hclass : ∀ id ∈ ids, config.classOf id = c) (size : Nat) :
    config.split size ids = [⟨config.className c, config.classSize size c, ids⟩] := by
  have hshare : ∀ share ∈ config.split size ids,
      share = ⟨config.className c, config.classSize size c, ids⟩ := by
    intro share hshare
    obtain ⟨id, hid, rfl⟩ := (mem_split_iff hasc).mp hshare
    have hall : (ids.filter fun other => config.classOf other = config.classOf id) = ids :=
      List.filter_eq_self.mpr fun other hother => by simp [hclass other hother, hclass id hid]
    rw [hall, hclass id hid]
  have hnodup : ((config.split size ids).map Share.ids).Nodup := split_ids_nodup
  obtain ⟨first, rest, hsplit⟩ := List.exists_cons_of_ne_nil (split_ne_nil hne)
  rw [hsplit] at hshare hnodup ⊢
  obtain ⟨hfirst, hrest⟩ := List.forall_mem_cons.mp hshare
  have hnone : rest = [] := by
    refine List.eq_nil_iff_forall_not_mem.mpr fun other hother => ?_
    apply (List.nodup_cons.mp hnodup).1
    rw [hfirst, ← hrest other hother]
    exact List.mem_map_of_mem hother
  rw [hfirst, hnone]

namespace Partition

variable {prefixes : PrefixConfig} {key : PartitionKey family} {p : Partition family} {size : Nat}

/-- Dividing the counters of the partition anew gives its own name and chunk size. -/
def Follows (prefixes : PrefixConfig) (defaultSize : Nat) (p : Partition family) : Prop :=
  prefixes.split defaultSize p.ids = [⟨p.name, p.chunkSize, p.ids⟩]

instance (prefixes : PrefixConfig) (defaultSize : Nat) (p : Partition family) :
    Decidable (p.Follows prefixes defaultSize) :=
  inferInstanceAs (Decidable (_ = _))

/-- The counters of a rightly filed partition make one share, with the partition's name. -/
theorem Fits.split_eq (h : p.Fits prefixes key) :
    ∃ c, p.name = prefixes.className c ∧ (∃ id ∈ p.ids, prefixes.classOf id = c) ∧
      ∀ size, prefixes.split size p.ids = [⟨p.name, prefixes.classSize size c, p.ids⟩] := by
  obtain ⟨c, hname, hclass⟩ := h.one_class
  obtain ⟨id, hid⟩ := h.exists_mem_ids
  rw [h.ids_eq] at hid ⊢
  refine ⟨c, hname, ⟨id, hid, hclass id hid⟩, fun size => ?_⟩
  rw [hname]
  exact PrefixConfig.split_of_one_class h.ascending h.ids_ne_nil hclass size

/-- A partition with the default name follows if it has the default size. -/
theorem Fits.follows_iff_of_default (h : p.Fits prefixes key) (hname : p.name = defaultShare) :
    p.Follows prefixes size ↔ p.chunkSize = size := by
  obtain ⟨c, hclassName, ⟨id, hid, hclass⟩, hsplit⟩ := h.split_eq
  have hnone : c = none :=
    (PrefixConfig.className_eq_default_iff hclass).mp (hclassName.symm.trans hname)
  subst hnone
  rw [Follows, hsplit]
  simp [PrefixConfig.classSize, eq_comm]

/-- The configuration has a size under every other name, and a partition follows if it is its. -/
theorem Fits.sizeNamed?_of_named (h : p.Fits prefixes key)
    (hplain : ∀ item ∈ prefixes.items, item.Plain) (hname : p.name ≠ defaultShare) :
    ∃ named, prefixes.sizeNamed? p.name = some named ∧
      ∀ size, p.Follows prefixes size ↔ p.chunkSize = named := by
  obtain ⟨c, hclassName, ⟨id, hid, hclass⟩, hsplit⟩ := h.split_eq
  cases c with
  | none => exact absurd hclassName hname
  | some i =>
    refine ⟨prefixes.classSize 0 (some i), ?_, fun size => ?_⟩
    · rw [hclassName]
      exact PrefixConfig.sizeNamed?_className hplain hclass 0
    · have hsize : prefixes.classSize size (some i) = prefixes.classSize 0 (some i) := by
        have hsome := PrefixConfig.sizeNamed?_className hplain hclass size
        rw [PrefixConfig.sizeNamed?_className hplain hclass 0] at hsome
        exact (Option.some.inj hsome).symm
      rw [Follows, hsplit, hsize]
      simp [eq_comm]

/-- The partition that is made for a share of a counter set follows. -/
theorem follows_of_mem_split {ids : List (CounterId family)} (hasc : CounterId.Ascending ids)
    {share : Share family} (hshare : share ∈ prefixes.split size ids) (rows : List Row) :
    (⟨share.name, share.chunkSize, share.ids, rows⟩ : Partition family).Follows prefixes size := by
  obtain ⟨id, hid, rfl⟩ := (PrefixConfig.mem_split_iff hasc).mp hshare
  refine PrefixConfig.split_of_one_class (hasc.filter _) ?_ (fun other hother => ?_) size
  · exact List.ne_nil_of_mem (List.mem_filter.mpr ⟨hid, by simp⟩)
  · simpa using (List.mem_filter.mp hother).2

end Partition

namespace PartitionTable

variable {prefixes prefixes' : PrefixConfig} {table : PartitionTable family}
  {P Q : Partition family → Prop} {size : Nat} {sets : List (WholeSet family)}

theorem FiledWith.mono (h : table.FiledWith prefixes P) (hPQ : ∀ p, P p → Q p) :
    table.FiledWith prefixes Q :=
  fun key p hp => ⟨(h key p hp).1, hPQ p (h key p hp).2⟩

theorem filedWith_empty (prefixes : PrefixConfig) (P : Partition family → Prop) :
    (∅ : PartitionTable family).FiledWith prefixes P :=
  fun key p hp => by simp at hp

theorem FiledWith.remove (h : table.FiledWith prefixes P)
    (hP : ∀ p rows, P p → P { p with rows }) (vid : ObjectId) :
    (table.remove vid).FiledWith prefixes P := by
  intro key p hp
  rw [get?_remove, Option.filter_eq_some_iff, Option.map_eq_some_iff] at hp
  obtain ⟨⟨q, hq, rfl⟩, hne⟩ := hp
  obtain ⟨hfits, hPq⟩ := h key q hq
  exact ⟨hfits.remove (by simpa using hne), hP q _ hPq⟩

/-- A counter set may be added if what follows has the property. -/
theorem FiledWith.addSplit (h : table.FiledWith prefixes P)
    (hP : ∀ p rows, P p → P { p with rows }) (hnew : ∀ p, p.Follows prefixes size → P p)
    {mode : Option ReadMode} {rows : List Row} (hrows : rows ≠ []) {ids : List (CounterId family)}
    (hasc : CounterId.Ascending ids) :
    (table.addShares mode rows (prefixes.split size ids)).FiledWith prefixes P :=
  h.addShares hP hrows fun _ hshare =>
    ⟨Partition.fits_of_mem_split hasc hshare mode hrows,
      hnew _ (Partition.follows_of_mem_split hasc hshare rows)⟩

/-- The merged sets of rightly filed partitions have rows and ascending counters. -/
theorem FiledWith.merge (h : table.FiledWith prefixes P)
    (hmerge : table.merge? prefixes = some sets) :
    ∀ set ∈ sets, set.rows ≠ [] ∧ CounterId.Ascending set.ids := by
  unfold merge? at hmerge
  split at hmerge
  · cases hmerge
    intro set hset
    obtain ⟨key, p, hp, rfl⟩ := mem_wholeSets.mp hset
    exact ⟨(h key p hp).1.rows_ne_nil, (h key p hp).1.ascending⟩
  · cases hentries : table.entries with
    | nil =>
      rw [union?, hentries] at hmerge
      cases hmerge
      exact fun set hset => absurd hset List.not_mem_nil
    | cons first rest =>
      obtain ⟨-, rfl⟩ := (union?_eq_some_iff hentries).mp hmerge
      have hfirst : table.get? first.1 = some first.2 :=
        SortedMap.get?_eq_some_iff.mpr (hentries ▸ List.mem_cons_self)
      intro set hset
      rw [List.mem_singleton.mp hset]
      exact ⟨(h _ _ hfirst).1.rows_ne_nil, CounterId.ascending_toList _⟩

/-- Dividing the merged sets anew makes every partition follow. -/
theorem FiledWith.regroup (h : table.FiledWith prefixes P)
    (hmerge : table.merge? prefixes = some sets) (prefixes' : PrefixConfig) (size : Nat) :
    (ofWholeSets prefixes' size sets).FiledWith prefixes' (Partition.Follows prefixes' size) := by
  have hadd : ∀ (sets : List (WholeSet family)) (table : PartitionTable family),
      (∀ set ∈ sets, set.rows ≠ [] ∧ CounterId.Ascending set.ids) →
      table.FiledWith prefixes' (Partition.Follows prefixes' size) →
      (table.addSets prefixes' size sets).FiledWith prefixes'
        (Partition.Follows prefixes' size) := by
    intro sets
    induction sets with
    | nil => exact fun table _ htable => htable
    | cons set rest ih =>
      intro table hsets htable
      obtain ⟨⟨hrows, hasc⟩, hrest⟩ := List.forall_mem_cons.mp hsets
      rw [addSets_cons]
      exact ih _ hrest (htable.addSplit (fun _ _ hp => hp) (fun _ hp => hp) hrows hasc)
  exact hadd sets ∅ (h.merge hmerge) (filedWith_empty _ _)

end PartitionTable

end CounterPolling
