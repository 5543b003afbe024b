import CounterPolling.Chunking.Split
import CounterPolling.Proofs.Data.Membership
import Mathlib.Data.List.Sort
import Mathlib.Data.List.Range

/-!
# Classes of counters

A prefix configuration puts each counter in a class: the position of the first item that
covers it, or no position if none does. The shares of a counter list are its classes, in
the order of the items, without those that have no member. Main statement: `split_eq`.
-/

namespace CounterPolling

namespace CounterId

variable {family : CounterFamily}

/-- Ids in strictly ascending order of number. -/
def Ascending (ids : List (CounterId family)) : Prop :=
  ids.Pairwise fun a b => a.raw < b.raw

/-- Sorting is insertion sort by number. -/
theorem sort_eq_insertionSort (ids : List (CounterId family)) :
    sort ids = ids.insertionSort fun a b => a.raw ≤ b.raw := by
  have hinsert : ∀ (id : CounterId family) (rest : List (CounterId family)),
      insertAscending id rest = rest.orderedInsert (fun a b => a.raw ≤ b.raw) id := by
    intro id rest
    induction rest with
    | nil => rfl
    | cons head rest ih => simp [insertAscending, ih]
  induction ids with
  | nil => rfl
  | cons id rest ih =>
    rw [List.insertionSort_cons, ← ih, ← hinsert]
    rfl

@[simp]
theorem mem_sort {ids : List (CounterId family)} {id : CounterId family} :
    id ∈ sort ids ↔ id ∈ ids := by
  rw [sort_eq_insertionSort]
  exact List.mem_insertionSort _

namespace Ascending

variable {ids : List (CounterId family)}

/-- An ascending list is sorted as it stands. -/
theorem sort_eq (h : Ascending ids) : sort ids = ids := by
  rw [sort_eq_insertionSort]
  exact List.Pairwise.insertionSort_eq (h.imp fun hab => Int.le_of_lt hab)

theorem filter (h : Ascending ids) (keep : CounterId family → Bool) :
    Ascending (ids.filter keep) :=
  List.Pairwise.filter keep h

theorem nodup (h : Ascending ids) : ids.Nodup := by
  refine h.imp fun hab heq => ?_
  subst heq
  omega

/-- Ascending lists with the same members are the same list. -/
theorem ext {ids' : List (CounterId family)} (h : Ascending ids)
    (h' : Ascending ids') (hmem : ∀ id, id ∈ ids ↔ id ∈ ids') : ids = ids' := by
  have hperm : ids.Perm ids' := (List.perm_ext_iff_of_nodup h.nodup h'.nodup).mpr hmem
  refine hperm.eq_of_pairwise (fun a b _ _ hab hba => ?_) h h'
  exact absurd (hab.trans hba) (lt_irrefl _)

end Ascending

/-- The members of a sorted set of ids ascend. -/
theorem ascending_toList (s : SortedSet (CounterId family)) : Ascending s.toList := by
  refine s.toList_ascend.imp fun {a b} hab => ?_
  exact Int.compare_eq_lt.mp hab

end CounterId

namespace PrefixConfig

variable {family : CounterFamily}

/-- The position of the first item that covers a counter, if one does. -/
def classOf (config : PrefixConfig) (id : CounterId family) : Option Nat :=
  (config.firstCovering id.name).map Prod.fst

/-- The classes in the order of their shares. -/
def classes (config : PrefixConfig) : List (Option Nat) :=
  (List.range config.items.length).map some ++ [none]

/-- The name of the share and of the partitions of a class. -/
def className (config : PrefixConfig) (c : Option Nat) : String :=
  ((c.bind (config.items[·]?)).map PrefixItem.name).getD defaultShare

/-- The chunk size of a class. -/
def classSize (config : PrefixConfig) (defaultSize : Nat) (c : Option Nat) : Nat :=
  ((c.bind (config.items[·]?)).map PrefixItem.chunkSize).getD defaultSize

/-- The position of the first of some items that covers a counter, counted from an offset. -/
private def position (offset : Nat) (items : List PrefixItem) (id : CounterId family) :
    Option Nat :=
  ((items.zipIdx offset).find? fun entry => entry.1.covers id.name).map Prod.snd

private theorem position_cons (offset : Nat) (item : PrefixItem) (items : List PrefixItem)
    (id : CounterId family) :
    position offset (item :: items) id =
      if item.covers id.name then some offset else position (offset + 1) items id := by
  by_cases h : item.covers id.name <;> simp [position, List.zipIdx_cons, h]

private theorem le_of_position {offset : Nat} {items : List PrefixItem}
    {id : CounterId family} {i : Nat} (h : position offset items id = some i) :
    offset ≤ i := by
  obtain ⟨entry, hentry, rfl⟩ := Option.map_eq_some_iff.mp h
  exact (List.mem_zipIdx (List.mem_of_find?_eq_some hentry)).1

theorem classOf_eq_position (config : PrefixConfig) (id : CounterId family) :
    config.classOf id = position 0 config.items id := by
  simp [classOf, firstCovering, position, Function.comp_def]

/-- The share of those counters whose position is the given one. -/
private def shareAt (defaultSize offset : Nat) (items : List PrefixItem)
    (ids : List (CounterId family)) (c : Option Nat) : List (Share family) :=
  let item := c.bind fun i => items[i - offset]?
  Share.ofIds ((item.map PrefixItem.name).getD defaultShare)
    ((item.map PrefixItem.chunkSize).getD defaultSize)
    (ids.filter fun id => position offset items id = c)

/-- Behind the first item the shares are those of the counters that it leaves. -/
private theorem shareAt_cons (defaultSize offset : Nat) (item : PrefixItem)
    (items : List PrefixItem) (ids : List (CounterId family)) {c : Option Nat}
    (hc : ∀ i, c = some i → offset + 1 ≤ i) :
    shareAt defaultSize offset (item :: items) ids c =
      shareAt defaultSize (offset + 1) items
        (ids.filter fun id => !item.covers id.name) c := by
  have hitem : (c.bind fun i => (item :: items)[i - offset]?) =
      c.bind fun i => items[i - (offset + 1)]? := by
    cases c with
    | none => rfl
    | some i =>
      have hi := hc i rfl
      have hsub : i - offset = (i - (offset + 1)) + 1 := by omega
      simp [hsub]
  have hids : (ids.filter fun id => decide (position offset (item :: items) id = c)) =
      (ids.filter fun id => !item.covers id.name).filter
        fun id => decide (position (offset + 1) items id = c) := by
    rw [List.filter_filter]
    refine List.filter_congr fun id _ => ?_
    by_cases h : item.covers id.name
    · have hne : ¬ some offset = c := by
        intro heq
        have := hc offset heq.symm
        omega
      simp [position_cons, h, hne]
    · simp [position_cons, h]
  simp only [shareAt, hitem, hids]

private theorem divide_eq (defaultSize offset : Nat) (items : List PrefixItem)
    (ids : List (CounterId family)) :
    Share.divide defaultSize items ids =
      ((List.range' offset items.length).map some ++ [none]).flatMap
        (shareAt defaultSize offset items ids) := by
  induction items generalizing offset ids with
  | nil => simp [Share.divide, shareAt, position]
  | cons item items ih =>
    have hhead : (ids.filter fun id => decide (position offset (item :: items) id = some offset)) =
        ids.filter fun id => item.covers id.name := by
      refine List.filter_congr fun id _ => ?_
      by_cases h : item.covers id.name
      · simp [position_cons, h]
      · have hne : ¬ position (offset + 1) items id = some offset := by
          intro heq
          have := le_of_position heq
          omega
        simp [position_cons, h, hne]
    have htail : ((List.range' (offset + 1) items.length).map some ++ [none]).flatMap
          (shareAt defaultSize offset (item :: items) ids) =
        ((List.range' (offset + 1) items.length).map some ++ [none]).flatMap
          (shareAt defaultSize (offset + 1) items
            (ids.filter fun id => !item.covers id.name)) := by
      refine List.flatMap_congr fun c hc => shareAt_cons _ _ _ _ _ fun i hi => ?_
      subst hi
      have hmem : i ∈ List.range' (offset + 1) items.length := by simpa using hc
      exact (List.mem_range'_1.mp hmem).1
    rw [List.length_cons, List.range'_succ, List.map_cons, List.cons_append,
      List.flatMap_cons, htail, ← ih]
    simp [Share.divide, shareAt, hhead]

/-- The shares of a counter list are its classes, in the order of the items. -/
theorem split_eq (config : PrefixConfig) (defaultSize : Nat)
    (ids : List (CounterId family)) :
    config.split defaultSize ids =
      config.classes.flatMap fun c =>
        Share.ofIds (config.className c) (config.classSize defaultSize c)
          (ids.filter fun id => config.classOf id = c) := by
  rw [split, divide_eq defaultSize 0, classes, List.range_eq_range']
  refine List.flatMap_congr fun c _ => ?_
  simp only [shareAt, className, classSize, classOf_eq_position, Nat.sub_zero]

theorem classOf_mem_classes (config : PrefixConfig) (id : CounterId family) :
    config.classOf id ∈ config.classes := by
  cases h : config.classOf id with
  | none => simp [classes]
  | some i =>
    obtain ⟨entry, hentry, rfl⟩ := Option.map_eq_some_iff.mp
      ((classOf_eq_position config id).symm.trans h)
    have hlt := (List.mem_zipIdx (List.mem_of_find?_eq_some hentry)).2.1
    simpa [classes] using hlt

theorem classes_nodup (config : PrefixConfig) : config.classes.Nodup := by
  unfold classes
  rw [List.nodup_append]
  refine ⟨List.nodup_range.map (Option.some_injective _), List.nodup_singleton _, ?_⟩
  intro a ha b hb
  obtain ⟨i, -, rfl⟩ := List.mem_map.mp ha
  rw [List.mem_singleton.mp hb]
  exact Option.some_ne_none i

private theorem mem_ofIds {name : String} {chunkSize : Nat} {ids : List (CounterId family)}
    {share : Share family} :
    share ∈ Share.ofIds name chunkSize ids ↔
      ids ≠ [] ∧ share = ⟨name, chunkSize, CounterId.sort ids⟩ := by
  cases ids <;> simp [Share.ofIds]

variable {config : PrefixConfig} {defaultSize : Nat} {ids : List (CounterId family)}

/-- The shares of an ascending list are the classes of its members. -/
theorem mem_split_iff (h : CounterId.Ascending ids) {share : Share family} :
    share ∈ config.split defaultSize ids ↔
      ∃ id ∈ ids, share =
        ⟨config.className (config.classOf id), config.classSize defaultSize (config.classOf id),
          ids.filter fun other => config.classOf other = config.classOf id⟩ := by
  rw [split_eq, List.mem_flatMap]
  constructor
  · rintro ⟨c, -, hshare⟩
    obtain ⟨hne, rfl⟩ := mem_ofIds.mp hshare
    obtain ⟨id, hid⟩ := List.exists_mem_of_ne_nil _ hne
    obtain ⟨hmem, hc⟩ := List.mem_filter.mp hid
    have hclass : config.classOf id = c := by simpa using hc
    subst hclass
    exact ⟨id, hmem, by rw [(h.filter _).sort_eq]⟩
  · rintro ⟨id, hid, rfl⟩
    refine ⟨config.classOf id, classOf_mem_classes config id, mem_ofIds.mpr ⟨?_, ?_⟩⟩
    · exact List.ne_nil_of_mem (List.mem_filter.mpr ⟨hid, by simp⟩)
    · rw [(h.filter _).sort_eq]

/-- Every counter stands in some share, and a share holds nothing else. -/
theorem exists_mem_split_iff (h : CounterId.Ascending ids) {id : CounterId family} :
    (∃ share ∈ config.split defaultSize ids, id ∈ share.ids) ↔ id ∈ ids := by
  constructor
  · rintro ⟨share, hshare, hid⟩
    obtain ⟨first, -, rfl⟩ := (mem_split_iff h).mp hshare
    exact (List.mem_filter.mp hid).1
  · intro hid
    refine ⟨_, (mem_split_iff h).mpr ⟨id, hid, rfl⟩, ?_⟩
    exact List.mem_filter.mpr ⟨hid, by simp⟩

theorem split_ne_nil (hne : ids ≠ []) : config.split defaultSize ids ≠ [] := by
  obtain ⟨id, hid⟩ := List.exists_mem_of_ne_nil _ hne
  have hmem : id ∈ ids.filter fun other => config.classOf other = config.classOf id :=
    List.mem_filter.mpr ⟨hid, by simp⟩
  intro hnil
  rw [split_eq, List.flatMap_eq_nil_iff] at hnil
  have hshare := hnil _ (classOf_mem_classes config id)
  exact List.not_mem_nil (hshare ▸ mem_ofIds.mpr ⟨List.ne_nil_of_mem hmem, rfl⟩)

/-- No two shares have the same counters. -/
theorem split_ids_nodup : ((config.split defaultSize ids).map Share.ids).Nodup := by
  rw [split_eq, List.map_flatMap]
  refine List.nodup_flatMap.mpr ⟨fun c _ => ?_, ?_⟩
  · cases ids.filter fun id => config.classOf id = c <;> simp [Share.ofIds]
  · refine (classes_nodup config).imp fun {c c'} hne => ?_
    intro members hc hc'
    obtain ⟨share, hshare, rfl⟩ := List.mem_map.mp hc
    obtain ⟨share', hshare', heq⟩ := List.mem_map.mp hc'
    obtain ⟨hids, rfl⟩ := mem_ofIds.mp hshare
    obtain ⟨-, rfl⟩ := mem_ofIds.mp hshare'
    obtain ⟨id, hid⟩ := List.exists_mem_of_ne_nil _ hids
    have hid' : id ∈ ids.filter fun id => config.classOf id = c' := by
      have hsorted := CounterId.mem_sort.mpr hid
      simp only at heq
      rw [← heq] at hsorted
      exact CounterId.mem_sort.mp hsorted
    have hc := (List.mem_filter.mp hid).2
    have hc' := (List.mem_filter.mp hid').2
    simp only [decide_eq_true_eq] at hc hc'
    exact hne (hc.symm.trans hc')

/-- Without items no counter is covered. -/
theorem classOf_of_isEmpty (h : config.isEmpty = true) (id : CounterId family) :
    config.classOf id = none := by
  have hitems : config.items = [] := List.isEmpty_iff.mp h
  simp [classOf, firstCovering, hitems]

/-- Configurations with the same prefixes put counters in the same classes. -/
theorem DivideAlike.classOf_eq {config' : PrefixConfig} (h : DivideAlike config config')
    (id : CounterId family) : config.classOf id = config'.classOf id := by
  rw [classOf_eq_position, classOf_eq_position]
  unfold DivideAlike at h
  generalize config.items = items at h
  generalize config'.items = items' at h
  generalize 0 = offset
  induction items generalizing items' offset with
  | nil =>
    cases items' with
    | nil => rfl
    | cons item' items' => simp at h
  | cons item items ih =>
    cases items' with
    | nil => simp at h
    | cons item' items' =>
      obtain ⟨hprefixes, hrest⟩ := List.cons.inj h
      have hcovers : item.covers id.name = item'.covers id.name := by
        simp only [PrefixItem.covers, hprefixes]
      rw [position_cons, position_cons, hcovers, ih items' hrest]

/-- Configurations with the same prefixes name items alike. -/
theorem DivideAlike.names_eq {config' : PrefixConfig} (h : DivideAlike config config') :
    config.items.map PrefixItem.name = config'.items.map PrefixItem.name := by
  have hjoin := congrArg (List.map fun prefixes => "|".intercalate prefixes) h
  rw [List.map_map, List.map_map] at hjoin
  exact hjoin

/-- Configurations with the same prefixes name classes alike. -/
theorem DivideAlike.className_eq {config' : PrefixConfig} (h : DivideAlike config config')
    (c : Option Nat) : config.className c = config'.className c := by
  cases c with
  | none => rfl
  | some i =>
    have hi := congrArg (·[i]?) h.names_eq
    simp only [List.getElem?_map] at hi
    simp only [className, Option.bind_some, hi]

end PrefixConfig

end CounterPolling
