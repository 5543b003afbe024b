import CounterPolling.Proofs.Chunking.Items

/-!
# Dividing counters as the configuration says

A counter belongs to the first item that has a prefix of its name, and to the end of the
configuration if no item has one. The shares of a list are what belongs to each place, in the
order of the places: nothing is lost or doubled, and no two shares have one name, even where items
are repeated or an item is called like the default share. Main statement: `split_divides`.
-/

namespace CounterPolling

/-- An item has a prefix of a counter's name. -/
def PrefixItem.Matches (item : PrefixItem) (counter : String) : Prop :=
  ∃ start ∈ item.prefixes, start.toList <+: counter.toList

theorem PrefixItem.covers_iff_matches {item : PrefixItem} {counter : String} :
    item.covers counter = true ↔ item.Matches counter := by
  simp [covers, Matches]

namespace PrefixConfig

variable {family : CounterFamily} {config : PrefixConfig} {defaultSize : Nat}
  {ids : List (CounterId family)}

/-- A counter belongs to a place: the position of the first item that has a prefix of its name, or
the end if no item has one. -/
def BelongsTo (config : PrefixConfig) (counter : String) : Option Nat → Prop
  | some i =>
    (∃ item, config.items[i]? = some item ∧ item.Matches counter) ∧
      ∀ j < i, ∀ item, config.items[j]? = some item → ¬ item.Matches counter
  | none => ∀ item ∈ config.items, ¬ item.Matches counter

theorem belongsTo_classOf (config : PrefixConfig) (id : CounterId family) :
    config.BelongsTo id.name (config.classOf id) := by
  cases h : config.classOf id with
  | none =>
    intro item hitem hmatches
    rw [classOf, firstCovering, Option.map_eq_none_iff, Option.map_eq_none_iff,
      List.find?_eq_none] at h
    obtain ⟨i, hi, rfl⟩ := List.mem_iff_getElem.mp hitem
    have hentry : (config.items[i], i) ∈ config.items.zipIdx :=
      List.mem_zipIdx_iff_getElem?.mpr (List.getElem?_eq_getElem hi)
    exact h _ hentry (PrefixItem.covers_iff_matches.mpr hmatches)
  | some i =>
    obtain ⟨item, hitem, hcovers⟩ := exists_item_of_classOf h
    refine ⟨⟨item, hitem, PrefixItem.covers_iff_matches.mp hcovers⟩, ?_⟩
    intro j hj earlier hearlier hmatches
    have hnot := covers_eq_false_of_classOf h hj hearlier
    rw [PrefixItem.covers_iff_matches.mpr hmatches] at hnot
    exact Bool.noConfusion hnot

/-- A counter belongs to one place only. -/
theorem BelongsTo.unique {counter : String} {c c' : Option Nat} (h : config.BelongsTo counter c)
    (h' : config.BelongsTo counter c') : c = c' := by
  cases c with
  | none =>
    cases c' with
    | none => rfl
    | some j =>
      obtain ⟨⟨item, hitem, hmatches⟩, -⟩ := h'
      exact absurd hmatches (h item (List.mem_of_getElem? hitem))
  | some i =>
    obtain ⟨⟨item, hitem, hmatches⟩, hfirst⟩ := h
    cases c' with
    | none => exact absurd hmatches (h' item (List.mem_of_getElem? hitem))
    | some j =>
      obtain ⟨⟨item', hitem', hmatches'⟩, hfirst'⟩ := h'
      rcases lt_trichotomy i j with hlt | rfl | hgt
      · exact absurd hmatches (hfirst' i hlt item hitem)
      · rfl
      · exact absurd hmatches' (hfirst j hgt item' hitem')

/-- The class of a counter is the place that it belongs to. -/
theorem classOf_eq_iff {id : CounterId family} {c : Option Nat} :
    config.classOf id = c ↔ config.BelongsTo id.name c :=
  ⟨fun h => h ▸ config.belongsTo_classOf id, fun h => (config.belongsTo_classOf id).unique h⟩

section Shares

/-- The classes that have members in a list. -/
def occupied (config : PrefixConfig) (ids : List (CounterId family)) : List (Option Nat) :=
  config.classes.filter fun c => ids.any fun id => config.classOf id = c

/-- The share of a class. -/
def shareOf (config : PrefixConfig) (defaultSize : Nat) (ids : List (CounterId family))
    (c : Option Nat) : Share family :=
  ⟨config.className c, config.classSize defaultSize c,
    CounterId.sort (ids.filter fun id => config.classOf id = c)⟩

@[simp]
theorem mem_occupied {c : Option Nat} :
    c ∈ config.occupied ids ↔ ∃ id ∈ ids, config.classOf id = c := by
  simp only [occupied, List.mem_filter, List.any_eq_true, decide_eq_true_eq, and_iff_right_iff_imp]
  rintro ⟨id, -, rfl⟩
  exact config.classOf_mem_classes id

theorem occupied_nodup (config : PrefixConfig) (ids : List (CounterId family)) :
    (config.occupied ids).Nodup :=
  config.classes_nodup.filter _

/-- The shares of a list are those of the classes that have members in it. -/
theorem split_eq_map (config : PrefixConfig) (defaultSize : Nat) (ids : List (CounterId family)) :
    config.split defaultSize ids = (config.occupied ids).map (config.shareOf defaultSize ids) := by
  rw [split_eq, occupied]
  induction config.classes with
  | nil => rfl
  | cons c rest ih =>
    rw [List.flatMap_cons, List.filter_cons, ih]
    cases hmembers : ids.filter fun id => config.classOf id = c with
    | nil =>
      have hnone : (ids.any fun id => config.classOf id = c) = false := by
        rw [List.any_eq_false]
        exact fun id hid => List.filter_eq_nil_iff.mp hmembers id hid
      rw [hnone, if_neg Bool.false_ne_true, Share.ofIds, List.nil_append]
    | cons first others =>
      have hfirst : first ∈ ids.filter fun id => config.classOf id = c :=
        hmembers ▸ List.mem_cons_self
      have hsome : (ids.any fun id => config.classOf id = c) = true :=
        List.any_eq_true.mpr ⟨first, (List.mem_filter.mp hfirst).1, (List.mem_filter.mp hfirst).2⟩
      rw [hsome, if_pos rfl, List.map_cons, shareOf, hmembers]
      rfl

/-- The members of a share are those of the list that belong to its place. -/
theorem mem_shareOf {c : Option Nat} {id : CounterId family} :
    id ∈ (config.shareOf defaultSize ids c).ids ↔ id ∈ ids ∧ config.BelongsTo id.name c := by
  simp [shareOf, classOf_eq_iff]

end Shares

/-- The shares hold each counter as often as the list does. -/
theorem flatMap_split_perm (config : PrefixConfig) (defaultSize : Nat)
    (ids : List (CounterId family)) :
    ((config.split defaultSize ids).flatMap Share.ids).Perm ids := by
  have hofIds : ∀ (name : String) (chunkSize : Nat) (ids : List (CounterId family)),
      ((Share.ofIds name chunkSize ids).flatMap Share.ids).Perm ids := by
    intro name chunkSize ids
    cases ids with
    | nil => exact .refl _
    | cons first rest =>
      rw [Share.ofIds, List.flatMap_singleton, CounterId.sort_eq_insertionSort]
      · exact List.perm_insertionSort _ _
      · exact List.cons_ne_nil _ _
  unfold split
  induction config.items generalizing ids with
  | nil => exact hofIds _ _ _
  | cons item items ih =>
    rw [Share.divide, List.flatMap_append]
    exact ((hofIds _ _ _).append (ih _)).trans (List.filter_append_perm _ _)

/-- Configurations that divide alike group a list alike, under the same names, whatever their
sizes. -/
theorem DivideAlike.split_alike {config' : PrefixConfig} (h : DivideAlike config config')
    (defaultSize defaultSize' : Nat) (ids : List (CounterId family)) :
    (config'.split defaultSize' ids).map (fun share => (share.name, share.ids)) =
      (config.split defaultSize ids).map fun share => (share.name, share.ids) := by
  have hlength : config.items.length = config'.items.length := by
    simpa using congrArg List.length h
  have hoccupied : config'.occupied ids = config.occupied ids := by
    simp only [occupied, classes, h.classOf_eq, hlength]
  rw [split_eq_map, split_eq_map, List.map_map, List.map_map, hoccupied]
  refine List.map_congr_left fun c _ => ?_
  simp only [Function.comp_apply, shareOf, h.className_eq, h.classOf_eq]

/-- Classes that have members have different names. -/
theorem className_injOn (hconfig : config.Parsed) {c c' : Option Nat}
    (hc : c ∈ config.occupied ids) (hc' : c' ∈ config.occupied ids)
    (hname : config.className c = config.className c') : c = c' := by
  obtain ⟨id, -, hid⟩ := mem_occupied.mp hc
  obtain ⟨id', -, hid'⟩ := mem_occupied.mp hc'
  by_cases hdefault : config.className c = defaultShare
  · rw [(className_eq_default_iff hid).mp hdefault,
      (className_eq_default_iff hid').mp (hname ▸ hdefault)]
  · obtain ⟨i, rfl⟩ := Option.ne_none_iff_exists'.mp
      (mt (className_eq_default_iff hid).mpr hdefault)
    obtain ⟨i', rfl⟩ := Option.ne_none_iff_exists'.mp
      (mt (className_eq_default_iff hid').mpr (hname ▸ hdefault))
    obtain ⟨item, hitem, hcovers⟩ := exists_item_of_classOf hid
    obtain ⟨item', hitem', hcovers'⟩ := exists_item_of_classOf hid'
    simp only [className, Option.bind_some, hitem, hitem', Option.map_some,
      Option.getD_some] at hname
    have hprefixes : item.prefixes = item'.prefixes :=
      (hconfig.plain item (List.mem_of_getElem? hitem)).prefixes_eq
        (hconfig.plain item' (List.mem_of_getElem? hitem')) hname
    -- of two items with the same prefixes the later one never comes first
    rcases lt_trichotomy i i' with hlt | rfl | hgt
    · have hnot := covers_eq_false_of_classOf hid' hlt hitem
      rw [PrefixItem.covers_congr hprefixes, hcovers'] at hnot
      exact Bool.noConfusion hnot
    · rfl
    · have hnot := covers_eq_false_of_classOf hid hgt hitem'
      rw [← PrefixItem.covers_congr hprefixes, hcovers] at hnot
      exact Bool.noConfusion hnot

/-- A share stands for a place: it has the name and the chunk size that the configuration gives
there, and of the list just what belongs there. -/
inductive StandsFor (config : PrefixConfig) (defaultSize : Nat) (ids : List (CounterId family)) :
    Option Nat → Share family → Prop
  | item {i : Nat} {item : PrefixItem} {share : Share family} :
      config.items[i]? = some item → share.name = item.name →
      share.chunkSize = item.chunkSize → config.sizeNamed? share.name = some share.chunkSize →
      (∀ id, id ∈ share.ids ↔ id ∈ ids ∧ config.BelongsTo id.name (some i)) →
      StandsFor config defaultSize ids (some i) share
  | rest {share : Share family} :
      share.name = defaultShare → share.chunkSize = defaultSize →
      (∀ id, id ∈ share.ids ↔ id ∈ ids ∧ config.BelongsTo id.name none) →
      StandsFor config defaultSize ids none share

theorem standsFor_shareOf (hconfig : config.Parsed) (defaultSize : Nat) {c : Option Nat}
    (hc : c ∈ config.occupied ids) :
    config.StandsFor defaultSize ids c (config.shareOf defaultSize ids c) := by
  obtain ⟨id, -, hid⟩ := mem_occupied.mp hc
  cases c with
  | none => exact .rest rfl rfl fun _ => mem_shareOf
  | some i =>
    obtain ⟨item, hitem, -⟩ := exists_item_of_classOf hid
    refine .item hitem ?_ ?_ (sizeNamed?_className hconfig.plain hid defaultSize) fun _ =>
      mem_shareOf
    · simp [shareOf, className, hitem]
    · simp [shareOf, classSize, hitem]

/-- Shares divide a list as the configuration says: none is empty, each is sorted, their names
differ, and together they hold each counter as often as the list does. -/
structure Divides (config : PrefixConfig) (defaultSize : Nat) (ids : List (CounterId family))
    (shares : List (Share family)) : Prop where
  perm : (shares.flatMap Share.ids).Perm ids
  ids_ne_nil : ∀ share ∈ shares, share.ids ≠ []
  sorted : ∀ share ∈ shares, share.ids.Pairwise fun a b => a.raw ≤ b.raw
  names_nodup : (shares.map Share.name).Nodup
  /-- The shares stand for places in the order of the items, with the end as the last place. -/
  in_order : ∃ places, places.Sublist ((List.range config.items.length).map some ++ [none]) ∧
    List.Forall₂ (config.StandsFor defaultSize ids) places shares
  /-- What no item has a prefix of stands in the last share, and that has the default name. -/
  rest_last : ∀ id ∈ ids,
    (∃ share, shares.getLast? = some share ∧ share.name = defaultShare ∧ id ∈ share.ids) ↔
      ∀ item ∈ config.items, ¬ item.Matches id.name

/-- The end of the configuration is the last of the occupied places. -/
theorem getLast?_occupied (h : none ∈ config.occupied ids) :
    (config.occupied ids).getLast? = some none := by
  obtain ⟨id, hid, hnone⟩ := mem_occupied.mp h
  have hany : (ids.any fun id => config.classOf id = none) = true :=
    List.any_eq_true.mpr ⟨id, hid, decide_eq_true hnone⟩
  rw [occupied, classes, List.filter_append, List.filter_singleton, hany, cond_true,
    List.getLast?_concat]

/-- The shares of a list divide it as the configuration says, and any other configuration with the
same prefixes groups it in the same way. -/
theorem split_divides (hconfig : config.Parsed) (defaultSize : Nat)
    (ids : List (CounterId family)) :
    config.Divides defaultSize ids (config.split defaultSize ids) ∧
      ∀ config' : PrefixConfig, DivideAlike config config' → ∀ defaultSize' : Nat,
        (config'.split defaultSize' ids).map (fun share => (share.name, share.ids)) =
          (config.split defaultSize ids).map fun share => (share.name, share.ids) := by
  refine ⟨?_, fun config' h defaultSize' => h.split_alike defaultSize defaultSize' ids⟩
  have hshares := config.split_eq_map defaultSize ids
  refine ⟨config.flatMap_split_perm defaultSize ids, ?_, ?_, ?_, ?_, ?_⟩
  · intro share hshare
    rw [hshares] at hshare
    obtain ⟨c, hc, rfl⟩ := List.mem_map.mp hshare
    obtain ⟨id, hid, hclass⟩ := mem_occupied.mp hc
    exact List.ne_nil_of_mem (mem_shareOf.mpr ⟨hid, classOf_eq_iff.mp hclass⟩)
  · intro share hshare
    rw [hshares] at hshare
    obtain ⟨c, -, rfl⟩ := List.mem_map.mp hshare
    rw [shareOf, CounterId.sort_eq_insertionSort]
    exact List.pairwise_insertionSort _ _
  · rw [hshares, List.map_map]
    exact (config.occupied_nodup ids).map_on fun c hc c' hc' => className_injOn hconfig hc hc'
  · refine ⟨config.occupied ids, List.filter_sublist, ?_⟩
    rw [hshares, List.forall₂_map_right_iff, List.forall₂_same]
    exact fun c hc => standsFor_shareOf hconfig defaultSize hc
  · intro id hid
    rw [hshares, List.getLast?_map]
    constructor
    · rintro ⟨share, hlast, hname, hmem⟩
      obtain ⟨c, -, rfl⟩ := Option.map_eq_some_iff.mp hlast
      have hbelongs := (mem_shareOf.mp hmem).2
      cases (className_eq_default_iff (classOf_eq_iff.mpr hbelongs)).mp hname
      exact hbelongs
    · intro hnone
      have hoccupied : none ∈ config.occupied ids :=
        mem_occupied.mpr ⟨id, hid, classOf_eq_iff.mpr hnone⟩
      refine ⟨config.shareOf defaultSize ids none, ?_, rfl, mem_shareOf.mpr ⟨hid, hnone⟩⟩
      rw [getLast?_occupied hoccupied, Option.map_some]

/-- An item that comes twice, an item called like the default share, and counters named twice. -/
theorem split_divides_repeated :
    ∃ config : PrefixConfig,
      parse "SAI_PORT_STAT_IF_OUT:32;default:7;SAI_PORT_STAT_IF_OUT:8;SAI_PORT_STAT_IF_:4" =
        .ok config ∧
      (config.split 16 [⟨9, rfl⟩, ⟨0, rfl⟩, ⟨25, rfl⟩, ⟨10, rfl⟩, ⟨9, rfl⟩] :
        List (Share .portStat)) =
          [⟨"SAI_PORT_STAT_IF_OUT", 32, [⟨9, rfl⟩, ⟨9, rfl⟩, ⟨10, rfl⟩]⟩,
            ⟨"SAI_PORT_STAT_IF_", 4, [⟨0, rfl⟩]⟩, ⟨"default", 16, [⟨25, rfl⟩]⟩] ∧
      config.Divides 16 [⟨9, rfl⟩, ⟨0, rfl⟩, ⟨25, rfl⟩, ⟨10, rfl⟩, ⟨9, rfl⟩]
        (config.split 16 [⟨9, rfl⟩, ⟨0, rfl⟩, ⟨25, rfl⟩, ⟨10, rfl⟩, ⟨9, rfl⟩] :
          List (Share .portStat)) := by
  have hparse : parse "SAI_PORT_STAT_IF_OUT:32;default:7;SAI_PORT_STAT_IF_OUT:8;SAI_PORT_STAT_IF_:4"
      = .ok ⟨[⟨["SAI_PORT_STAT_IF_OUT"], 32⟩, ⟨["default"], 7⟩, ⟨["SAI_PORT_STAT_IF_OUT"], 8⟩,
          ⟨["SAI_PORT_STAT_IF_"], 4⟩]⟩ := by
    decide +kernel
  exact ⟨_, hparse, by decide +kernel, (split_divides ⟨_, hparse⟩ 16 _).1⟩

end PrefixConfig

end CounterPolling
