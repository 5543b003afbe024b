import CounterPolling.Proofs.Group.Prefixes
import CounterPolling.Proofs.Group.Sizes

/-!
# Prefixes that come and go

A group without prefixes takes any, and divides each of its partitions by them. When the prefixes go
again, the parts are merged. This restores the group if it had one partition at most. The parts of
two partitions conflict, and then the prefixes cannot go. Main statement:
`StatsGroup.withPrefixes_empty_of_undivided`.
-/

namespace CounterPolling

variable {family : CounterFamily}

/-- Only the empty configuration divides nothing. -/
theorem PrefixConfig.divideAlike_empty_iff {config : PrefixConfig} :
    DivideAlike config ∅ ↔ config = ∅ := by
  obtain ⟨items⟩ := config
  change items.map PrefixItem.prefixes = [] ↔ (⟨items⟩ : PrefixConfig) = ⟨[]⟩
  rw [List.map_eq_nil_iff, PrefixConfig.mk.injEq]

namespace PartitionTable

variable {prefixes prefixes' : PrefixConfig} {table divided : PartitionTable family}

section Conflicts

variable {mode mode' : Option ReadMode} {row row' : Row} {id id' : CounterId family}

/-- Where no two partitions conflict, they share a mode, and each counter that is read for one row
is read for every row. -/
theorem Sound.reads_of_not_conflicting (h : table.Sound prefixes) (hagree : ¬ table.Conflicting)
    (hreads : table.Reads mode row id) (hreads' : table.Reads mode' row' id') :
    mode = mode' ∧ table.Reads mode row id' := by
  obtain ⟨key, rfl, hrow, -⟩ := hreads
  obtain ⟨key', rfl, hrow', hid'⟩ := hreads'
  obtain ⟨p, hp, -⟩ := h.fits_of_mem hrow
  obtain ⟨p', hp', -⟩ := h.fits_of_mem hrow'
  have hsame : key.mode = key'.mode ∧ ∀ vid, p.holds vid = p'.holds vid := by
    by_contra hdiffer
    refine hagree ⟨key, p, key', p', hp, hp', ?_⟩
    by_cases hmode : key.mode = key'.mode
    · right
      by_contra hall
      push Not at hall
      exact hdiffer ⟨hmode, hall⟩
    · exact .inl hmode
  obtain ⟨hmode, hholds⟩ := hsame
  have hheld : p'.holds row.vid = true := by
    rw [← hholds, Partition.holds_iff_mem]
    exact ⟨row, rowsAt_eq hp ▸ hrow, rfl⟩
  obtain ⟨other, hother, hvid⟩ := Partition.holds_iff_mem.mp hheld
  rw [← rowsAt_eq hp'] at hother
  obtain ⟨rfl, -⟩ := h.same_row hother hrow hvid
  exact ⟨hmode, key', hmode.symm, hother, hid'⟩

/-- However two partitions were divided, their parts conflict. -/
theorem Sound.conflicting_of_two (h : table.Sound prefixes) (hempty : prefixes.isEmpty = true)
    (hdivided : divided.Sound prefixes')
    (hreads : ∀ mode row id, divided.Reads mode row id ↔ table.Reads mode row id)
    {key key' : PartitionKey family} {p p' : Partition family} (hp : table.get? key = some p)
    (hp' : table.get? key' = some p') (hne : key ≠ key') : divided.Conflicting := by
  by_contra hagree
  -- every counter of one partition is read for the rows of the other, so that it is the other's
  have hwithin : ∀ {key key' : PartitionKey family} {p p' : Partition family},
      table.get? key = some p → table.get? key' = some p' →
        key.mode = key'.mode ∧ ∀ id ∈ key'.ids, id ∈ key.ids := by
    intro key key' p p' hp hp'
    obtain ⟨row, hrow⟩ := List.exists_mem_of_ne_nil _ (h.fits hp).rows_ne_nil
    obtain ⟨row', hrow'⟩ := List.exists_mem_of_ne_nil _ (h.fits hp').rows_ne_nil
    obtain ⟨first, hfirst⟩ := List.exists_mem_of_ne_nil _ (h.fits hp).ids_ne_nil
    obtain ⟨first', hfirst'⟩ := List.exists_mem_of_ne_nil _ (h.fits hp').ids_ne_nil
    rw [← rowsAt_eq hp] at hrow
    rw [← rowsAt_eq hp'] at hrow'
    have hread : divided.Reads key.mode row first :=
      (hreads _ _ _).mpr ⟨key, rfl, hrow, hfirst⟩
    have hshared : ∀ id ∈ key'.ids, key.mode = key'.mode ∧ divided.Reads key.mode row id :=
      fun id hid => hdivided.reads_of_not_conflicting hagree hread
        ((hreads _ _ _).mpr ⟨key', rfl, hrow', hid⟩)
    refine ⟨(hshared first' hfirst').1, fun id hid => ?_⟩
    have hback := (hreads _ _ _).mp (hshared id hid).2
    exact ((h.reads_iff_of_isEmpty hempty hrow).mp hback).2
  obtain ⟨hmode, hsub⟩ := hwithin hp hp'
  obtain ⟨-, hsub'⟩ := hwithin hp' hp
  have hids : key.ids = key'.ids :=
    (h.fits hp).ascending.ext (h.fits hp').ascending fun id => ⟨hsub' id, hsub id⟩
  obtain ⟨m, members⟩ := key
  obtain ⟨m', members'⟩ := key'
  exact hne (congrArg₂ PartitionKey.mk hmode hids)

end Conflicts

section SingleSet

variable {mode : Option ReadMode} {rows : List Row} {ids : List (CounterId family)} {size : Nat}

/-- The parts of one counter set merge into this set, rows in order. -/
theorem union?_addSplit_empty (hasc : CounterId.Ascending ids) (hids : ids ≠ []) (hrows : rows ≠ [])
    (hnodup : (rows.map Row.vid).Nodup) :
    union? ((∅ : PartitionTable family).addShares mode rows (prefixes.split size ids)) =
      some [⟨mode, ids, rows⟩] := by
  have hsound : Sound prefixes (addShares mode rows (prefixes.split size ids) ∅) :=
    (Sound.empty prefixes).addSplit hasc hrows hnodup fun _ _ => rfl
  have hreads : ∀ m row id, Reads (addShares mode rows (prefixes.split size ids) ∅) m row id ↔
      m = mode ∧ row ∈ rows ∧ id ∈ ids := by
    intro m row id
    rw [reads_addSplit hasc]
    refine or_iff_right ?_
    rintro ⟨key, -, hrow, -⟩
    simp at hrow
  generalize hparts : addShares mode rows (prefixes.split size ids) ∅ = parts at hsound hreads
  -- every part has the mode and all the rows
  have hpart : ∀ entry ∈ parts.entries, entry.1.mode = mode ∧ entry.2.rows = rows := by
    intro entry hentry
    have hget := SortedMap.get?_eq_some_iff.mpr hentry
    have hrowsAt := rowsAt_eq hget
    have hne := (hsound.fits hget).rows_ne_nil
    rw [← hparts, rowsAt_addShares PrefixConfig.split_ids_nodup, rowsAt_empty,
      List.nil_append] at hrowsAt
    split at hrowsAt
    · next hkey => exact ⟨hkey.1, hrowsAt.symm⟩
    · exact absurd hrowsAt.symm hne
  have hall : ∀ id, (∃ key p, (key, p) ∈ parts.entries ∧ id ∈ key.ids) ↔ id ∈ ids := by
    intro id
    obtain ⟨row, hrow⟩ := List.exists_mem_of_ne_nil _ hrows
    constructor
    · rintro ⟨key, p, hp, hid⟩
      have hread : parts.Reads key.mode row id :=
        ⟨key, rfl, mem_rowsAt.mpr ⟨p, hp, (hpart _ hp).2 ▸ hrow⟩, hid⟩
      exact ((hreads _ _ _).mp hread).2.2
    · intro hid
      obtain ⟨key, -, hmem, hid⟩ := (hreads mode row id).mpr ⟨rfl, hrow, hid⟩
      obtain ⟨p, hp, -⟩ := mem_rowsAt.mp hmem
      exact ⟨key, p, hp, hid⟩
  cases hentries : parts.entries with
  | nil =>
    obtain ⟨id, hid⟩ := List.exists_mem_of_ne_nil _ hids
    obtain ⟨key, p, hp, -⟩ := (hall id).mpr hid
    rw [hentries] at hp
    exact absurd hp List.not_mem_nil
  | cons first rest =>
    rw [hentries, List.forall_mem_cons] at hpart
    obtain ⟨⟨hmode, hfirst⟩, hrest⟩ := hpart
    have hunion : SortedSet.toList (SortedSet.ofList (parts.keys.flatMap PartitionKey.ids)) = ids :=
      (CounterId.ascending_toList _).ext hasc fun id => mem_allIds.trans (hall id)
    rw [union?_eq_some_iff hentries, hunion, hmode, hfirst]
    refine ⟨fun entry hentry => ?_, rfl⟩
    obtain ⟨hmode', hrows'⟩ := hrest entry hentry
    simp only [membership, Partition.vids, hmode', hrows', hmode, hfirst]

/-- A table with one partition at most, if it follows prefixes that leave it whole, is what these
make of its counter set. -/
theorem ofWholeSets_wholeSets (hsingle : table.entries.length ≤ 1)
    (hfollows : ∀ key p, table.get? key = some p → p.ids = key.ids ∧ p.Follows prefixes size) :
    ofWholeSets prefixes size table.wholeSets = table := by
  refine SortedMap.ext_entries ?_
  rw [wholeSets]
  rcases hentries : table.entries with _ | ⟨⟨⟨m, members⟩, p⟩, _ | ⟨_, rest⟩⟩
  · rfl
  · have hp : table.get? ⟨m, members⟩ = some p := by
      rw [SortedMap.get?_eq_some_iff, hentries]
      exact List.mem_singleton_self _
    obtain ⟨rfl, hsplit⟩ := hfollows _ _ hp
    change (addShares m p.rows (prefixes.split size p.ids) ∅).entries = _
    rw [show prefixes.split size p.ids = _ from hsplit]
    rfl
  · rw [hentries] at hsingle
    simp at hsingle

end SingleSet

/-- The parts of an undivided table merge into the sets that they are parts of, unless there are
two of these: then they conflict. -/
theorem Sound.merge?_divided (h : table.Sound prefixes) (hempty : prefixes.isEmpty = true)
    (hprefixes : prefixes'.isEmpty = false) (size : Nat) :
    (ofWholeSets prefixes' size table.wholeSets).merge? prefixes' =
      if table.entries.length ≤ 1 then some table.wholeSets else none := by
  have hmerge : table.merge? prefixes = some table.wholeSets := if_pos hempty
  have hunion : ∀ parts : PartitionTable family, parts.merge? prefixes' = parts.union? :=
    fun parts => if_neg (Bool.eq_false_iff.mp hprefixes)
  match hentries : table.entries with
  | [] =>
    rw [hunion, PartitionTable.wholeSets, hentries]
    rfl
  | [(key, p)] =>
    have hp : table.get? key = some p := by
      rw [SortedMap.get?_eq_some_iff, hentries]
      exact List.mem_singleton_self _
    have hfits := h.fits hp
    have hnodup := h.vids_nodup key
    rw [rowsAt_eq hp] at hnodup
    rw [hunion, PartitionTable.wholeSets, hentries]
    exact union?_addSplit_empty hfits.ascending hfits.ids_ne_nil hfits.rows_ne_nil hnodup
  | (key, p) :: (key', p') :: rest =>
    have hp : table.get? key = some p := by
      rw [SortedMap.get?_eq_some_iff, hentries]
      exact List.mem_cons_self
    have hp' : table.get? key' = some p' := by
      rw [SortedMap.get?_eq_some_iff, hentries]
      exact List.mem_cons_of_mem _ List.mem_cons_self
    have hne : key ≠ key' := by
      rintro rfl
      have hascend := table.ascend
      rw [hentries] at hascend
      have hlt := (List.pairwise_cons.mp hascend).1 (key, p') List.mem_cons_self
      simp [Std.ReflCmp.compare_self] at hlt
    have hconflict : (ofWholeSets prefixes' size table.wholeSets).Conflicting := by
      obtain ⟨hsound, hreads⟩ := h.regroup hmerge
      exact h.conflicting_of_two hempty hsound hreads hp hp' hne
    rw [if_neg (by simp), merge?_eq_none_iff]
    exact ⟨hprefixes, hconflict⟩

end PartitionTable

namespace StatsGroup

variable {g : StatsGroup family} {prefixes : PrefixConfig}

section Undivided

variable {decision : Decision family} {own : Option ReadMode} {command : GroupCommand}

/-- Without prefixes every partition has the default name. -/
theorem Sound.name_eq_of_no_prefixes (h : g.Sound) (hnone : g.settings.prefixes = ∅)
    {key : PartitionKey family} {p : Partition family} (hp : g.partitions.get? key = some p) :
    p.name = defaultShare := by
  obtain ⟨c, hname, -⟩ := (h.table.fits hp).one_class
  rw [hname, hnone]
  cases c <;> rfl

/-- A command that ends without prefixes ends with partitions that follow that, if it began so
whenever there were no prefixes. -/
theorem Sound.follows_conclude (h : g.Sound) (hfollow : g.settings.prefixes = ∅ → g.SizesFollow)
    (hcovers : decision.Covers own command.objects)
    (hnone : (g.conclude decision command).settings.prefixes = ∅) :
    (g.conclude decision command).SizesFollow := by
  cases hcommand : command.configures with
  | false =>
    obtain ⟨hprefixes, hsize⟩ := g.chunking_conclude decision hcommand
    have hbefore : g.settings.prefixes = ∅ := hprefixes.symm.trans hnone
    have hfiled : g.partitions.FiledWith g.settings.prefixes
        (Partition.Follows g.settings.prefixes g.settings.chunkSize) :=
      fun key p hp => ⟨h.table.fits hp, hfollow hbefore key p hp⟩
    have hafter := filedWith_conclude hfiled (fun _ _ hp => hp) (fun _ hp => hp) hcommand hcovers
    intro key p hp
    rw [hprefixes, hsize]
    exact (hafter key p hp).2
  | true =>
    cases command with
    | resize size =>
      intro key p hp
      rw [StatsGroup.conclude, withChunkSize, PartitionTable.get?_resize,
        Option.map_eq_some_iff] at hp
      obtain ⟨q, hq, rfl⟩ := hp
      have hname := h.name_eq_of_no_prefixes hnone hq
      rw [if_pos hname, Option.getD_some]
      have hfits := (h.table.fits hq).withChunkSize
        (rfl : PrefixConfig.DivideAlike g.settings.prefixes g.settings.prefixes) size
      exact (hfits.follows_iff_of_default hname).mpr rfl
    | regroup prefixes =>
      rcases g.conclude_regroup decision prefixes with
        ⟨-, -, heq⟩ | ⟨halike, heq⟩ | ⟨-, sets, hmerge, heq⟩
      · rw [heq] at hnone ⊢
        exact hfollow hnone
      · rw [heq] at hnone ⊢
        obtain rfl : prefixes = ∅ := hnone
        have hbefore := PrefixConfig.divideAlike_empty_iff.mp halike
        intro key p hp
        rw [PartitionTable.get?_resize, Option.map_eq_some_iff] at hp
        obtain ⟨q, hq, rfl⟩ := hp
        have hfollows := hfollow hbefore key q hq
        rwa [hbefore] at hfollows
      · have hfiled : g.partitions.FiledWith g.settings.prefixes fun _ => True :=
          fun _ _ hp => ⟨h.table.fits hp, trivial⟩
        rw [heq]
        exact fun key p hp => (hfiled.regroup hmerge prefixes g.settings.chunkSize key p hp).2
    | _ => cases hcommand

/-- Without prefixes every partition has the default size, in every state a group may come to. -/
theorem Reachable.follows_of_no_prefixes (h : g.Reachable) (hnone : g.settings.prefixes = ∅) :
    g.SizesFollow := by
  induction h with
  | initial settings => exact fun key p hp => by simp [StatsGroup.initial] at hp
  | @perform g command switch past hbefore hdistinct ih =>
    rw [value_perform] at hnone ⊢
    exact hbefore.sound.follows_conclude ih ((g.decideOn_always command).value switch past) hnone

end Undivided

/-- Prefixes that divide counters in another way are taken if the partitions can be merged. -/
theorem withPrefixes_of_merge? {sets : List (WholeSet family)}
    (hother : ¬ PrefixConfig.DivideAlike g.settings.prefixes prefixes)
    (hmerge : g.partitions.merge? g.settings.prefixes = some sets) :
    g.withPrefixes prefixes =
      .ok { g with
        settings := { g.settings with prefixes := prefixes }
        partitions := PartitionTable.ofWholeSets prefixes g.settings.chunkSize sets } := by
  rw [withPrefixes, if_neg hother, hmerge]

/-- A group without prefixes takes any. When they go again the group is as it was, if it had one
partition at most; otherwise they cannot go. -/
theorem withPrefixes_empty_of_undivided (h : g.Reachable) (hnone : g.settings.prefixes = ∅)
    (hsome : prefixes ≠ ∅) :
    ∃ divided, g.withPrefixes prefixes = .ok divided ∧ divided.singles = g.singles ∧
      divided.withPrefixes ∅ =
        if g.partitions.entries.length ≤ 1 then .ok g
        else .error (.conflictingPartitions g.settings.spec.name) := by
  have hempty : g.settings.prefixes.isEmpty = true := by
    rw [hnone]
    rfl
  have hprefixes : prefixes.isEmpty = false := by
    rw [Bool.eq_false_iff]
    intro hitems
    exact hsome (congrArg PrefixConfig.mk (List.isEmpty_iff.mp hitems))
  have hother : ¬ PrefixConfig.DivideAlike g.settings.prefixes prefixes := by
    rw [hnone]
    exact fun halike => hsome (PrefixConfig.divideAlike_empty_iff.mp halike.symm)
  have hmerge : g.partitions.merge? g.settings.prefixes = some g.partitions.wholeSets :=
    if_pos hempty
  let divided : StatsGroup family := { g with
    settings := { g.settings with prefixes := prefixes }
    partitions :=
      PartitionTable.ofWholeSets prefixes g.settings.chunkSize g.partitions.wholeSets }
  refine ⟨divided, withPrefixes_of_merge? hother hmerge, rfl, ?_⟩
  have hback : ¬ PrefixConfig.DivideAlike divided.settings.prefixes ∅ :=
    fun halike => hsome (PrefixConfig.divideAlike_empty_iff.mp halike)
  have hparts := h.sound.table.merge?_divided hempty hprefixes g.settings.chunkSize
  by_cases hsingle : g.partitions.entries.length ≤ 1
  · rw [if_pos hsingle] at hparts ⊢
    have hfollow := h.follows_of_no_prefixes hnone
    have hrestored : PartitionTable.ofWholeSets ∅ g.settings.chunkSize g.partitions.wholeSets =
        g.partitions := by
      refine PartitionTable.ofWholeSets_wholeSets hsingle fun key p hp => ?_
      have hfollows := hfollow key p hp
      rw [hnone] at hfollows
      exact ⟨(h.sound.table.fits hp).ids_eq, hfollows⟩
    rw [withPrefixes_of_merge? hback hparts]
    dsimp only [divided]
    rw [hrestored, ← hnone]
  · rw [if_neg hsingle] at hparts ⊢
    exact (divided.withPrefixes_eq_error_iff ∅ _).mpr
      ⟨rfl, hback, PartitionTable.merge?_eq_none_iff.mp hparts⟩

/-- Two ports with the same counters are restored; with a third one that has some of the counters
only the prefixes cannot go. -/
theorem withPrefixes_empty_of_undivided_three_ports :
    let prefixes : PrefixConfig := ⟨[⟨["SAI_PORT_STAT_IF_IN"], 1⟩]⟩
    let settings := GroupSettings.initial
      (GroupSpec.stats "Port Counter" .portStat "PORT_COUNTER_ID_LIST" none) "PORTS"
    let switch : Switch := .unchanging (rowFails (.object 0x104))
    let two := (((initial settings : StatsGroup .portStat).perform (.addMany [1, 2] [0x101, 0x102]
      ["SAI_PORT_STAT_IF_IN_OCTETS", "SAI_PORT_STAT_IF_OUT_OCTETS"] none)).run switch []).value
    let three := ((two.perform (.add 3 0x103 ["SAI_PORT_STAT_IF_OUT_OCTETS"] none)).run switch
      []).value
    (∃ divided, two.withPrefixes prefixes = .ok divided ∧ divided.withPrefixes ∅ = .ok two) ∧
    ∃ divided, three.withPrefixes prefixes = .ok divided ∧
      divided.withPrefixes ∅ = .error (.conflictingPartitions "Port Counter") := by
  intro prefixes settings switch two three
  have htwo : two.Reachable := .perform _ _ _ (.initial _) (by decide)
  have hthree : three.Reachable := .perform _ _ _ htwo (by decide)
  have hsome : prefixes ≠ ∅ := by decide
  constructor
  · obtain ⟨divided, htaken, -, hback⟩ :=
      withPrefixes_empty_of_undivided htwo (by decide +kernel) hsome
    refine ⟨divided, htaken, hback.trans (if_pos ?_)⟩
    decide +kernel
  · obtain ⟨divided, htaken, -, hback⟩ :=
      withPrefixes_empty_of_undivided hthree (by decide +kernel) hsome
    refine ⟨divided, htaken, hback.trans ((if_neg ?_).trans ?_)⟩
    · decide +kernel
    · decide +kernel

end StatsGroup

end CounterPolling
