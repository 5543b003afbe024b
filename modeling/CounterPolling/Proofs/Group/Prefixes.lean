import CounterPolling.Proofs.Group.Changes
import CounterPolling.Proofs.Group.Reading
import CounterPolling.Proofs.Group.Regrouping

/-!
# When new prefixes are refused, and what they keep

New prefixes are refused exactly if they divide counters in another way, there are prefixes now, and
two partitions are not read for the same objects in the same mode. Refused, they change nothing;
taken, they change the division into partitions only: what is read, for which row and in which mode
stays the same. Main statements: `PartitionTable.merge?_eq_none_iff`,
`StatsGroup.prefixes_refused_or_taken`, and `Group.Filed.takes` for groups of any kind.
-/

namespace CounterPolling

variable {family : CounterFamily}

namespace PartitionTable

variable {table : PartitionTable family} {prefixes : PrefixConfig}

/-- Two partitions differ in the mode of their objects or in the set of their objects. -/
def Conflicting (table : PartitionTable family) : Prop :=
  ∃ key p key' p', table.get? key = some p ∧ table.get? key' = some p' ∧
    (key.mode ≠ key'.mode ∨ ∃ vid, p.holds vid ≠ p'.holds vid)

/-- Partitions have the same membership if they have the same mode and the same objects. -/
theorem membership_eq_iff {entry entry' : PartitionKey family × Partition family} :
    membership entry = membership entry' ↔
      entry.1.mode = entry'.1.mode ∧ ∀ vid, entry.2.holds vid = entry'.2.holds vid := by
  have hhas : ∀ (e : PartitionKey family × Partition family) vid,
      (SortedSet.ofList e.2.vids).has vid = true ↔ e.2.holds vid = true := by
    intro e vid
    rw [SortedSet.has_ofList, Partition.holds_iff_mem, Partition.vids, List.mem_map]
  constructor
  · intro heq
    obtain ⟨hmode, hset⟩ := Prod.mk.inj heq
    refine ⟨hmode, fun vid => Bool.eq_iff_iff.mpr ?_⟩
    rw [← hhas, ← hhas, hset]
  · rintro ⟨hmode, hholds⟩
    refine Prod.ext hmode (SortedSet.ext_has fun vid => ?_)
    rw [membership, membership, hhas, hhas, hholds]

/-- The partitions of a table conflict unless they all have the membership of one of them. -/
theorem conflicting_iff {first : PartitionKey family × Partition family}
    (hfirst : first ∈ table.entries) :
    table.Conflicting ↔ ∃ entry ∈ table.entries, membership entry ≠ membership first := by
  constructor
  · rintro ⟨key, p, key', p', hp, hp', hdiffer⟩
    by_contra hall
    push Not at hall
    have hsame : membership (key, p) = membership (key', p') :=
      (hall _ (SortedMap.get?_eq_some_iff.mp hp)).trans
        (hall _ (SortedMap.get?_eq_some_iff.mp hp')).symm
    obtain ⟨hmode, hholds⟩ := membership_eq_iff.mp hsame
    rcases hdiffer with hne | ⟨vid, hne⟩
    · exact hne hmode
    · exact hne (hholds vid)
  · rintro ⟨entry, hentry, hne⟩
    refine ⟨entry.1, entry.2, first.1, first.2, SortedMap.get?_eq_some_iff.mpr hentry,
      SortedMap.get?_eq_some_iff.mpr hfirst, ?_⟩
    by_contra hsame
    push Not at hsame
    exact hne (membership_eq_iff.mpr hsame)

/-- Partitions cannot be merged exactly if there are prefixes and two of them conflict. -/
theorem merge?_eq_none_iff :
    table.merge? prefixes = none ↔ prefixes.isEmpty = false ∧ table.Conflicting := by
  unfold merge?
  by_cases hempty : prefixes.isEmpty = true
  · rw [if_pos hempty, hempty]
    exact ⟨fun h => absurd h (Option.some_ne_none _), fun h => absurd h.1 (by decide)⟩
  · rw [if_neg hempty]
    have hnonempty : prefixes.isEmpty = false := Bool.eq_false_iff.mpr hempty
    refine Iff.trans ?_ (and_iff_right hnonempty).symm
    cases hentries : table.entries with
    | nil =>
      have hnone : ∀ key, table.get? key = none := by
        intro key
        refine Option.eq_none_iff_forall_ne_some.mpr fun p hp => ?_
        have hmem := SortedMap.get?_eq_some_iff.mp hp
        rw [hentries] at hmem
        exact List.not_mem_nil hmem
      unfold union?
      rw [hentries]
      refine ⟨fun h => absurd h (Option.some_ne_none _), ?_⟩
      rintro ⟨key, p, -, -, hp, -⟩
      rw [hnone key] at hp
      cases hp
    | cons first rest =>
      have hfirst : first ∈ table.entries := hentries ▸ List.mem_cons_self
      rw [conflicting_iff hfirst, hentries]
      constructor
      · intro hunion
        by_contra hall
        push Not at hall
        have hmerged := (union?_eq_some_iff hentries).mpr
          ⟨fun entry hentry => hall entry (List.mem_cons_of_mem _ hentry), rfl⟩
        rw [hunion] at hmerged
        cases hmerged
      · rintro ⟨entry, hentry, hne⟩
        refine Option.eq_none_iff_forall_ne_some.mpr fun sets hsets => ?_
        obtain ⟨hall, -⟩ := (union?_eq_some_iff hentries).mp hsets
        rcases List.mem_cons.mp hentry with rfl | hrest
        · exact hne rfl
        · exact hne (hall entry hrest)

end PartitionTable

namespace StatsGroup

variable {g after : StatsGroup family} {prefixes : PrefixConfig}

/-- New prefixes are refused, as a conflict, exactly if they divide counters in another way than the
present ones, there are present ones, and partitions conflict. -/
theorem withPrefixes_eq_error_iff (g : StatsGroup family) (prefixes : PrefixConfig)
    (refusal : ConfigError) :
    g.withPrefixes prefixes = .error refusal ↔
      refusal = .conflictingPartitions g.settings.spec.name ∧
        ¬ PrefixConfig.DivideAlike g.settings.prefixes prefixes ∧
        g.settings.prefixes.isEmpty = false ∧ g.partitions.Conflicting := by
  rw [← PartitionTable.merge?_eq_none_iff]
  unfold withPrefixes
  by_cases halike : PrefixConfig.DivideAlike g.settings.prefixes prefixes
  · dsimp only
    rw [if_pos halike]
    exact ⟨(nomatch ·), fun h => absurd halike h.2.1⟩
  · dsimp only
    rw [if_neg halike]
    cases g.partitions.merge? g.settings.prefixes with
    | none =>
      rw [Except.error.injEq]
      exact ⟨fun h => ⟨h.symm, halike, rfl⟩, fun h => h.1.symm⟩
    | some sets => exact ⟨(nomatch ·), fun h => nomatch h.2.2⟩

/-- Prefixes that are taken are what the command to regroup ends in. -/
theorem conclude_of_taken (htaken : g.withPrefixes prefixes = .ok after)
    (decision : Decision family) : g.conclude decision (.regroup prefixes) = after := by
  rw [conclude, htaken]
  rfl

/-- What prefixes keep that a group takes: everything but the prefixes in force and the division
into partitions, and of this what is read, for which row and in which mode. -/
structure TakenFrom (g : StatsGroup family) (prefixes : PrefixConfig)
    (after : StatsGroup family) : Prop where
  settings_eq : after.settings = { g.settings with prefixes := prefixes }
  singles_eq : after.singles = g.singles
  discovery_eq : after.discovery = g.discovery
  reads_iff : ∀ mode row id, after.partitions.Reads mode row id ↔ g.partitions.Reads mode row id
  holds_eq : ∀ vid, after.partitions.holds vid = g.partitions.holds vid
  sound : after.partitions.Sound prefixes

/-- A sound group that takes prefixes is sound after. -/
theorem Sound.withPrefixes (h : g.Sound) (htaken : g.withPrefixes prefixes = .ok after) :
    after.Sound := by
  rw [← conclude_of_taken htaken ⟨g.discovery, [], []⟩]
  exact h.conclude trivial (Decision.covers_nothing _ none _)

/-- A sound group that takes prefixes keeps what it reads. -/
theorem Sound.takenFrom (h : g.Sound) (htaken : g.withPrefixes prefixes = .ok after) :
    g.TakenFrom prefixes after := by
  let decision : Decision family := ⟨g.discovery, [], []⟩
  have hconclude := conclude_of_taken htaken decision
  have hsound := h.withPrefixes htaken
  have hreads : ∀ mode row id,
      after.partitions.Reads mode row id ↔ g.partitions.Reads mode row id := by
    intro mode row id
    rw [← hconclude]
    exact h.reads_configure rfl decision
  have hsettings : after.settings = { g.settings with prefixes := prefixes } := by
    rcases g.withPrefixes_cases prefixes with hrefused | ⟨-, heq⟩ | ⟨sets, -, heq⟩
    · rw [hrefused] at htaken
      cases htaken
    all_goals
      rw [heq] at htaken
      cases htaken
      rfl
  have hregroups : (GroupCommand.regroup prefixes).configures = true := rfl
  obtain ⟨hsingles, hdiscovery, -⟩ := g.conclude_configure hregroups decision
  rw [hconclude] at hsingles hdiscovery
  have htable := hsound.table
  rw [hsettings] at htable
  refine ⟨hsettings, hsingles, hdiscovery, hreads, fun vid => Bool.eq_iff_iff.mpr ?_, htable⟩
  rw [htable.holds_iff_reads, h.table.holds_iff_reads]
  simp only [hreads]

/-- In every state that a group may come to, new prefixes are refused exactly if they divide
counters in another way, there are prefixes, and two partitions differ in mode or objects. A refusal
leaves the group as it is. Prefixes that are taken are in force, and whatever was read before, for
which row and in which mode, is read after, in partitions that are sound under them. -/
theorem prefixes_refused_or_taken (h : g.Reachable) (prefixes : PrefixConfig) (switch : Switch)
    (past : List Event) :
    let ended := ((g.perform (.regroup prefixes)).run switch past).value
    (∀ refusal, g.withPrefixes prefixes = .error refusal ↔
      refusal = .conflictingPartitions g.settings.spec.name ∧
        ¬ PrefixConfig.DivideAlike g.settings.prefixes prefixes ∧
        g.settings.prefixes.isEmpty = false ∧ g.partitions.Conflicting) ∧
    (∀ refusal, g.withPrefixes prefixes = .error refusal → ended = g) ∧
    ∀ after, g.withPrefixes prefixes = .ok after →
      ended = after ∧ g.TakenFrom prefixes after := by
  refine ⟨g.withPrefixes_eq_error_iff prefixes, fun refusal hrefused => ?_,
    fun after htaken => ⟨?_, h.sound.takenFrom htaken⟩⟩
  · rw [value_perform, conclude, hrefused]
    rfl
  · rw [value_perform, conclude_of_taken htaken]

/-- Two ports with the same counters take it that the prefixes go; with a third one that has some of
the counters only they refuse. -/
theorem prefixes_refused_or_taken_three_ports :
    let settings : GroupSettings :=
      { GroupSettings.initial (GroupSpec.stats "Port Counter" .portStat "PORT_COUNTER_ID_LIST" none)
          "PORTS" with
        prefixes := ⟨[⟨["SAI_PORT_STAT_IF_IN"], 1⟩]⟩ }
    let switch : Switch := .unchanging (rowFails (.object 0x104))
    let two := (((initial settings : StatsGroup .portStat).perform (.addMany [1, 2] [0x101, 0x102]
      ["SAI_PORT_STAT_IF_IN_OCTETS", "SAI_PORT_STAT_IF_OUT_OCTETS"] none)).run switch []).value
    let three := ((two.perform (.add 3 0x103 ["SAI_PORT_STAT_IF_OUT_OCTETS"] none)).run switch
      []).value
    (∃ after, two.withPrefixes ∅ = .ok after ∧ two.TakenFrom ∅ after ∧
      after.partitions.values.map Partition.vids = [[1, 2]]) ∧
    three.withPrefixes ∅ = .error (.conflictingPartitions "Port Counter") ∧
      ((three.perform (.regroup ∅)).run switch []).value = three := by
  intro settings switch two three
  have htwo : two.Reachable := .perform _ _ _ (.initial _) (by decide)
  have hthree : three.Reachable := .perform _ _ _ htwo (by decide)
  have htaken : (two.withPrefixes ∅).toOption.map (fun after =>
      after.partitions.values.map Partition.vids) = some [[1, 2]] := by decide +kernel
  have hrefused : (three.withPrefixes ∅).toOption.isNone = true := by decide +kernel
  have hname : three.settings.spec.name = "Port Counter" := by decide +kernel
  clear_value two three
  constructor
  · cases hafter : two.withPrefixes ∅ with
    | error refusal =>
      rw [hafter] at htaken
      cases htaken
    | ok after =>
      rw [hafter] at htaken
      exact ⟨after, rfl, ((prefixes_refused_or_taken htwo ∅ switch []).2.2 after hafter).2,
        Option.some.inj htaken⟩
  · obtain ⟨hcause, hkept, -⟩ := prefixes_refused_or_taken hthree ∅ switch []
    cases hafter : three.withPrefixes ∅ with
    | ok after =>
      rw [hafter] at hrefused
      cases hrefused
    | error refusal =>
      refine ⟨?_, hkept refusal hafter⟩
      rw [((hcause refusal).mp hafter).1, hname]

end StatsGroup

/-- A counter is read in bulk for a row of an object, in the mode that the object came with. -/
def Tracking.ReadsInBulk (tracking : Tracking) (mode : Option ReadMode) (key : RowKey)
    (raw : Int) : Prop :=
  ∃ bulk ∈ tracking.bulk, bulk.mode = mode ∧ key ∈ bulk.keys ∧ raw ∈ bulk.counters

section Bulk

variable {mode mode' : Option ReadMode} {vid : ObjectId} {key : RowKey} {raw : Int}

/-- A partition tells of an object the rows that it has of it, with its own counters. -/
theorem Partition.exists_tracking?_iff {p : Partition family} :
    (∃ bulk, p.tracking? mode vid = some bulk ∧ bulk.mode = mode' ∧ key ∈ bulk.keys ∧
        raw ∈ bulk.counters) ↔
      mode = mode' ∧ ⟨vid, key⟩ ∈ p.rows ∧ raw ∈ CounterId.raws p.ids := by
  have hkey : key ∈ (p.rowsOf vid).map Row.key ↔ ⟨vid, key⟩ ∈ p.rows := by
    rw [List.mem_map]
    constructor
    · rintro ⟨⟨vid', key'⟩, hrow, rfl⟩
      obtain ⟨hmem, hvid⟩ := List.mem_filter.mp hrow
      exact beq_iff_eq.mp hvid ▸ hmem
    · intro hmem
      exact ⟨_, List.mem_filter.mpr ⟨hmem, beq_self_eq_true vid⟩, rfl⟩
  unfold tracking?
  split
  · next hempty =>
    rw [List.isEmpty_iff.mp hempty] at hkey
    constructor
    · rintro ⟨bulk, hbulk, -⟩
      cases hbulk
    · rintro ⟨-, hmem, -⟩
      exact absurd (hkey.mpr hmem) List.not_mem_nil
  · rw [← hkey]
    constructor
    · rintro ⟨_, ⟨⟩, htold⟩
      exact htold
    · intro htold
      exact ⟨_, rfl, htold⟩

/-- What is told of an object that sound partitions read is which counters they read for it. -/
theorem PartitionTable.Sound.exists_bulkTracking_iff {table : PartitionTable family}
    {prefixes : PrefixConfig} (h : table.Sound prefixes) :
    (∃ bulk ∈ bulkTracking PartitionKey.mode table vid, bulk.mode = mode ∧ key ∈ bulk.keys ∧
        raw ∈ bulk.counters) ↔
      ∃ id, table.Reads mode ⟨vid, key⟩ id ∧ id.raw = raw := by
  have htold : ∀ key' p, (key', p) ∈ table.entries →
      ((∃ bulk, p.tracking? key'.mode vid = some bulk ∧ bulk.mode = mode ∧ key ∈ bulk.keys ∧
        raw ∈ bulk.counters) ↔
          key'.mode = mode ∧ ⟨vid, key⟩ ∈ p.rows ∧ ∃ id ∈ key'.ids, id.raw = raw) := by
    intro key' p hp
    rw [Partition.exists_tracking?_iff, (h.fits (SortedMap.get?_eq_some_iff.mpr hp)).ids_eq,
      CounterId.raws, List.mem_map]
  constructor
  · rintro ⟨bulk, hmem, hbulk⟩
    obtain ⟨⟨key', p⟩, hp, hfound⟩ := List.mem_filterMap.mp hmem
    obtain ⟨hmode, hrow, id, hid, hraw⟩ := (htold key' p hp).mp ⟨bulk, hfound, hbulk⟩
    exact ⟨id, ⟨key', hmode, mem_rowsAt.mpr ⟨p, hp, hrow⟩, hid⟩, hraw⟩
  · rintro ⟨id, ⟨key', hmode, hrow, hid⟩, hraw⟩
    obtain ⟨p, hp, hrow⟩ := mem_rowsAt.mp hrow
    obtain ⟨bulk, hfound, hbulk⟩ := (htold key' p hp).mpr ⟨hmode, hrow, id, hid, hraw⟩
    exact ⟨bulk, List.mem_filterMap.mpr ⟨(key', p), hp, hfound⟩, hbulk⟩

end Bulk

namespace Group

variable {group after : Group} {prefixes : PrefixConfig}

/-- Groups read the same in bulk: of each object the same counters, for the same rows and in the
same modes. -/
def SameInBulk (before after : Group) : Prop :=
  ∀ vid mode key raw,
    (after.tracking vid).ReadsInBulk mode key raw ↔ (before.tracking vid).ReadsInBulk mode key raw

/-- A group takes new prefixes: they are what it is told from then on, and it tracks what it
tracked, with what stood under each object itself. If it is sound it also stays so and reads the
same in bulk; an object that was registered twice at once may be read for another of its rows. -/
structure Takes (prefixes : PrefixConfig) (before after : Group) : Prop where
  taken : before.withPrefixes prefixes = .ok after
  settings_eq : after.settings = { before.settings with prefixes := prefixes }
  vids_eq : after.vids = before.vids
  own_eq : ∀ vid, (after.tracking vid).own = (before.tracking vid).own
  sound : before.Sound → after.Sound
  sameInBulk : before.Sound → before.SameInBulk after

/-- Prefixes that a group does not refuse are taken. -/
theorem Filed.takes (h : group.Filed) (htaken : group.withPrefixes prefixes = .ok after) :
    group.Takes prefixes after := by
  have hsettings : after.settings = { group.settings with prefixes := prefixes } := by
    rcases group.withPrefixes_cases prefixes with hrefused | ⟨found, hfound, hsettings⟩
    · rw [hrefused] at htaken
      cases htaken
    · rw [hfound] at htaken
      cases htaken
      exact hsettings
  cases group with
  | stats family g =>
    rw [withPrefixes] at htaken
    cases hfound : g.withPrefixes prefixes with
    | error refusal =>
      rw [hfound] at htaken
      cases htaken
    | ok found =>
      obtain ⟨-, -, hsingles, hvids⟩ := StatsGroup.Filed.withPrefixes h hfound
      rw [hfound] at htaken
      cases htaken
      refine ⟨?_, hsettings, hvids, fun vid => ?_, fun hsound => ?_,
        fun hsound vid mode key raw => ?_⟩
      · rw [withPrefixes, hfound]
        rfl
      · change Option.map _ (found.singles.get? vid) = Option.map _ (g.singles.get? vid)
        rw [hsingles]
      · exact StatsGroup.Sound.withPrefixes hsound hfound
      · have hkept := StatsGroup.Sound.takenFrom hsound hfound
        refine hkept.sound.exists_bulkTracking_iff.trans
          (Iff.trans ?_ hsound.table.exists_bulkTracking_iff.symm)
        simp only [hkept.reads_iff]
  | attributes family g =>
    cases htaken
    exact ⟨rfl, hsettings, rfl, fun _ => rfl, id, fun _ _ _ _ _ => Iff.rfl⟩
  | meterBuckets g =>
    cases htaken
    exact ⟨rfl, hsettings, rfl, fun _ => rfl, fun hsound => MeterGroup.Sound.withSettings hsound _,
      fun _ _ _ _ _ => Iff.rfl⟩

end Group

end CounterPolling
