import CounterPolling.Proofs.Group.Exclusive

/-!
# Sound groups

A group is sound if its partitions are, nothing is tracked in two ways, and every object that
is tracked by itself has counters to read. Every command that registers no object twice keeps
a group sound. Main statement: `partitions_wellFormed`.
-/

namespace CounterPolling

namespace StatsGroup

variable {family : CounterFamily} {g : StatsGroup family}

/-- The partitions are sound under the prefixes in force, no object is tracked in two ways,
and every object tracked by itself has counters, in ascending order. -/
structure Sound (g : StatsGroup family) : Prop where
  exclusive : g.Exclusive
  table : g.partitions.Sound g.settings.prefixes
  singles : ∀ {vid r}, g.singles.get? vid = some r →
    r.ids ≠ [] ∧ CounterId.Ascending r.ids

theorem sound_initial (settings : GroupSettings) :
    (initial settings : StatsGroup family).Sound where
  exclusive := exclusive_initial settings
  table := PartitionTable.Sound.empty _
  singles h := by simp [initial] at h

section Untrack

theorem Sound.untrack (h : g.Sound) (vid : ObjectId) : (g.untrack vid).Sound := by
  refine ⟨exclusive_untrack h.exclusive vid, ?_, ?_⟩
  · rw [settings_untrack]
    unfold StatsGroup.untrack
    split
    · exact h.table
    · exact h.table.remove vid
  · intro vid' r hr
    unfold StatsGroup.untrack at hr
    split at hr
    · by_cases hvid : vid = vid'
      · subst hvid
        simp at hr
      · rw [SortedMap.get?_erase_of_ne g.singles hvid] at hr
        exact h.singles hr
    · exact h.singles hr

theorem Sound.untrackAll (h : g.Sound) (vids : List ObjectId) : (g.untrackAll vids).Sound := by
  unfold StatsGroup.untrackAll
  induction vids generalizing g with
  | nil => exact h
  | cons vid rest ih => exact ih (h.untrack vid)

end Untrack

section Settle

variable {placements : List (Placement family)}

/-- Fresh objects, each placed once, keep the partitions sound. -/
theorem table_settle (h : g.partitions.Sound g.settings.prefixes)
    (hnodup : (placements.map Placement.vid).Nodup)
    (hfresh : ∀ p ∈ placements, g.partitions.holds p.vid = false)
    (hids : ∀ p ∈ placements, p.registration.ids ≠ [] ∧
      CounterId.Ascending p.registration.ids) :
    (g.settle placements).partitions.Sound g.settings.prefixes := by
  unfold settle
  induction placements generalizing g with
  | nil => exact h
  | cons p rest ih =>
    obtain ⟨hnew, hnodup⟩ := List.nodup_cons.mp hnodup
    obtain ⟨hpfresh, hfresh⟩ := List.forall_mem_cons.mp hfresh
    obtain ⟨hpids, hids⟩ := List.forall_mem_cons.mp hids
    rw [List.foldl_cons, ← settings_put g p.bulk p.vid p.registration]
    have hput : (g.put p.bulk p.vid p.registration).partitions.Sound g.settings.prefixes ∧
        ∀ vid, p.vid ≠ vid → g.partitions.holds vid = false →
          (g.put p.bulk p.vid p.registration).partitions.holds vid = false := by
      cases p.bulk with
      | true =>
        constructor
        · have hrow : ([objectRow p.vid p.registration.rid].map Row.vid).Nodup :=
            List.nodup_singleton p.vid
          apply h.addSplit hpids.2 (List.cons_ne_nil _ _) hrow
          intro row hrow
          rw [List.mem_singleton.mp hrow]
          exact hpfresh
        · intro vid hvid hfree
          rw [Bool.eq_false_iff] at hfree ⊢
          intro hheld
          rcases (PartitionTable.holds_addSplit hpids.1).mp hheld with hold | ⟨row, hrow, heq⟩
          · exact hfree hold
          · rw [List.mem_singleton.mp hrow] at heq
            exact hvid heq
      | false => exact ⟨h, fun _ _ hfree => hfree⟩
    apply ih _ hnodup _ hids
    · rw [settings_put]
      exact hput.1
    · intro q hq
      apply hput.2 q.vid _ (hfresh q hq)
      intro heq
      exact hnew (heq ▸ List.mem_map_of_mem hq)

/-- What is read for an object by itself was read before or comes from a placement. -/
theorem get?_settle {vid : ObjectId} {r : Registration family}
    (h : (g.settle placements).singles.get? vid = some r) :
    g.singles.get? vid = some r ∨
      ∃ p ∈ placements, p.vid = vid ∧ p.registration = r ∧ p.bulk = false := by
  unfold settle at h
  induction placements generalizing g with
  | nil => exact .inl h
  | cons p rest ih =>
    rw [List.foldl_cons] at h
    rcases ih h with hput | ⟨q, hq, hplaced⟩
    · cases hbulk : p.bulk with
      | true =>
        rw [hbulk] at hput
        exact .inl hput
      | false =>
        rw [hbulk] at hput
        by_cases hvid : p.vid = vid
        · right
          subst hvid
          refine ⟨p, List.mem_cons_self, rfl, ?_, hbulk⟩
          exact Option.some.inj ((SortedMap.get?_insert_self _ _ _).symm.trans hput)
        · left
          exact (SortedMap.get?_insert_of_ne g.singles _ hvid).symm.trans hput
    · exact .inr ⟨q, List.mem_cons_of_mem _ hq, hplaced⟩

end Settle

section Conclude

variable {decision : Decision family} {own : Option ReadMode}
  {objects : List (ObjectId × ObjectId)}

theorem Sound.carryOut (h : g.Sound) (hcovers : decision.Covers own objects)
    (hobjects : (objects.map Prod.fst).Nodup) : (g.carryOut decision).Sound := by
  have hids : ∀ p ∈ decision.placements, p.registration.ids ≠ [] ∧
      CounterId.Ascending p.registration.ids := by
    intro p hp
    obtain ⟨hsupported, rid, -, hregistration⟩ := hcovers.placed hp
    rw [hregistration]
    exact ⟨hsupported, hcovers.ascending⟩
  have hknown : ({ g with discovery := decision.discovery } : StatsGroup family).Sound :=
    ⟨h.exclusive, h.table, h.singles⟩
  have huntracked := hknown.untrackAll (decision.placements.map Placement.vid)
  refine ⟨?_, ?_, ?_⟩
  · exact (exclusive_carryOut_iff h.exclusive hcovers).mpr (hcovers.even hobjects)
  · rw [settings_carryOut]
    have htable := table_settle huntracked.table (hcovers.vids_nodup hobjects) (fun p hp => by
      rw [Bool.eq_false_iff, Ne, holds_untrackAll hknown.exclusive]
      exact fun hheld => hheld.1 (List.mem_map_of_mem hp)) hids
    rwa [settings_untrackAll] at htable
  · intro vid r hr
    rcases get?_settle hr with hold | ⟨p, hp, -, rfl, -⟩
    · exact huntracked.singles hold
    · exact hids p hp

/-- A command that registers no object twice keeps a group sound. -/
theorem Sound.conclude (h : g.Sound) {command : GroupCommand} (hdistinct : command.Distinct)
    (hcovers : decision.Covers own command.objects) : (g.conclude decision command).Sound := by
  cases command with
  | add vid rid names asked => exact h.carryOut hcovers hdistinct.objects_nodup
  | addMany vids rids names asked => exact h.carryOut hcovers hdistinct.objects_nodup
  | remove vid =>
    rw [StatsGroup.conclude]
    split
    · exact h.untrack vid
    · exact h
  | removeAll =>
    exact ⟨(sound_initial g.settings).exclusive, PartitionTable.Sound.empty _,
      fun hr => by simp [StatsGroup.conclude, withoutObjects] at hr⟩
  | resize chunkSize =>
    have hexclusive :=
      (exclusive_conclude_iff h.exclusive hcovers).mpr (hcovers.even List.nodup_nil)
    have halike : PrefixConfig.DivideAlike g.settings.prefixes g.settings.prefixes := rfl
    have htable := h.table.resize halike fun name =>
      if name = defaultShare then some chunkSize else none
    exact ⟨hexclusive, htable, h.singles⟩
  | regroup prefixes =>
    have hexclusive :=
      (exclusive_conclude_iff h.exclusive hcovers).mpr (hcovers.even List.nodup_nil)
    rcases g.conclude_regroup decision prefixes with
      ⟨-, -, heq⟩ | ⟨halike, heq⟩ | ⟨-, sets, hmerge, heq⟩
    · rw [heq]
      exact h
    · rw [heq] at hexclusive ⊢
      exact ⟨hexclusive, h.table.resize halike _, h.singles⟩
    · rw [heq] at hexclusive ⊢
      exact ⟨hexclusive, (h.table.regroup hmerge).1, h.singles⟩
  | _ => exact ⟨h.exclusive, h.table, h.singles⟩

end Conclude

/-- Every state that a group may come to is sound. -/
theorem Reachable.sound (h : g.Reachable) : g.Sound := by
  induction h with
  | initial settings => exact sound_initial settings
  | @perform g command switch past _ hdistinct ih =>
    rw [value_perform]
    exact ih.conclude hdistinct ((g.decideOn_always command).value switch past)

/-- In every state that a group may come to the partitions are well formed: each is rightly
filed and has an object at most once, and those of one object agree on its mode and its row,
share no counter and no class, so that one at most has the default name. Without prefixes an
object read in bulk stands in a single one. -/
theorem partitions_wellFormed (h : g.Reachable) :
    (∀ {key p}, g.partitions.get? key = some p →
      p.Fits g.settings.prefixes key ∧ p.vids.Nodup) ∧
    (∀ {key key' p p' row row'}, g.partitions.get? key = some p →
      g.partitions.get? key' = some p' → row ∈ p.rows → row' ∈ p'.rows → row.vid = row'.vid →
      key.mode = key'.mode ∧ row.key = row'.key ∧
        (key ≠ key' → ∀ id ∈ p.ids, ∀ id' ∈ p'.ids,
          id ≠ id' ∧ g.settings.prefixes.classOf id ≠ g.settings.prefixes.classOf id') ∧
        (p.name = defaultShare → p'.name = defaultShare → key = key')) ∧
    (g.settings.prefixes.isEmpty = true → ∀ vid, g.partitions.holds vid = true →
      ∃! key, ∃ p, g.partitions.get? key = some p ∧ p.holds vid = true) := by
  have htable := h.sound.table
  refine ⟨?_, ?_, ?_⟩
  · intro key p hp
    have hnodup := htable.vids_nodup key
    rw [PartitionTable.rowsAt_eq hp] at hnodup
    exact ⟨htable.fits hp, hnodup⟩
  · intro key key' p p' row row' hp hp' hrow hrow' hvid
    exact htable.of_common_object hp hp' hrow hrow' hvid
  · intro hempty vid hheld
    exact htable.existsUnique_of_isEmpty hempty hheld

/-- Two ports whose counters one prefix divides stand in two well-formed partitions. -/
theorem partitions_wellFormed_two_ports :
    let settings : GroupSettings :=
      { GroupSettings.initial (GroupSpec.stats "Port Counter" .portStat "PORT_COUNTER_ID_LIST" none)
          "PORTS" with
        prefixes := ⟨[⟨["SAI_PORT_STAT_IF_IN"], 1⟩]⟩ }
    let added := (initial settings : StatsGroup .portStat).perform (.addMany [1, 2] [0x101, 0x102]
      ["SAI_PORT_STAT_IF_IN_OCTETS", "SAI_PORT_STAT_IF_OUT_OCTETS"] none)
    let g := (added.run (.unchanging (rowFails (.object 0x103))) []).value
    g.partitions.values.map Partition.vids = [[1, 2], [1, 2]] ∧
      ∀ {key p}, g.partitions.get? key = some p →
        p.Fits g.settings.prefixes key ∧ p.vids.Nodup := by
  refine ⟨by decide +kernel, ?_⟩
  exact (partitions_wellFormed (.perform _ _ _ (.initial _) (by decide))).1

end StatsGroup

end CounterPolling
