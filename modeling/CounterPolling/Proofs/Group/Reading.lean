import CounterPolling.Proofs.Group.Calls
import CounterPolling.Proofs.Group.Interfaces

/-!
# What groups of any kind read

A group of any kind is sound if it is so as one of its kind, and stays sound under every command
that registers no object twice. The objects that a sound group tracks are those that it reads a
counter for. Main statements: `Group.Reachable.sound` and `Group.Sound.mem_vids_iff`.
-/

namespace CounterPolling

namespace StatsGroup

variable {family : CounterFamily} {g : StatsGroup family} {vid : ObjectId}

/-- An object is tracked exactly if some counter is registered for it. -/
theorem Sound.mem_vids_iff_registers (h : g.Sound) :
    vid ∈ g.vids ↔ ∃ row id, row.vid = vid ∧ g.Registers row id := by
  rw [mem_vids, h.table.holds_iff_reads, SortedMap.contains_iff_get?]
  constructor
  · rintro (⟨r, hr⟩ | ⟨mode, row, id, hread, hvid⟩)
    · obtain ⟨id, hid⟩ := List.exists_mem_of_ne_nil _ (h.singles hr).1
      exact ⟨objectRow vid r.rid, id, rfl, .inl ⟨r, hr, rfl, hid⟩⟩
    · exact ⟨row, id, hvid, .inr ⟨mode, hread⟩⟩
  · rintro ⟨row, id, rfl, ⟨r, hr, -, -⟩ | ⟨mode, hread⟩⟩
    · exact .inl ⟨r, hr⟩
    · exact .inr ⟨mode, row, id, hread, rfl⟩

end StatsGroup

namespace Group

variable {group : Group} {vid : ObjectId}

/-- A pass reads a counter for a row. -/
def Reads (group : Group) (row : Row) (raw : Int) : Prop :=
  match group with
  | stats _ g => ∃ id, g.Registers row id ∧ id.raw = raw
  | attributes _ g => ∃ list, g.objects.get? row.vid = some list ∧ row.key = .object list.rid ∧
      raw ∈ CounterId.raws list.ids
  | meterBuckets g => ∃ ids p, g.partitions.get? ids = some p ∧ row ∈ p.rows ∧
      raw ∈ CounterId.raws p.ids

/-- A group is sound if it is so as one of its kind. In a group of attributes every object has some
that are read. -/
def Sound : Group → Prop
  | stats _ g => g.Sound
  | attributes _ g => ∀ vid list, g.objects.get? vid = some list → list.ids ≠ []
  | meterBuckets g => g.Sound

theorem sound_initial (settings : GroupSettings) : (initial settings).Sound := by
  unfold initial
  split
  · exact StatsGroup.sound_initial settings
  · exact fun _ _ hlist => absurd hlist (by simp [AttributeGroup.initial])
  · exact MeterGroup.sound_initial settings

theorem Sound.stats_perform {family : CounterFamily} {g : StatsGroup family}
    (h : (stats family g).Sound) {command : GroupCommand} (hdistinct : command.Distinct) :
    ((stats family g).perform command).Always Sound := by
  rw [perform_stats, Dialogue.always_map]
  refine (g.perform_always command).mono ?_
  rintro after ⟨decision, hcovers, rfl⟩
  exact StatsGroup.Sound.conclude h hdistinct hcovers

theorem Sound.meterBuckets_perform {g : MeterGroup} (h : (meterBuckets g).Sound)
    (command : GroupCommand) : ((meterBuckets g).perform command).Always Sound := by
  rw [MeterGroup.perform_meterBuckets, Dialogue.always_map]
  exact MeterGroup.Sound.perform h command

/-- Registering an object keeps a group sound. -/
theorem Sound.add (h : group.Sound) (vid rid : ObjectId) (names : List String)
    (asked : Option ReadMode) : (group.add vid rid names asked).Always Sound := by
  cases group with
  | stats family g =>
    have hdistinct : (GroupCommand.add vid rid names asked).Distinct := trivial
    exact h.stats_perform hdistinct
  | meterBuckets g => exact h.meterBuckets_perform (.add vid rid names asked)
  | attributes family g =>
    rw [Group.add, Dialogue.always_map]
    refine (g.add_always vid rid names).mono ?_
    rintro after (⟨-, rfl⟩ | ⟨hoffered, rfl⟩)
    · exact h
    · intro other list hlist
      by_cases hother : vid = other
      · subst hother
        rw [SortedMap.get?_insert_self] at hlist
        cases hlist
        exact hoffered
      · rw [SortedMap.get?_insert_of_ne _ _ hother] at hlist
        exact h other list hlist

/-- Dropping an object keeps a group of attributes sound. -/
theorem Sound.attributes_without {family : CounterFamily} {g : AttributeGroup family}
    (h : (attributes family g).Sound) (vid : ObjectId) :
    ((attributes family g).without vid).Sound := by
  intro other list hlist
  by_cases hother : vid = other
  · subst hother
    rw [SortedMap.get?_erase_self] at hlist
    cases hlist
  · rw [SortedMap.get?_erase_of_ne _ hother] at hlist
    exact h other list hlist

/-- A command that registers no object twice keeps a group of any kind sound. -/
theorem Sound.perform (h : group.Sound) {command : GroupCommand} (hdistinct : command.Distinct) :
    (group.perform command).Always Sound := by
  cases group with
  | stats family g => exact h.stats_perform hdistinct
  | meterBuckets g => exact h.meterBuckets_perform command
  | attributes family g =>
    cases command with
    | add vid rid names asked => exact h.add vid rid names asked
    | addMany vids rids names asked =>
      exact Dialogue.Always.carry (fun before hbefore object _ => hbefore.add _ _ _ _) h
    | remove vid =>
      refine (remove_always (attributes family g) vid).mono ?_
      rintro _ rfl
      exact h.attributes_without vid
    | removeAll => exact fun _ _ hlist => absurd hlist (by simp [AttributeGroup.withoutObjects])
    | runPlugins arguments => exact Dialogue.always_bind_of_forall fun _ => h
    | poll => exact Dialogue.always_bind_of_forall fun _ => h
    | _ => exact h

/-- A state that commands bring a group of any kind to. None registers an object twice, and the
driver answers as it likes. -/
inductive Reachable : Group → Prop
  | initial (settings : GroupSettings) : Reachable (Group.initial settings)
  | perform {group : Group} (command : GroupCommand) (switch : Switch) (past : List Event) :
    Reachable group → command.Distinct → Reachable ((group.perform command).run switch past).value

theorem Reachable.sound (h : group.Reachable) : group.Sound := by
  induction h with
  | initial settings => exact sound_initial settings
  | perform command switch past _ hdistinct ih =>
    exact (ih.perform hdistinct).value switch past

/-- An object is tracked exactly if some counter is read for it. -/
theorem Sound.mem_vids_iff (h : group.Sound) :
    vid ∈ group.vids ↔ ∃ row raw, row.vid = vid ∧ group.Reads row raw := by
  cases group with
  | stats family g =>
    refine (StatsGroup.Sound.mem_vids_iff_registers h).trans ?_
    constructor
    · rintro ⟨row, id, hvid, hregistered⟩
      exact ⟨row, id.raw, hvid, id, hregistered, rfl⟩
    · rintro ⟨row, _, hvid, id, hregistered, -⟩
      exact ⟨row, id, hvid, hregistered⟩
  | attributes family g =>
    rw [vids, AttributeGroup.vids, ← SortedMap.contains_iff, SortedMap.contains_iff_get?]
    constructor
    · rintro ⟨list, hlist⟩
      obtain ⟨id, hid⟩ := List.exists_mem_of_ne_nil _ (h vid list hlist)
      exact ⟨objectRow vid list.rid, id.raw, rfl, list, hlist, rfl, List.mem_map_of_mem hid⟩
    · rintro ⟨row, raw, rfl, list, hlist, -⟩
      exact ⟨list, hlist⟩
  | meterBuckets g =>
    refine (MeterGroup.Sound.mem_vids_iff h).trans ?_
    constructor
    · rintro ⟨ids, p, hp, hheld⟩
      obtain ⟨row, hrow, hvid⟩ := Partition.holds_iff_mem.mp hheld
      obtain ⟨-, hids, hne, -⟩ := MeterGroup.Sound.filed h ids p hp
      obtain ⟨id, hid⟩ := List.exists_mem_of_ne_nil ids hne
      exact ⟨row, id.raw, hvid, ids, p, hp, hrow, hids ▸ List.mem_map_of_mem hid⟩
    · rintro ⟨row, raw, hvid, ids, p, hp, hrow, -⟩
      exact ⟨ids, p, hp, Partition.holds_iff_mem.mpr ⟨row, hrow, hvid⟩⟩

end Group

end CounterPolling
