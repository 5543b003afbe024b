import CounterPolling.Proofs.Data.Exchange
import CounterPolling.Proofs.Group.Changes
import CounterPolling.Proofs.Group.Discovery

/-!
# Registering together and in turn

Registering objects together saves questions: the counters are found out once, the shares are
tried over all objects at a time, and only the objects for which that fails are tried by
themselves. With a driver that never changes, tells the same of all objects and judges row by
row, the group comes out as if each object had been registered by itself, one after the other.
Main statement: `addMany_tracks_as_in_turn`.
-/

namespace CounterPolling

variable {family : CounterFamily} {driver : Driver}

namespace PartitionTable

variable {table table' : PartitionTable family}

/-- Tables that have the same rows under each key, and no partition without rows, stand for the
same counter sets. -/
theorem wholeSets_congr (hrows : ∀ {key p}, table.get? key = some p → p.rows ≠ [])
    (hrows' : ∀ {key p}, table'.get? key = some p → p.rows ≠ [])
    (h : ∀ key, table.rowsAt key = table'.rowsAt key) : table.wholeSets = table'.wholeSets := by
  have hsets : ∀ table : PartitionTable family, table.wholeSets =
      (table.map fun _ p => p.rows).entries.map fun entry =>
        (⟨entry.1.mode, entry.1.ids, entry.2⟩ : WholeSet family) := by
    intro table
    rw [SortedMap.entries_map, List.map_map]
    rfl
  have hmap : (table.map fun _ p => p.rows) = table'.map fun _ p => p.rows := by
    refine SortedMap.ext_get? fun key => ?_
    rw [SortedMap.get?_map, SortedMap.get?_map]
    have hkey := h key
    cases hp : table.get? key with
    | none =>
      cases hp' : table'.get? key with
      | none => rfl
      | some p' =>
        rw [rowsAt_eq hp', rowsAt, hp] at hkey
        exact absurd hkey.symm (hrows' hp')
    | some p =>
      cases hp' : table'.get? key with
      | none =>
        rw [rowsAt_eq hp, rowsAt, hp'] at hkey
        exact absurd hkey (hrows hp)
      | some p' =>
        rw [rowsAt_eq hp, rowsAt_eq hp'] at hkey
        rw [Option.map_some, Option.map_some, hkey]
  rw [hsets, hsets, hmap]

end PartitionTable

namespace StatsGroup

variable {g g' : StatsGroup family}

/-- The groups track the same objects by themselves, and have the same rows under each key. -/
structure SameRows (g g' : StatsGroup family) : Prop where
  settings : g.settings = g'.settings
  discovery : g.discovery = g'.discovery
  singles : g.singles = g'.singles
  rowsAt : ∀ key, g.partitions.rowsAt key = g'.partitions.rowsAt key

/-- The rows under a key after an object was placed in bulk. -/
theorem rowsAt_putBulk (g : StatsGroup family) (vid : ObjectId) (r : Registration family)
    (key : PartitionKey family) :
    (g.putBulk vid r).partitions.rowsAt key = g.partitions.rowsAt key ++
      if key.mode = r.mode ∧
          key.ids ∈ (g.settings.prefixes.split g.settings.chunkSize r.ids).map Share.ids
      then [objectRow vid r.rid] else [] :=
  PartitionTable.rowsAt_addShares PrefixConfig.split_ids_nodup _ _

/-- The rows under a key after an object was dropped, unless it was tracked by itself. -/
theorem rowsAt_untrack (g : StatsGroup family) (vid : ObjectId) (key : PartitionKey family) :
    (g.untrack vid).partitions.rowsAt key =
      if g.singles.contains vid then g.partitions.rowsAt key
      else (g.partitions.rowsAt key).filter fun row => row.vid != vid := by
  unfold untrack
  split
  · rfl
  · exact PartitionTable.rowsAt_remove _ _ _

namespace SameRows

theorem refl (g : StatsGroup family) : g.SameRows g := ⟨rfl, rfl, rfl, fun _ => rfl⟩

theorem trans {g'' : StatsGroup family} (h : g.SameRows g') (h' : g'.SameRows g'') :
    g.SameRows g'' where
  settings := h.settings.trans h'.settings
  discovery := h.discovery.trans h'.discovery
  singles := h.singles.trans h'.singles
  rowsAt key := (h.rowsAt key).trans (h'.rowsAt key)

theorem untrack (h : g.SameRows g') (vid : ObjectId) : (g.untrack vid).SameRows (g'.untrack vid)
    where
  settings := by rw [settings_untrack, settings_untrack, h.settings]
  discovery := by rw [discovery_untrack, discovery_untrack, h.discovery]
  singles := by rw [singles_untrack, singles_untrack, h.singles]
  rowsAt key := by rw [rowsAt_untrack, rowsAt_untrack, h.singles, h.rowsAt]

theorem untrackAll (h : g.SameRows g') (vids : List ObjectId) :
    (g.untrackAll vids).SameRows (g'.untrackAll vids) := by
  unfold StatsGroup.untrackAll
  induction vids generalizing g g' with
  | nil => exact h
  | cons vid rest ih => exact ih (h.untrack vid)

theorem put (h : g.SameRows g') (p : Placement family) :
    (g.put p.bulk p.vid p.registration).SameRows (g'.put p.bulk p.vid p.registration) where
  settings := by rw [settings_put, settings_put, h.settings]
  discovery := by rw [discovery_put, discovery_put, h.discovery]
  singles := by
    cases p.bulk with
    | true => exact h.singles
    | false => exact congrArg (SortedMap.insert · p.vid p.registration) h.singles
  rowsAt key := by
    cases p.bulk with
    | true =>
      change (g.putBulk p.vid p.registration).partitions.rowsAt key =
        (g'.putBulk p.vid p.registration).partitions.rowsAt key
      rw [rowsAt_putBulk, rowsAt_putBulk, h.rowsAt, h.settings]
    | false => exact h.rowsAt key

theorem settle (h : g.SameRows g') (placements : List (Placement family)) :
    (g.settle placements).SameRows (g'.settle placements) := by
  unfold StatsGroup.settle
  induction placements generalizing g g' with
  | nil => exact h
  | cons p rest ih => exact ih (h.put p)

end SameRows

/-- It does not matter whether an object is dropped before or after another one is placed. -/
theorem sameRows_untrack_put (g : StatsGroup family) (p : Placement family) {vid : ObjectId}
    (hvid : p.vid ≠ vid) :
    ((g.put p.bulk p.vid p.registration).untrack vid).SameRows
      ((g.untrack vid).put p.bulk p.vid p.registration) where
  settings := by rw [settings_untrack, settings_put, settings_put, settings_untrack]
  discovery := by rw [discovery_untrack, discovery_put, discovery_put, discovery_untrack]
  singles := by
    rw [singles_untrack]
    cases p.bulk with
    | true => exact (singles_untrack g vid).symm
    | false =>
      change (g.singles.insert p.vid p.registration).erase vid =
        (g.untrack vid).singles.insert p.vid p.registration
      rw [singles_untrack, SortedMap.erase_insert_comm _ hvid]
  rowsAt key := by
    rw [rowsAt_untrack]
    cases p.bulk with
    | true =>
      change (if g.singles.contains vid then (g.putBulk p.vid p.registration).partitions.rowsAt key
        else ((g.putBulk p.vid p.registration).partitions.rowsAt key).filter fun row =>
          row.vid != vid) = ((g.untrack vid).putBulk p.vid p.registration).partitions.rowsAt key
      rw [rowsAt_putBulk, rowsAt_putBulk, rowsAt_untrack, settings_untrack]
      split
      · rfl
      · rw [List.filter_append]
        refine congrArg _ ?_
        split
        · simp [objectRow, hvid]
        · rfl
    | false =>
      have hcontains : (g.singles.insert p.vid p.registration).contains vid =
          g.singles.contains vid := by
        rw [Bool.eq_iff_iff, SortedMap.contains_insert]
        exact or_iff_right hvid
      change (if (g.singles.insert p.vid p.registration).contains vid
        then g.partitions.rowsAt key
        else (g.partitions.rowsAt key).filter fun row => row.vid != vid) =
          (g.untrack vid).partitions.rowsAt key
      rw [hcontains, rowsAt_untrack]

theorem sameRows_untrackAll_put (g : StatsGroup family) (p : Placement family)
    {vids : List ObjectId} (hvids : p.vid ∉ vids) :
    ((g.put p.bulk p.vid p.registration).untrackAll vids).SameRows
      ((g.untrackAll vids).put p.bulk p.vid p.registration) := by
  induction vids generalizing g with
  | nil => exact .refl _
  | cons vid rest ih =>
    obtain ⟨hvid, hrest⟩ := List.ne_and_not_mem_of_not_mem_cons hvids
    exact ((g.sameRows_untrack_put p hvid).untrackAll rest).trans (ih (g.untrack vid) hrest)

/-- Tracks an object the way that was decided, in place of an earlier registration. -/
def renew (g : StatsGroup family) (p : Placement family) : StatsGroup family :=
  (g.untrack p.vid).put p.bulk p.vid p.registration

@[simp]
theorem settings_renew (g : StatsGroup family) (p : Placement family) :
    (g.renew p).settings = g.settings := by
  rw [renew, settings_put, settings_untrack]

@[simp]
theorem discovery_renew (g : StatsGroup family) (p : Placement family) :
    (g.renew p).discovery = g.discovery := by
  rw [renew, discovery_put, discovery_untrack]

/-- Placing objects one by one comes to the same as dropping all of them first. -/
theorem sameRows_renew_settle (g : StatsGroup family) {placements : List (Placement family)}
    (hnodup : (placements.map Placement.vid).Nodup) :
    (placements.foldl renew g).SameRows
      ((g.untrackAll (placements.map Placement.vid)).settle placements) := by
  induction placements generalizing g with
  | nil => exact .refl _
  | cons p rest ih =>
    obtain ⟨hfirst, hrest⟩ := List.nodup_cons.mp hnodup
    refine (ih _ hrest).trans ?_
    exact ((g.untrack p.vid).sameRows_untrackAll_put p hfirst).settle rest

section Decisions

variable {Readable : ReadMode → RowKey → Int → Prop}

/-- The way that an object is tracked with some counters, as a trial of its own decides. -/
def placement (g : StatsGroup family) (driver : Driver) (ids : List (CounterId family))
    (own : Option ReadMode) (object : ObjectId × ObjectId) : Placement family :=
  ⟨object.1, ⟨object.2, ids, own⟩, (g.trial ⟨object.2, ids, own⟩).valueWith driver⟩

/-- Objects are placed by trials of their own, unless there is nothing to read for them. -/
def placements (g : StatsGroup family) (driver : Driver) (ids : List (CounterId family))
    (own : Option ReadMode) (objects : List (ObjectId × ObjectId)) : List (Placement family) :=
  if ids = [] then [] else objects.map (g.placement driver ids own)

/-- With a driver that judges row by row each object is placed as by a trial of its own, however
many are registered together. -/
theorem placements_of_judgesRows (h : driver.JudgesRows g.kind Readable) (command : GroupCommand) :
    ((g.decideOn command).valueWith driver).placements =
      g.placements driver ((g.decideOn command).valueWith driver).supported
        (g.settings.objectMode command.asked) command.objects := by
  have hcovers := (g.decideOn_always command).value (.unchanging driver) []
  have hbulk := bulk_iff_readable h command
  change Decision.Covers ((g.decideOn command).valueWith driver) _ _ at hcovers
  generalize (g.decideOn command).valueWith driver = decision at *
  unfold placements
  split
  · next hnone => exact hcovers.placements_eq_nil hnone
  · next hsome =>
    apply placements_eq (P := fun entry => g.AllReadable Readable entry.2) _ hbulk
    · intro p hp
      obtain ⟨object, -, rfl⟩ := List.mem_map.mp hp
      exact trial_iff h _
    · rw [hcovers.entries_eq hsome, List.map_map]
      rfl

theorem placements_cons (g : StatsGroup family) (ids : List (CounterId family))
    (own : Option ReadMode) (object : ObjectId × ObjectId) (rest : List (ObjectId × ObjectId)) :
    g.placements driver ids own (object :: rest) =
      g.placements driver ids own [object] ++ g.placements driver ids own rest := by
  unfold placements
  split <;> rfl

theorem placements_congr (h : g.settings = g'.settings) (ids : List (CounterId family))
    (own : Option ReadMode) (objects : List (ObjectId × ObjectId)) :
    g.placements driver ids own objects = g'.placements driver ids own objects := by
  have hplacement : g.placement driver ids own = g'.placement driver ids own := by
    funext object
    rw [placement, placement, trial_congr h]
  rw [placements, placements, hplacement]

theorem placements_vids_nodup (ids : List (CounterId family)) (own : Option ReadMode)
    {objects : List (ObjectId × ObjectId)} (h : (objects.map Prod.fst).Nodup) :
    ((g.placements driver ids own objects).map Placement.vid).Nodup := by
  unfold placements
  split
  · exact List.nodup_nil
  · rw [List.map_map]
    exact h

/-- What one object is placed as is all that there is to carry out for it. -/
theorem carryOut_single (g : StatsGroup family) (discovery : Discovery family)
    (ids : List (CounterId family)) (own : Option ReadMode) (object : ObjectId × ObjectId) :
    g.carryOut ⟨discovery, ids, g.placements driver ids own [object]⟩ =
      (g.placements driver ids own [object]).foldl renew { g with discovery := discovery } := by
  unfold placements
  split <;> rfl

/-- A group finds out nothing more by asking again. -/
theorem learnt_idem (object : ObjectId) (mode : ReadMode) (names : List String)
    (hsettings : g'.settings = g.settings)
    (hdiscovery : g'.discovery = g.learnt driver object mode names) :
    g'.learnt driver object mode names = g.learnt driver object mode names := by
  unfold learnt kind at *
  rw [hdiscovery, hsettings]
  exact Discovery.refreshed_refreshed _ _ _ _ _ _

/-- What registering objects comes to, with any object as the example. -/
theorem valueWith_perform (halike : driver.SupportsAlike g.kind family.kind)
    (hjudges : driver.JudgesRows g.kind Readable) {command : GroupCommand}
    (hobjects : command.objects ≠ []) (object : ObjectId) :
    let known := g.learnt driver object (g.settings.modeFor command.asked) command.names
    let ids := known.select (family.requested command.names)
    (g.perform command).valueWith driver = g.carryOut
      ⟨known, ids,
        g.placements driver ids (g.settings.objectMode command.asked) command.objects⟩ := by
  intro known ids
  obtain ⟨first, others, hfirst⟩ := List.exists_cons_of_ne_nil hobjects
  obtain ⟨hknown, hids⟩ := g.decideOn_learnt driver hfirst
  rw [g.learnt_congr halike first.2 object] at hknown hids
  have hplacements := placements_of_judgesRows hjudges command
  rw [hids] at hplacements
  rw [Dialogue.valueWith, value_perform, conclude_of_objects g hobjects]
  change g.carryOut ((g.decideOn command).valueWith driver) = _
  generalize (g.decideOn command).valueWith driver = decision at *
  cases decision
  cases hknown
  cases hids
  cases hplacements
  rfl

/-- Registers objects with the same counters one after the other. -/
def addInTurn (g : StatsGroup family) (objects : List (ObjectId × ObjectId))
    (names : List String) (asked : Option ReadMode) : Dialogue (StatsGroup family) :=
  Dialogue.carry (fun g object => g.add object.1 object.2 names asked) g objects

/-- Registering objects in turn finds out about their counters once. -/
theorem valueWith_addInTurn (halike : driver.SupportsAlike g.kind family.kind)
    (hjudges : driver.JudgesRows g.kind Readable) {objects : List (ObjectId × ObjectId)}
    (hobjects : objects ≠ []) (names : List String) (asked : Option ReadMode)
    (object : ObjectId) :
    let known := g.learnt driver object (g.settings.modeFor asked) names
    let ids := known.select (family.requested names)
    (g.addInTurn objects names asked).valueWith driver =
      (g.placements driver ids (g.settings.objectMode asked) objects).foldl renew
        { g with discovery := known } := by
  intro known ids
  induction objects generalizing g with
  | nil => exact absurd rfl hobjects
  | cons first rest ih =>
    have hone : (GroupCommand.add first.1 first.2 names asked).objects ≠ [] :=
      List.cons_ne_nil _ _
    have hfirst : (g.add first.1 first.2 names asked).valueWith driver =
        (g.placements driver ids (g.settings.objectMode asked) [first]).foldl renew
          { g with discovery := known } := by
      rw [← g.carryOut_single known ids]
      exact g.valueWith_perform halike hjudges hone object
    rw [addInTurn, Dialogue.carry, Dialogue.valueWith_bind, hfirst]
    cases rest with
    | nil => rfl
    | cons second rest =>
      rw [g.placements_cons ids _ first (second :: rest), List.foldl_append]
      generalize hnext : (g.placements driver ids (g.settings.objectMode asked) [first]).foldl
        renew { g with discovery := known } = next
      have hsettings : next.settings = g.settings := by
        rw [← hnext]
        exact foldl_keeps StatsGroup.settings settings_renew _ _
      have hdiscovery : next.discovery = known := by
        rw [← hnext]
        exact foldl_keeps StatsGroup.discovery discovery_renew _ _
      have hlearnt : next.learnt driver object (g.settings.modeFor asked) names = known :=
        g.learnt_idem object _ names hsettings hdiscovery
      have hkind : next.kind = g.kind := congrArg (fun settings => settings.spec.kind) hsettings
      have hlater := ih (g := next) (hkind ▸ halike) (hkind ▸ hjudges) (List.cons_ne_nil _ _)
      dsimp only at hlater
      rw [hsettings, hlearnt, placements_congr hsettings] at hlater
      have hsame : (⟨g.settings, known, next.singles, next.partitions⟩ : StatsGroup family) =
          next := by
        rw [← hsettings, ← hdiscovery]
      rw [hsame] at hlater
      exact hlater

theorem Reachable.addInTurn (h : g.Reachable) (objects : List (ObjectId × ObjectId))
    (names : List String) (asked : Option ReadMode) :
    ((g.addInTurn objects names asked).valueWith driver).Reachable := by
  unfold StatsGroup.addInTurn
  induction objects generalizing g with
  | nil => exact h
  | cons object rest ih =>
    rw [Dialogue.carry, Dialogue.valueWith_bind]
    exact ih (h.perform (.add object.1 object.2 names asked) _ _ trivial)

/-- With a driver that never changes, tells the same of all objects and judges row by row,
registering objects together leaves a group as registering them in turn does: the same objects
are tracked by themselves, the same counter sets are read for the same rows in the same order,
and the same is known about the counters. -/
theorem addMany_tracks_as_in_turn (h : g.Reachable) {vids rids : List ObjectId}
    (hlength : vids.length = rids.length) (hnodup : vids.Nodup) (names : List String)
    (asked : Option ReadMode) (halike : driver.SupportsAlike g.kind family.kind)
    (hjudges : driver.JudgesRows g.kind Readable) :
    let together := (g.addMany vids rids names asked).valueWith driver
    let inTurn := (g.addInTurn (vids.zip rids) names asked).valueWith driver
    together.singles = inTurn.singles ∧
      together.partitions.wholeSets = inTurn.partitions.wholeSets ∧
      together.discovery = inTurn.discovery ∧ together.settings = inTurn.settings := by
  intro together inTurn
  have htogether : together.Reachable := h.perform (.addMany vids rids names asked) _ _ hnodup
  have hinTurn : inTurn.Reachable := h.addInTurn _ _ _
  suffices hsame : inTurn.SameRows together by
    refine ⟨hsame.singles.symm, ?_, hsame.discovery.symm, hsame.settings.symm⟩
    exact PartitionTable.wholeSets_congr (fun hp => (htogether.sound.table.fits hp).rows_ne_nil)
      (fun hp => (hinTurn.sound.table.fits hp).rows_ne_nil) fun key => (hsame.rowsAt key).symm
  have hobjects : (GroupCommand.addMany vids rids names asked).objects = vids.zip rids :=
    if_pos hlength
  by_cases hnone : vids.zip rids = []
  · have hsame : together = g := by
      change ((g.perform (.addMany vids rids names asked)).run _ _).value = g
      rw [value_perform]
      change g.carryOut ((g.decideOn _).valueWith driver) = g
      rw [valueWith_decideOn_of_nil (hobjects.trans hnone), carryOut_nil]
    have hnothing : inTurn = g := by
      change (g.addInTurn (vids.zip rids) names asked).valueWith driver = g
      rw [hnone]
      rfl
    rw [hsame, hnothing]
    exact .refl g
  · let object : ObjectId := 0
    have heach := g.valueWith_addInTurn halike hjudges hnone names asked object
    have hall := g.valueWith_perform halike hjudges (hobjects ▸ hnone) object
    change inTurn = _ at heach
    change together = _ at hall
    rw [hobjects] at hall
    rw [heach, hall, carryOut]
    refine sameRows_renew_settle _ (placements_vids_nodup _ _ ?_)
    rwa [List.map_fst_zip hlength.le]

/-- Three ports, one of which cannot be read in bulk and another of which was registered before,
come out the same together and in turn. -/
theorem addMany_tracks_as_in_turn_three_ports :
    let settings : GroupSettings :=
      { GroupSettings.initial (GroupSpec.stats "Port Counter" .portStat "PORT_COUNTER_ID_LIST" none)
          "PORTS" with
        prefixes := ⟨[⟨["SAI_PORT_STAT_IF_IN"], 1⟩]⟩ }
    let rules : BulkRules := ⟨fun _ => False, fun key _ => key ≠ .object 0x102, fun _ _ => 7⟩
    let names := ["SAI_PORT_STAT_IF_IN_OCTETS", "SAI_PORT_STAT_IF_OUT_OCTETS"]
    let g := ((initial settings : StatsGroup .portStat).perform
      (.add 3 0x103 names none)).valueWith rules.driver
    let together := (g.addMany [1, 2, 3] [0x101, 0x102, 0x103] names none).valueWith rules.driver
    let inTurn := (g.addInTurn ([1, 2, 3].zip [0x101, 0x102, 0x103]) names none).valueWith
      rules.driver
    together.singles.keys = [2] ∧ together.partitions.values.map Partition.vids = [[1, 3], [1, 3]] ∧
      together.singles = inTurn.singles ∧
      together.partitions.wholeSets = inTurn.partitions.wholeSets ∧
      together.discovery = inTurn.discovery ∧ together.settings = inTurn.settings := by
  intro settings rules names g together inTurn
  refine ⟨by decide +kernel, by decide +kernel, ?_⟩
  have hreachable : g.Reachable := .perform _ _ _ (.initial settings) trivial
  have hlength : [1, 2, (3 : ObjectId)].length = [0x101, 0x102, (0x103 : ObjectId)].length := rfl
  have hsame := addMany_tracks_as_in_turn hreachable hlength (by decide) names none
    (rules.supportsAlike_driver g.kind _) (rules.governs_driver g.kind).judgesRows
  exact hsame

end Decisions

end StatsGroup

end CounterPolling
