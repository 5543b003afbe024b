import CounterPolling.Proofs.Group.Changes

/-!
# What a group may come to track

Groups of all kinds are told the same commands. Whatever the driver answers, a command leaves
a group what it is, and has it track nothing but what it tracked already and the objects that
the command registers. Main statement: `Group.perform_admits`.
-/

namespace CounterPolling

namespace GroupCommand

/-- The objects that a command names for registration, be the lists even or not. -/
def vids : GroupCommand → List ObjectId
  | add vid _ _ _ => [vid]
  | addMany vids _ _ _ => vids
  | _ => []

theorem distinct_of_vids_nodup {command : GroupCommand} (h : command.vids.Nodup) :
    command.Distinct := by
  cases command with
  | addMany vids rids names asked => exact h
  | _ => trivial

theorem mem_vids_of_mem_objects {command : GroupCommand} {vid : ObjectId}
    (h : vid ∈ command.objects.map Prod.fst) : vid ∈ command.vids := by
  cases command with
  | add vid' rid names asked => exact h
  | addMany vids rids names asked =>
    rw [objects] at h
    split at h
    · obtain ⟨object, hobject, rfl⟩ := List.mem_map.mp h
      exact (List.of_mem_zip hobject).1
    · exact absurd h List.not_mem_nil
  | _ => exact absurd h List.not_mem_nil

end GroupCommand

namespace StatsGroup

variable {family : CounterFamily} {g : StatsGroup family}

/-- In every branch a command concludes with a decision on its objects. -/
theorem perform_always (g : StatsGroup family) (command : GroupCommand) :
    (g.perform command).Always fun after => ∃ decision : Decision family,
      decision.Covers (g.settings.objectMode command.asked) command.objects ∧
        after = g.conclude decision command := by
  have hnothing := Decision.covers_nothing g.discovery (g.settings.objectMode command.asked)
    command.objects
  cases command with
  | add vid rid names asked =>
    rw [perform, add_eq]
    exact (g.decideAdd_always vid rid names asked).bind fun decision h => ⟨decision, h, rfl⟩
  | addMany vids rids names asked =>
    rw [perform, addMany_eq]
    exact (g.decideAddMany_always vids rids names asked).bind fun decision h =>
      ⟨decision, h, rfl⟩
  | remove vid =>
    rw [perform, remove]
    split
    · next htracks => exact ⟨_, hnothing, (if_pos htracks).symm⟩
    · next htracks =>
      exact Dialogue.always_bind_of_forall fun _ => ⟨_, hnothing, (if_neg htracks).symm⟩
  | runPlugins arguments => exact Dialogue.always_bind_of_forall fun _ => ⟨_, hnothing, rfl⟩
  | poll => exact Dialogue.always_bind_of_forall fun _ => ⟨_, hnothing, rfl⟩
  | _ => exact ⟨_, hnothing, rfl⟩

/-- A registration has nothing tracked but what was tracked before and its own objects. -/
theorem mem_vids_of_carryOut (h : g.Exclusive) {decision : Decision family}
    {own : Option ReadMode} {objects : List (ObjectId × ObjectId)}
    (hcovers : decision.Covers own objects) {vid : ObjectId}
    (hvid : vid ∈ (g.carryOut decision).vids) : vid ∈ g.vids ∨ vid ∈ objects.map Prod.fst := by
  have hplaced : ∀ p ∈ decision.placements, p.vid ∈ objects.map Prod.fst := by
    intro p hp
    obtain ⟨-, rid, hobject, -⟩ := hcovers.placed hp
    exact List.mem_map_of_mem hobject
  rw [mem_vids, contains_carryOut, holds_carryOut h hcovers] at hvid
  rcases hvid with (⟨-, hsingle⟩ | ⟨p, hp, rfl, -⟩) | (⟨-, hbulk⟩ | ⟨p, hp, rfl, -⟩)
  · exact .inl (mem_vids.mpr (.inl hsingle))
  · exact .inr (hplaced p hp)
  · exact .inl (mem_vids.mpr (.inr hbulk))
  · exact .inr (hplaced p hp)

/-- What is tracked after a command was tracked before or is registered by the command. -/
theorem mem_vids_of_conclude (h : g.Exclusive) {command : GroupCommand}
    {decision : Decision family} {own : Option ReadMode}
    (hcovers : decision.Covers own command.objects) {vid : ObjectId}
    (hvid : vid ∈ (g.conclude decision command).vids) :
    vid ∈ g.vids ∨ vid ∈ command.vids := by
  cases command with
  | add vid' rid names asked =>
    exact (mem_vids_of_carryOut h hcovers hvid).imp id GroupCommand.mem_vids_of_mem_objects
  | addMany vids rids names asked =>
    exact (mem_vids_of_carryOut h hcovers hvid).imp id GroupCommand.mem_vids_of_mem_objects
  | remove vid' =>
    rw [conclude] at hvid
    split at hvid
    · rw [mem_vids, contains_untrack, holds_untrack h] at hvid
      exact .inl (mem_vids.mpr (hvid.imp And.right And.right))
    · exact .inl hvid
  | removeAll => exact absurd hvid List.not_mem_nil
  | resize chunkSize =>
    simp only [conclude, withChunkSize, mem_vids, PartitionTable.holds_resize] at hvid
    exact .inl (mem_vids.mpr hvid)
  | regroup prefixes =>
    obtain ⟨hsingles, hheld⟩ := g.regroup_tracks decision prefixes
    rw [mem_vids, hsingles] at hvid
    exact .inl (mem_vids.mpr (hvid.imp id (hheld vid)))
  | _ => exact .inl hvid

end StatsGroup

namespace Group

theorem settings_initial (settings : GroupSettings) : (initial settings).settings = settings := by
  unfold initial
  split <;> rfl

/-- Does what a command says; a refused change of prefixes does nothing. -/
def perform (group : Group) : GroupCommand → Dialogue Group
  | .add vid rid names asked => group.add vid rid names asked
  | .addMany vids rids names asked => group.addMany vids rids names asked
  | .remove vid => group.remove vid
  | .removeAll => return group.withoutObjects
  | .resize chunkSize => return group.withChunkSize chunkSize
  | .regroup prefixes => return ((group.withPrefixes prefixes).toOption).getD group
  | .changeMode mode => return group.withMode mode
  | .addPlugins plugins => return group.withPlugins plugins
  | .dropPlugins => return group.withoutPlugins
  | .runPlugins arguments => do
    group.runPlugins arguments
    return group
  | .poll => do
    group.poll
    return group

/-- A group of counters does what its commands say. -/
theorem perform_stats {family : CounterFamily} (g : StatsGroup family)
    (command : GroupCommand) :
    (stats family g).perform command = stats family <$> g.perform command := by
  cases command with
  | regroup prefixes =>
    have hmap : ∀ outcome : Except ConfigError (StatsGroup family),
        ((stats family <$> outcome).toOption).getD (stats family g) =
          stats family (outcome.toOption.getD g) := by
      intro outcome
      cases outcome with
      | error refusal => rfl
      | ok after => rfl
    exact congrArg Dialogue.done (hmap (g.withPrefixes prefixes))
  | runPlugins arguments =>
    rw [perform, StatsGroup.perform, map_bind]
    rfl
  | poll =>
    rw [perform, StatsGroup.perform, map_bind]
    rfl
  | _ => rfl

/-- No object is tracked in two ways; only groups of counters have two. -/
def Exclusive : Group → Prop
  | stats _ g => g.Exclusive
  | attributes .. | meterBuckets .. => True

/-- A group is what it was, and tracks nothing but what it tracked and some objects more. -/
structure Admits (before : Group) (objects : List ObjectId) (after : Group) : Prop where
  spec_eq : after.settings.spec = before.settings.spec
  exclusive : after.Exclusive
  mem_vids : ∀ vid ∈ after.vids, vid ∈ before.vids ∨ vid ∈ objects

theorem Admits.refl {group : Group} (h : group.Exclusive) (objects : List ObjectId) :
    group.Admits objects group :=
  ⟨rfl, h, fun _ hvid => .inl hvid⟩

theorem Admits.trans {objects objects' : List ObjectId} {group group' group'' : Group}
    (h : group.Admits objects group') (h' : group'.Admits objects' group'')
    (hobjects : ∀ vid ∈ objects', vid ∈ objects) : group.Admits objects group'' where
  spec_eq := h'.spec_eq.trans h.spec_eq
  exclusive := h'.exclusive
  mem_vids vid hvid := by
    rcases h'.mem_vids vid hvid with hold | hnew
    · exact h.mem_vids vid hold
    · exact .inr (hobjects vid hnew)

theorem Admits.mono {objects objects' : List ObjectId} {group group' : Group}
    (h : group.Admits objects group') (hobjects : ∀ vid ∈ objects, vid ∈ objects') :
    group.Admits objects' group' :=
  ⟨h.spec_eq, h.exclusive, fun vid hvid => (h.mem_vids vid hvid).imp id (hobjects vid)⟩

end Group

/-- The attributes that a list of names asks for, ascending. -/
def AttributeGroup.offered (family : CounterFamily) (names : List String) :
    List (CounterId family) :=
  SortedSet.toList (SortedSet.ofList (family.requested names))

/-- Registering an object leaves a group of attributes as it is if it asks for none, and otherwise
puts the object there. -/
theorem AttributeGroup.add_always {family : CounterFamily} (g : AttributeGroup family)
    (vid rid : ObjectId) (names : List String) :
    (g.add vid rid names).Always fun after =>
      (offered family names = [] ∧ after = g) ∨ (offered family names ≠ [] ∧
        after = { g with objects := g.objects.insert vid ⟨rid, offered family names⟩ }) := by
  refine (readRequested_always family names).bind ?_
  rintro _ rfl
  dsimp only
  split
  · next hnone =>
    exact Dialogue.always_bind_of_forall fun _ => .inl ⟨List.isEmpty_iff.mp hnone, rfl⟩
  · next hsome => exact .inr ⟨fun hnil => hsome (List.isEmpty_iff.mpr hnil), rfl⟩

/-- Registering an object adds at most that object to a group of attributes. -/
theorem AttributeGroup.add_admits {family : CounterFamily} (g : AttributeGroup family)
    (vid rid : ObjectId) (names : List String) :
    (g.add vid rid names).Always fun after =>
      (Group.attributes family g).Admits [vid] (.attributes family after) := by
  refine (g.add_always vid rid names).mono ?_
  rintro after (⟨-, rfl⟩ | ⟨-, rfl⟩)
  · exact ⟨rfl, trivial, fun _ hvid => .inl hvid⟩
  · refine ⟨rfl, trivial, fun other hother => ?_⟩
    rw [Group.vids, vids, ← SortedMap.contains_iff, SortedMap.contains_insert] at hother
    rw [List.mem_singleton]
    exact hother.symm.imp SortedMap.contains_iff.mp Eq.symm

namespace MeterGroup

/-- Asking for the number of buckets adds nothing. -/
theorem askBucketCount_admits (g : MeterGroup) (switch : ObjectId) :
    (g.askBucketCount switch).Always fun found =>
      (Group.meterBuckets g).Admits [] (.meterBuckets found.1) := by
  have hsame : (Group.meterBuckets g).Admits [] (.meterBuckets g) :=
    ⟨rfl, trivial, fun _ hvid => .inl hvid⟩
  unfold askBucketCount
  split
  · exact hsame
  · refine Dialogue.always_bind_of_forall fun answer => ?_
    cases answer with
    | error error => exact hsame
    | ok values =>
      dsimp only
      split
      · exact hsame
      · exact ⟨rfl, trivial, fun _ hvid => .inl hvid⟩

@[simp]
theorem settings_untrack (g : MeterGroup) (vid : ObjectId) :
    (g.untrack vid).settings = g.settings := by
  unfold untrack
  split <;> rfl

/-- What is tracked once an interface was dropped. -/
theorem mem_vids_untrack {g : MeterGroup} {vid other : ObjectId} :
    other ∈ (g.untrack vid).vids ↔ other ≠ vid ∧ other ∈ g.vids := by
  unfold vids untrack
  rw [← SortedMap.contains_iff, ← SortedMap.contains_iff]
  split
  · rw [SortedMap.contains_erase, ne_comm]
  · next habsent =>
    refine (and_iff_right_of_imp ?_).symm
    rintro hother rfl
    exact habsent hother

theorem untrack_admits (g : MeterGroup) (vid : ObjectId) :
    (Group.meterBuckets g).Admits [] (.meterBuckets (g.untrack vid)) where
  spec_eq := congrArg GroupSettings.spec (g.settings_untrack vid)
  exclusive := trivial
  mem_vids _ hother := .inl (mem_vids_untrack.mp hother).2

/-- Tracking an interface after its trial adds at most that interface. -/
theorem place_admits (g : MeterGroup) (switch vid rid : ObjectId) (ids : List BucketCounter)
    (count : Nat) :
    (g.place switch vid rid ids count).Always fun after =>
      (Group.meterBuckets g).Admits [vid] (.meterBuckets after) := by
  have hsame : (Group.meterBuckets g).Admits [vid] (.meterBuckets g) :=
    ⟨rfl, trivial, fun _ hvid => .inl hvid⟩
  refine Dialogue.always_bind_of_forall fun trial => ?_
  cases trial with
  | error error => exact hsame
  | ok statuses =>
    dsimp only
    split
    · refine ⟨rfl, trivial, fun other hother => ?_⟩
      rw [Group.vids, vids, put, ← SortedMap.contains_iff, SortedMap.contains_insert] at hother
      rw [List.mem_singleton]
      exact hother.symm.imp SortedMap.contains_iff.mp Eq.symm
    · exact Dialogue.always_bind_of_forall fun _ => hsame

/-- Registering an interface adds at most that interface. -/
theorem add_admits (g : MeterGroup) (vid rid : ObjectId) (names : List String) :
    (g.add vid rid names).Always fun after =>
      (Group.meterBuckets g).Admits [vid] (.meterBuckets after) := by
  refine Dialogue.always_bind_of_forall fun switch => ?_
  refine (g.askBucketCount_admits switch).bind fun found hfound => ?_
  have hasked : (Group.meterBuckets g).Admits [vid] (.meterBuckets found.1) :=
    hfound.mono fun _ hnone => absurd hnone List.not_mem_nil
  obtain ⟨known, count?⟩ := found
  dsimp only
  split
  · refine Dialogue.always_bind_of_forall fun requested => ?_
    refine Dialogue.always_bind_of_forall fun discovery => ?_
    have hfoundOut : (Group.meterBuckets g).Admits [vid]
        (.meterBuckets { known with discovery := discovery }) :=
      ⟨hasked.spec_eq, trivial, hasked.mem_vids⟩
    dsimp only
    split
    · exact Dialogue.always_bind_of_forall fun _ => hfoundOut
    · refine (place_admits _ switch vid rid _ _).mono fun after hafter => ?_
      have hdropped := hfoundOut.trans (untrack_admits _ vid) fun _ hnone =>
        absurd hnone List.not_mem_nil
      exact hdropped.trans hafter fun _ hvid => hvid
  · exact Dialogue.always_bind_of_forall fun _ => hasked

end MeterGroup

namespace Group

variable {group : Group}

theorem stats_perform_admits {family : CounterFamily} {g : StatsGroup family}
    (h : g.Exclusive) {command : GroupCommand} (hdistinct : command.Distinct) :
    ((stats family g).perform command).Always ((stats family g).Admits command.vids) := by
  rw [perform_stats, Dialogue.always_map]
  refine (g.perform_always command).mono ?_
  rintro after ⟨decision, hcovers, rfl⟩
  have heven := hcovers.even hdistinct.objects_nodup
  exact ⟨g.spec_conclude decision command,
    (StatsGroup.exclusive_conclude_iff h hcovers).mpr heven,
    fun _ hvid => StatsGroup.mem_vids_of_conclude h hcovers hvid⟩

theorem add_admits (h : group.Exclusive) (vid rid : ObjectId) (names : List String)
    (asked : Option ReadMode) :
    (group.add vid rid names asked).Always (group.Admits [vid]) := by
  cases group with
  | stats family g =>
    have hdistinct : (GroupCommand.add vid rid names asked).Distinct := trivial
    exact stats_perform_admits h hdistinct
  | attributes family g =>
    rw [add, Dialogue.always_map]
    exact g.add_admits vid rid names
  | meterBuckets g =>
    rw [add, Dialogue.always_map]
    exact g.add_admits vid rid names

/-- Objects that are registered one after the other are admitted together. -/
theorem addEach_admits (h : group.Exclusive) (vids rids : List ObjectId) (names : List String)
    (asked : Option ReadMode) :
    (group.addEach (vids.zip rids) names asked).Always (group.Admits vids) := by
  refine Dialogue.Always.carry (fun reached hreached object hobject => ?_) (.refl h vids)
  refine (add_admits hreached.exclusive object.1 object.2 names asked).mono fun after hafter => ?_
  refine hreached.trans hafter fun vid hvid => ?_
  rw [List.mem_singleton.mp hvid]
  exact (List.of_mem_zip hobject).1

theorem remove_admits (h : group.Exclusive) (vid : ObjectId) :
    (group.remove vid).Always (group.Admits []) := by
  cases group with
  | stats family g =>
    have hdistinct : (GroupCommand.remove vid).Distinct := trivial
    exact stats_perform_admits h hdistinct
  | attributes family g =>
    rw [remove, Dialogue.always_map, AttributeGroup.remove]
    split
    · refine ⟨rfl, trivial, fun other hother => .inl ?_⟩
      rw [vids, AttributeGroup.vids, ← SortedMap.contains_iff, SortedMap.contains_erase] at hother
      exact SortedMap.contains_iff.mp hother.2
    · exact Dialogue.always_bind_of_forall fun _ => .refl h []
  | meterBuckets g =>
    rw [remove, Dialogue.always_map, MeterGroup.remove]
    split
    · exact g.untrack_admits vid
    · exact Dialogue.always_bind_of_forall fun _ => .refl h []

/-- A command that registers no object twice leaves a group what it is, keeps objects from being
tracked in two ways, and admits no objects but its own. -/
theorem perform_admits (h : group.Exclusive) (command : GroupCommand)
    (hdistinct : command.Distinct) :
    (group.perform command).Always (group.Admits command.vids) := by
  cases command with
  | add vid rid names asked => exact add_admits h vid rid names asked
  | addMany vids rids names asked =>
    cases group with
    | stats family g => exact stats_perform_admits h hdistinct
    | attributes family g => exact addEach_admits h vids rids names asked
    | meterBuckets g => exact addEach_admits h vids rids names asked
  | remove vid => exact remove_admits h vid
  | removeAll =>
    cases group with
    | stats family g => exact stats_perform_admits h hdistinct
    | _ => exact ⟨rfl, trivial, fun _ hvid => absurd hvid List.not_mem_nil⟩
  | runPlugins arguments => exact Dialogue.always_bind_of_forall fun _ => .refl h []
  | poll => exact Dialogue.always_bind_of_forall fun _ => .refl h []
  | _ =>
    cases group with
    | stats family g => exact stats_perform_admits h hdistinct
    | _ => exact ⟨rfl, trivial, fun _ hvid => .inl hvid⟩

end Group

end CounterPolling
