import CounterPolling.Proofs.Group.Command
import CounterPolling.Proofs.Partition.Regrouping

/-!
# Tracked in one way

No object should be tracked by itself and in bulk at once, for dropping it would leave one
of the two behind. Registering an object twice with one command may come to that: the trials
of its two driver's ids need not agree. Main statement: `keepsPlaces_iff_even`, by which
nothing else can.
-/

namespace CounterPolling

variable {family : CounterFamily}

/-- The placements of one object agree on whether it is read in bulk. -/
def Decision.Even (decision : Decision family) : Prop :=
  ∀ p ∈ decision.placements, ∀ q ∈ decision.placements, p.vid = q.vid → p.bulk = q.bulk

theorem Decision.Covers.even {decision : Decision family} {own : Option ReadMode}
    {objects : List (ObjectId × ObjectId)} (h : decision.Covers own objects)
    (hobjects : (objects.map Prod.fst).Nodup) : decision.Even := by
  intro p hp q hq hvid
  exact congrArg Placement.bulk (List.inj_on_of_nodup_map (h.vids_nodup hobjects) hp hq hvid)

namespace StatsGroup

variable {g : StatsGroup family}

/-- No object is tracked both by itself and in bulk. -/
def Exclusive (g : StatsGroup family) : Prop :=
  ∀ vid, ¬ (g.singles.contains vid = true ∧ g.partitions.holds vid = true)

/-- An object is tracked in exactly one of the two ways. -/
def TrackedOnce (g : StatsGroup family) (vid : ObjectId) : Prop :=
  Xor (g.singles.contains vid = true) (g.partitions.holds vid = true)

theorem exclusive_initial (settings : GroupSettings) :
    (initial settings : StatsGroup family).Exclusive := by
  intro vid h
  exact absurd h.1 (by simp [initial])

/-- The objects tracked are those tracked by themselves and those tracked in bulk. -/
theorem mem_vids {vid : ObjectId} :
    vid ∈ g.vids ↔ g.singles.contains vid = true ∨ g.partitions.holds vid = true := by
  unfold vids
  rw [SortedSet.mem_toList, SortedSet.has_ofList, List.mem_append, ← SortedMap.contains_iff]
  apply or_congr_right
  simp only [PartitionTable.holds, SortedMap.any, Partition.holds, SortedMap.values,
    Partition.vids, List.any_eq_true, List.mem_flatMap, List.mem_map, beq_iff_eq]
  constructor
  · rintro ⟨p, ⟨entry, hentry, rfl⟩, row, hrow, hvid⟩
    exact ⟨entry, hentry, row, hrow, hvid⟩
  · rintro ⟨entry, hentry, row, hrow, hvid⟩
    exact ⟨entry.2, ⟨entry, hentry, rfl⟩, row, hrow, hvid⟩

section Untrack

theorem contains_untrack {vid vid' : ObjectId} :
    (g.untrack vid).singles.contains vid' = true ↔
      vid' ≠ vid ∧ g.singles.contains vid' = true := by
  unfold untrack
  split
  · rw [SortedMap.contains_erase, ne_comm]
  · next hvid =>
    constructor
    · intro hvid'
      refine ⟨?_, hvid'⟩
      rintro rfl
      exact hvid hvid'
    · exact And.right

/-- Dropping an object that is tracked in one way leaves it in none. -/
theorem holds_untrack (h : g.Exclusive) {vid vid' : ObjectId} :
    (g.untrack vid).partitions.holds vid' = true ↔
      vid' ≠ vid ∧ g.partitions.holds vid' = true := by
  unfold untrack
  split
  · next hvid =>
    constructor
    · intro hvid'
      refine ⟨?_, hvid'⟩
      rintro rfl
      exact h _ ⟨hvid, hvid'⟩
    · exact And.right
  · rw [PartitionTable.holds_remove]

theorem exclusive_untrack (h : g.Exclusive) (vid : ObjectId) : (g.untrack vid).Exclusive := by
  intro vid' hboth
  rw [contains_untrack, holds_untrack h] at hboth
  exact h vid' ⟨hboth.1.2, hboth.2.2⟩

theorem contains_untrackAll {vids : List ObjectId} {vid : ObjectId} :
    (g.untrackAll vids).singles.contains vid = true ↔
      vid ∉ vids ∧ g.singles.contains vid = true := by
  unfold untrackAll
  induction vids generalizing g with
  | nil => simp
  | cons first rest ih =>
    rw [List.foldl_cons, ih, contains_untrack, List.mem_cons, not_or]
    tauto

theorem holds_untrackAll (h : g.Exclusive) {vids : List ObjectId} {vid : ObjectId} :
    (g.untrackAll vids).partitions.holds vid = true ↔
      vid ∉ vids ∧ g.partitions.holds vid = true := by
  unfold untrackAll
  induction vids generalizing g with
  | nil => simp
  | cons first rest ih =>
    rw [List.foldl_cons, ih (exclusive_untrack h first), holds_untrack h, List.mem_cons, not_or]
    tauto

end Untrack

section Settle

variable {placements : List (Placement family)}

theorem contains_settle {vid : ObjectId} :
    (g.settle placements).singles.contains vid = true ↔
      g.singles.contains vid = true ∨ ∃ p ∈ placements, p.vid = vid ∧ p.bulk = false := by
  unfold settle
  induction placements generalizing g with
  | nil => simp
  | cons p rest ih =>
    rw [List.foldl_cons, ih]
    have hput : (g.put p.bulk p.vid p.registration).singles.contains vid = true ↔
        (p.vid = vid ∧ p.bulk = false) ∨ g.singles.contains vid = true := by
      cases hbulk : p.bulk with
      | true => simp [put, putBulk]
      | false => simp [put, putSingle]
    simp only [hput, List.mem_cons, exists_eq_or_imp]
    tauto

theorem holds_settle (hids : ∀ p ∈ placements, p.registration.ids ≠ []) {vid : ObjectId} :
    (g.settle placements).partitions.holds vid = true ↔
      g.partitions.holds vid = true ∨ ∃ p ∈ placements, p.vid = vid ∧ p.bulk = true := by
  unfold settle
  induction placements generalizing g with
  | nil => simp
  | cons p rest ih =>
    obtain ⟨hfirst, hrest⟩ := List.forall_mem_cons.mp hids
    rw [List.foldl_cons, ih hrest]
    have hput : (g.put p.bulk p.vid p.registration).partitions.holds vid = true ↔
        (p.vid = vid ∧ p.bulk = true) ∨ g.partitions.holds vid = true := by
      cases hbulk : p.bulk with
      | true =>
        simp only [put, putBulk, if_true, PartitionTable.holds_addSplit hfirst, objectRow,
          List.mem_singleton, exists_eq_left, and_true]
        exact or_comm
      | false => simp [put, putSingle]
    simp only [hput, List.mem_cons, exists_eq_or_imp]
    tauto

end Settle

section CarryOut

variable {decision : Decision family} {own : Option ReadMode}
  {objects : List (ObjectId × ObjectId)}

/-- After a decision was carried out, its objects are tracked as it says and the others as
before. -/
theorem contains_carryOut {vid : ObjectId} :
    (g.carryOut decision).singles.contains vid = true ↔
      (vid ∉ decision.placements.map Placement.vid ∧ g.singles.contains vid = true) ∨
        ∃ p ∈ decision.placements, p.vid = vid ∧ p.bulk = false := by
  rw [carryOut, contains_settle, contains_untrackAll]

theorem holds_carryOut (h : g.Exclusive) (hcovers : decision.Covers own objects)
    {vid : ObjectId} :
    (g.carryOut decision).partitions.holds vid = true ↔
      (vid ∉ decision.placements.map Placement.vid ∧ g.partitions.holds vid = true) ∨
        ∃ p ∈ decision.placements, p.vid = vid ∧ p.bulk = true := by
  have hids : ∀ p ∈ decision.placements, p.registration.ids ≠ [] := by
    intro p hp
    obtain ⟨hsupported, rid, -, hregistration⟩ := hcovers.placed hp
    rw [hregistration]
    exact hsupported
  have hknown : ({ g with discovery := decision.discovery } : StatsGroup family).Exclusive := h
  rw [carryOut, holds_settle hids, holds_untrackAll hknown]

/-- Objects stay tracked in one way exactly if the placements of each agree. -/
theorem exclusive_carryOut_iff (h : g.Exclusive) (hcovers : decision.Covers own objects) :
    (g.carryOut decision).Exclusive ↔ decision.Even := by
  constructor
  · intro hafter p hp q hq hvid
    by_contra hbulk
    cases hp' : p.bulk with
    | true =>
      have hq' : q.bulk = false := by simpa [hp'] using Ne.symm hbulk
      apply hafter p.vid
      exact ⟨contains_carryOut.mpr (.inr ⟨q, hq, hvid.symm, hq'⟩),
        (holds_carryOut h hcovers).mpr (.inr ⟨p, hp, rfl, hp'⟩)⟩
    | false =>
      have hq' : q.bulk = true := by simpa [hp'] using Ne.symm hbulk
      apply hafter p.vid
      exact ⟨contains_carryOut.mpr (.inr ⟨p, hp, rfl, hp'⟩),
        (holds_carryOut h hcovers).mpr (.inr ⟨q, hq, hvid.symm, hq'⟩)⟩
  · intro heven vid ⟨hsingle, hbulk⟩
    rw [contains_carryOut] at hsingle
    rw [holds_carryOut h hcovers] at hbulk
    rcases hsingle with ⟨hfresh, hsingle⟩ | ⟨p, hp, hpvid, hpbulk⟩
    · rcases hbulk with ⟨-, hbulk⟩ | ⟨q, hq, rfl, -⟩
      · exact h vid ⟨hsingle, hbulk⟩
      · exact hfresh (List.mem_map_of_mem hq)
    · rcases hbulk with ⟨hfresh, -⟩ | ⟨q, hq, hqvid, hqbulk⟩
      · exact hfresh (hpvid ▸ List.mem_map_of_mem hp)
      · have heq := heven p hp q hq (hpvid.trans hqvid.symm)
        rw [hpbulk, hqbulk] at heq
        exact absurd heq (by decide)

/-- An object that is placed is tracked in one way afterwards if that is so for all. -/
theorem trackedOnce_of_placed (h : g.Exclusive) (hcovers : decision.Covers own objects)
    (hafter : (g.carryOut decision).Exclusive) {p : Placement family}
    (hp : p ∈ decision.placements) : (g.carryOut decision).TrackedOnce p.vid := by
  cases hbulk : p.bulk with
  | true =>
    have hholds := (holds_carryOut h hcovers).mpr (.inr ⟨p, hp, rfl, hbulk⟩)
    exact .inr ⟨hholds, fun hsingle => hafter p.vid ⟨hsingle, hholds⟩⟩
  | false =>
    have hsingle := (contains_carryOut (g := g)).mpr (.inr ⟨p, hp, rfl, hbulk⟩)
    exact .inl ⟨hsingle, fun hholds => hafter p.vid ⟨hsingle, hholds⟩⟩

end CarryOut

section Conclude

variable {decision : Decision family} {own : Option ReadMode}

/-- Regrouping keeps the objects that are tracked by themselves and adds none in bulk. -/
theorem regroup_tracks (g : StatsGroup family) (decision : Decision family)
    (prefixes : PrefixConfig) :
    (g.conclude decision (.regroup prefixes)).singles = g.singles ∧
      ∀ vid, (g.conclude decision (.regroup prefixes)).partitions.holds vid = true →
        g.partitions.holds vid = true := by
  rcases g.conclude_regroup decision prefixes with ⟨-, -, heq⟩ | ⟨-, heq⟩ | ⟨-, sets, hmerge, heq⟩
  · rw [heq]
    exact ⟨rfl, fun _ hheld => hheld⟩
  · rw [heq]
    refine ⟨rfl, fun vid hheld => ?_⟩
    rwa [PartitionTable.holds_resize] at hheld
  · rw [heq]
    exact ⟨rfl, fun vid hheld => PartitionTable.holds_of_regroup hmerge hheld⟩

/-- A command keeps objects tracked in one way exactly if the placements it makes agree. -/
theorem exclusive_conclude_iff (h : g.Exclusive) {command : GroupCommand}
    (hcovers : decision.Covers own command.objects) :
    (g.conclude decision command).Exclusive ↔ decision.Even := by
  have hnone : command.objects = [] → decision.Even := by
    intro hobjects
    rw [hobjects] at hcovers
    exact hcovers.even List.nodup_nil
  cases command with
  | add vid rid names asked => exact exclusive_carryOut_iff h hcovers
  | addMany vids rids names asked => exact exclusive_carryOut_iff h hcovers
  | remove vid =>
    refine iff_of_true ?_ (hnone rfl)
    rw [conclude]
    split
    · exact exclusive_untrack h vid
    · exact h
  | removeAll =>
    refine iff_of_true ?_ (hnone rfl)
    intro vid hboth
    exact absurd hboth.1 (by simp [conclude, withoutObjects])
  | resize chunkSize =>
    refine iff_of_true ?_ (hnone rfl)
    intro vid hboth
    simp only [conclude, withChunkSize, PartitionTable.holds_resize] at hboth
    exact h vid hboth
  | regroup prefixes =>
    refine iff_of_true ?_ (hnone rfl)
    obtain ⟨hsingles, hheld⟩ := g.regroup_tracks decision prefixes
    intro vid hboth
    rw [hsingles] at hboth
    exact h vid ⟨hboth.1, hheld vid hboth.2⟩
  | _ => exact iff_of_true h (hnone rfl)

/-- What is removed is tracked no more. -/
theorem not_mem_vids_of_remove (h : g.Exclusive) (decision : Decision family)
    (vid : ObjectId) :
    vid ∉ (g.conclude decision (.remove vid)).vids := by
  rw [conclude, mem_vids]
  split
  · rw [contains_untrack, holds_untrack h]
    rintro (⟨hne, -⟩ | ⟨hne, -⟩)
    · exact hne rfl
    · exact hne rfl
  · next htracks =>
    rwa [tracks, Bool.or_eq_true] at htracks

end Conclude

end StatsGroup

/-- A command leaves every object where one look-up finds it: nothing is tracked in two ways,
what was registered with supported counters is tracked in one, and what was removed in none. -/
structure GroupStep.KeepsPlaces (step : GroupStep family) : Prop where
  exclusive : step.after.Exclusive
  registered : step.decision.supported ≠ [] →
    ∀ object ∈ step.command.objects, step.after.TrackedOnce object.1
  removed : ∀ vid, step.command = .remove vid → vid ∉ step.after.vids

namespace StatsGroup

variable {g : StatsGroup family}

/-- One command keeps places exactly if the placements it makes agree. -/
theorem keepsPlaces_iff_of_exclusive (h : g.Exclusive) {command : GroupCommand}
    {decision : Decision family} {own : Option ReadMode}
    (hcovers : decision.Covers own command.objects) (events : List Event) :
    (GroupStep.mk g command decision events (g.conclude decision command)).KeepsPlaces ↔
      decision.Even := by
  constructor
  · intro hkeeps
    exact (exclusive_conclude_iff h hcovers).mp hkeeps.exclusive
  · intro heven
    have hafter := (exclusive_conclude_iff h hcovers).mpr heven
    refine ⟨hafter, ?_, ?_⟩
    · intro hsupported object hobject
      have hplaced : object.1 ∈ decision.placements.map Placement.vid := by
        rw [hcovers.vids_eq hsupported]
        exact List.mem_map_of_mem hobject
      obtain ⟨p, hp, hvid⟩ := List.mem_map.mp hplaced
      rw [← hvid]
      cases command with
      | add vid rid names asked => exact trackedOnce_of_placed h hcovers hafter hp
      | addMany vids rids names asked => exact trackedOnce_of_placed h hcovers hafter hp
      | _ => exact absurd hobject List.not_mem_nil
    · rintro vid rfl
      exact not_mem_vids_of_remove h decision vid

/-- Over a whole history places are kept exactly if the placements of every command agree. -/
theorem keepsPlaces_iff_from (h : g.Exclusive) (switch : Switch) (commands : List GroupCommand)
    (past : List Event) :
    (∀ step ∈ course switch commands g past, step.KeepsPlaces) ↔
      ∀ step ∈ course switch commands g past, step.decision.Even := by
  refine course_iff (fun command _ g decision events hg hcovers => ?_) h switch past
  exact ⟨keepsPlaces_iff_of_exclusive hg hcovers events, fun hkeeps => hkeeps.exclusive⟩

/-- In a history only commands that register an object twice make uneven decisions. -/
theorem even_of_distinct (switch : Switch) (commands : List GroupCommand)
    (g : StatsGroup family) (past : List Event) :
    ∀ step ∈ course switch commands g past, step.command.Distinct → step.decision.Even := by
  intro step hstep hdistinct
  obtain ⟨⟨past', hdecision⟩, -⟩ := mem_course hstep
  have hcovers := (step.before.decideOn_always step.command).value switch past'
  rw [hdecision]
  exact hcovers.even hdistinct.objects_nodup

/-- Whatever a group is told from its beginning on and whatever the driver answers, every
object stays in one place after every command exactly if no command places one object in two
ways; a command that names each object once cannot. -/
theorem keepsPlaces_iff_even (settings : GroupSettings) (switch : Switch)
    (commands : List GroupCommand) (past : List Event) :
    let steps : List (GroupStep family) := course switch commands (initial settings) past
    ((∀ step ∈ steps, step.KeepsPlaces) ↔ ∀ step ∈ steps, step.decision.Even) ∧
      ∀ step ∈ steps, step.command.Distinct → step.decision.Even := by
  intro steps
  constructor
  · exact keepsPlaces_iff_from (exclusive_initial settings) switch commands past
  · exact even_of_distinct switch commands (initial settings) past

/-- A driver that reads everything as zero, but fails one row of a bulk read. -/
def rowFails (failing : RowKey) : Driver
  | .read _ _ ids => .ok (ids.map fun _ => 0)
  | .clear .. => .ok ()
  | .bulkRead _ keys _ _ =>
    .ok ⟨fun row => some (if keys[row]? = some failing then .failure else .success),
      fun _ => some 0⟩
  | .capabilities .. => .error (.status .failure)
  | .attributes _ _ ids => .ok (ids.map fun _ => "")
  | .switchOf object => object

/-- An object registered twice at once, of whose rows one fails its trial, is tracked in both
ways, and removing it leaves it tracked. -/
theorem repeated_object_kept_in_two_places :
    ¬ ∀ step ∈ course (.unchanging (rowFails (.object 0x101)))
        [.addMany [1, 1] [0x101, 0x102] ["SAI_PORT_STAT_IF_IN_OCTETS"] none, .remove 1]
        (initial (GroupSettings.initial
          (GroupSpec.stats "Port Counter" .portStat "PORT_COUNTER_ID_LIST" none) "PORTS") :
          StatsGroup .portStat) [],
      ¬ (step.after.singles.contains 1 = true ∧ step.after.partitions.holds 1 = true) ∧
        (step.command = .remove 1 → 1 ∉ step.after.vids) := by
  decide +kernel

end StatsGroup

end CounterPolling
