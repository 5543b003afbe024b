import CounterPolling.Proofs.Group.Soundness

/-!
# What is read after a change

Each change to a group is told here by the objects that are read by themselves and by what is
read in bulk, without a word on how that is divided into partitions. Main statements:
`reads_carryOut` and `Sound.reads_configure`.
-/

namespace CounterPolling

/-- The command concerns chunk sizes or prefixes only. -/
def GroupCommand.configures : GroupCommand → Bool
  | .resize _ | .regroup _ => true
  | _ => false

/-- A placement has a counter read for a row in a mode. -/
def Placement.Adds {family : CounterFamily} (p : Placement family) (mode : Option ReadMode)
    (row : Row) (id : CounterId family) : Prop :=
  p.bulk = true ∧ mode = p.registration.mode ∧ row = objectRow p.vid p.registration.rid ∧
    id ∈ p.registration.ids

namespace PartitionTable

variable {family : CounterFamily} {table : PartitionTable family} {mode : Option ReadMode}
  {row : Row} {id : CounterId family}

@[simp]
theorem reads_empty : (∅ : PartitionTable family).Reads mode row id ↔ False := by
  simp [Reads]

theorem reads_remove {vid : ObjectId} :
    (table.remove vid).Reads mode row id ↔ row.vid ≠ vid ∧ table.Reads mode row id := by
  unfold Reads
  simp only [rowsAt_remove, List.mem_filter, bne_iff_ne]
  constructor
  · rintro ⟨key, hmode, ⟨hrow, hvid⟩, hid⟩
    exact ⟨hvid, key, hmode, hrow, hid⟩
  · rintro ⟨hvid, key, hmode, hrow, hid⟩
    exact ⟨key, hmode, ⟨hrow, hvid⟩, hid⟩

theorem reads_resize {sizeOf? : String → Option Nat} :
    (table.resize sizeOf?).Reads mode row id ↔ table.Reads mode row id := by
  unfold Reads
  simp only [rowsAt_resize]

/-- What is read for an object is held. -/
theorem Reads.holds (h : table.Reads mode row id) : table.holds row.vid = true := by
  obtain ⟨key, -, hrow, -⟩ := h
  exact holds_iff.mpr ⟨key, row, hrow, rfl⟩

end PartitionTable

namespace StatsGroup

variable {family : CounterFamily} {g : StatsGroup family} {mode : Option ReadMode} {row : Row}
  {id : CounterId family}

section Untrack

theorem singles_untrack (g : StatsGroup family) (vid : ObjectId) :
    (g.untrack vid).singles = g.singles.erase vid := by
  unfold untrack
  split
  · rfl
  · next hvid => exact (SortedMap.erase_eq_self (Bool.eq_false_iff.mpr hvid)).symm

theorem singles_untrackAll (g : StatsGroup family) (vids : List ObjectId) :
    (g.untrackAll vids).singles = vids.foldl SortedMap.erase g.singles := by
  unfold untrackAll
  induction vids generalizing g with
  | nil => rfl
  | cons vid rest ih => rw [List.foldl_cons, List.foldl_cons, ih, singles_untrack]

/-- An object that is tracked in one way is not read once it was dropped. -/
theorem reads_untrack (h : g.Exclusive) {vid : ObjectId} :
    (g.untrack vid).partitions.Reads mode row id ↔
      row.vid ≠ vid ∧ g.partitions.Reads mode row id := by
  unfold untrack
  split
  · next hsingle =>
    constructor
    · intro hread
      refine ⟨?_, hread⟩
      rintro rfl
      exact h _ ⟨hsingle, hread.holds⟩
    · exact And.right
  · exact PartitionTable.reads_remove

theorem reads_untrackAll (h : g.Exclusive) {vids : List ObjectId} :
    (g.untrackAll vids).partitions.Reads mode row id ↔
      row.vid ∉ vids ∧ g.partitions.Reads mode row id := by
  unfold untrackAll
  induction vids generalizing g with
  | nil => simp
  | cons first rest ih =>
    rw [List.foldl_cons, ih (exclusive_untrack h first), reads_untrack h, List.mem_cons, not_or]
    tauto

end Untrack

section Settle

variable {placements : List (Placement family)}

theorem singles_settle (g : StatsGroup family) (placements : List (Placement family)) :
    (g.settle placements).singles = placements.foldl
      (fun singles p => if p.bulk then singles else singles.insert p.vid p.registration)
      g.singles := by
  unfold settle
  induction placements generalizing g with
  | nil => rfl
  | cons p rest ih =>
    rw [List.foldl_cons, List.foldl_cons, ih]
    cases hbulk : p.bulk <;> rfl

theorem reads_put {p : Placement family} (hids : CounterId.Ascending p.registration.ids) :
    (g.put p.bulk p.vid p.registration).partitions.Reads mode row id ↔
      g.partitions.Reads mode row id ∨ p.Adds mode row id := by
  unfold Placement.Adds
  cases hbulk : p.bulk with
  | true =>
    simp only [put, putBulk, if_true, PartitionTable.reads_addSplit hids, List.mem_singleton,
      true_and]
  | false => simp [put, putSingle]

/-- After objects were placed, what was read before is read, and what is placed in bulk. -/
theorem reads_settle (hids : ∀ p ∈ placements, CounterId.Ascending p.registration.ids) :
    (g.settle placements).partitions.Reads mode row id ↔
      g.partitions.Reads mode row id ∨ ∃ p ∈ placements, p.Adds mode row id := by
  unfold settle
  induction placements generalizing g with
  | nil => simp
  | cons p rest ih =>
    obtain ⟨hfirst, hrest⟩ := List.forall_mem_cons.mp hids
    rw [List.foldl_cons, ih hrest, reads_put hfirst, List.exists_mem_cons_iff, or_assoc]

end Settle

section Conclude

variable {decision : Decision family} {own : Option ReadMode}
  {objects : List (ObjectId × ObjectId)}

theorem singles_carryOut (g : StatsGroup family) (decision : Decision family) :
    (g.carryOut decision).singles = decision.placements.foldl
      (fun singles p => if p.bulk then singles else singles.insert p.vid p.registration)
      ((decision.placements.map Placement.vid).foldl SortedMap.erase g.singles) := by
  rw [carryOut, singles_settle, singles_untrackAll]

/-- After a decision was carried out, what dropping its objects has left is read, and what is
placed in bulk. -/
theorem reads_carryOut_iff (hcovers : decision.Covers own objects) :
    (g.carryOut decision).partitions.Reads mode row id ↔
      ({ g with discovery := decision.discovery }.untrackAll
        (decision.placements.map Placement.vid)).partitions.Reads mode row id ∨
        ∃ p ∈ decision.placements, p.Adds mode row id := by
  refine reads_settle fun p hp => ?_
  obtain ⟨-, rid, -, hregistration⟩ := hcovers.placed hp
  rw [hregistration]
  exact hcovers.ascending

/-- After a decision was carried out, what was read before for other objects is read, and what
is placed in bulk. -/
theorem reads_carryOut (h : g.Exclusive) (hcovers : decision.Covers own objects) :
    (g.carryOut decision).partitions.Reads mode row id ↔
      (row.vid ∉ decision.placements.map Placement.vid ∧ g.partitions.Reads mode row id) ∨
        ∃ p ∈ decision.placements, p.Adds mode row id := by
  have hknown : ({ g with discovery := decision.discovery } : StatsGroup family).Exclusive := h
  rw [reads_carryOut_iff hcovers, reads_untrackAll hknown]

/-- New chunk sizes and prefixes leave it alone what is read, be they refused or not. -/
theorem Sound.reads_configure (h : g.Sound) {command : GroupCommand}
    (hcommand : command.configures = true) (decision : Decision family) :
    (g.conclude decision command).partitions.Reads mode row id ↔
      g.partitions.Reads mode row id := by
  cases command with
  | resize chunkSize => exact PartitionTable.reads_resize
  | regroup prefixes =>
    rcases g.conclude_regroup decision prefixes with
      ⟨-, -, heq⟩ | ⟨-, heq⟩ | ⟨-, sets, hmerge, heq⟩
    · rw [heq]
    · rw [heq]
      exact PartitionTable.reads_resize
    · rw [heq]
      exact (h.table.regroup hmerge).2 mode row id
  | _ => cases hcommand

/-- Nothing but settings and partitions changes with chunk sizes and prefixes. -/
theorem conclude_configure (g : StatsGroup family) {command : GroupCommand}
    (hcommand : command.configures = true) (decision : Decision family) :
    (g.conclude decision command).singles = g.singles ∧
      (g.conclude decision command).discovery = g.discovery ∧
      (g.conclude decision command).settings.spec = g.settings.spec ∧
      (g.conclude decision command).settings.owner = g.settings.owner ∧
      (g.conclude decision command).settings.mode = g.settings.mode := by
  cases command with
  | resize chunkSize => exact ⟨rfl, rfl, rfl, rfl, rfl⟩
  | regroup prefixes =>
    rcases g.conclude_regroup decision prefixes with
      ⟨-, -, heq⟩ | ⟨-, heq⟩ | ⟨-, sets, -, heq⟩
    · rw [heq]
      exact ⟨rfl, rfl, rfl, rfl, rfl⟩
    · rw [heq]
      exact ⟨rfl, rfl, rfl, rfl, rfl⟩
    · rw [heq]
      exact ⟨rfl, rfl, rfl, rfl, rfl⟩
  | _ => cases hcommand

theorem spec_conclude (g : StatsGroup family) (decision : Decision family)
    (command : GroupCommand) :
    (g.conclude decision command).settings.spec = g.settings.spec := by
  cases command with
  | add vid rid names asked => exact congrArg GroupSettings.spec (settings_carryOut g decision)
  | addMany vids rids names asked =>
    exact congrArg GroupSettings.spec (settings_carryOut g decision)
  | remove vid =>
    rw [conclude]
    split
    · rw [settings_untrack]
    · rfl
  | regroup prefixes =>
    have hcommand : (GroupCommand.regroup prefixes).configures = true := rfl
    exact (g.conclude_configure hcommand decision).2.2.1
  | _ => rfl

/-- What is known after a command is what it found out. -/
theorem discovery_conclude (g : StatsGroup family) (command : GroupCommand) (switch : Switch)
    (past : List Event) :
    (g.conclude ((g.decideOn command).run switch past).value command).discovery =
      ((g.decideOn command).run switch past).value.discovery := by
  cases command with
  | add vid rid names asked => exact discovery_carryOut g _
  | addMany vids rids names asked => exact discovery_carryOut g _
  | remove vid =>
    rw [conclude]
    split
    · exact discovery_untrack g vid
    · rfl
  | regroup prefixes =>
    have hcommand : (GroupCommand.regroup prefixes).configures = true := rfl
    exact (g.conclude_configure hcommand _).2.1
  | _ => rfl

end Conclude

end StatsGroup

end CounterPolling
