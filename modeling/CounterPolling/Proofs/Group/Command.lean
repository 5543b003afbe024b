import CounterPolling.Group.Basic
import CounterPolling.Proofs.Group.Decision

/-!
# Commands of a group of counters, and their histories

A group of counters is told what to do by commands. Each command comes down to a decision,
which is all that the driver's answers have a say in, and to a change that the decision
settles. Main statements: `value_perform`, what a command can do, and `decideOn_always`, what
a decision can be.
-/

namespace CounterPolling

/-- Something that a group of counters may be told to do. -/
inductive GroupCommand
  | add (vid rid : ObjectId) (names : List String) (asked : Option ReadMode)
  | addMany (vids rids : List ObjectId) (names : List String) (asked : Option ReadMode)
  | remove (vid : ObjectId)
  | removeAll
  | resize (chunkSize : Nat)
  | regroup (prefixes : PrefixConfig)
  | changeMode (mode : ReadMode)
  | addPlugins (plugins : List String)
  | dropPlugins
  | runPlugins (arguments : List String)
  | poll
  deriving DecidableEq

namespace GroupCommand

/-- The objects that a command registers, each with the driver's id; uneven lists make none. -/
def objects : GroupCommand → List (ObjectId × ObjectId)
  | add vid rid _ _ => [(vid, rid)]
  | addMany vids rids _ _ => if vids.length = rids.length then vids.zip rids else []
  | _ => []

/-- The mode that a command asks for. -/
def asked : GroupCommand → Option ReadMode
  | add _ _ _ asked | addMany _ _ _ asked => asked
  | _ => none

/-- No object is registered twice by the command. -/
def Distinct : GroupCommand → Prop
  | addMany vids _ _ _ => vids.Nodup
  | _ => True

instance (command : GroupCommand) : Decidable command.Distinct := by
  cases command <;> unfold Distinct <;> infer_instance

theorem Distinct.objects_nodup {command : GroupCommand} (h : command.Distinct) :
    (command.objects.map Prod.fst).Nodup := by
  cases command with
  | addMany vids rids names asked =>
    rw [objects]
    split
    · next hlength => rwa [List.map_fst_zip hlength.le]
    · exact List.nodup_nil
  | add vid rid names asked => exact List.nodup_singleton vid
  | _ => exact List.nodup_nil

end GroupCommand

namespace Decision

variable {family : CounterFamily}

/-- A decision deals with objects: it places each of them, in order, with the supported
counters, unless no counter is supported. -/
structure Covers (decision : Decision family) (own : Option ReadMode)
    (objects : List (ObjectId × ObjectId)) : Prop where
  ascending : CounterId.Ascending decision.supported
  entries_eq : decision.supported ≠ [] → decision.placements.map Placement.entry =
    objects.map fun object => (object.1, ⟨object.2, decision.supported, own⟩)
  placements_eq_nil : decision.supported = [] → decision.placements = []

theorem covers_nothing (discovery : Discovery family) (own : Option ReadMode)
    (objects : List (ObjectId × ObjectId)) : Covers ⟨discovery, [], []⟩ own objects where
  ascending := List.Pairwise.nil
  entries_eq h := absurd rfl h
  placements_eq_nil _ := rfl

variable {decision : Decision family} {own : Option ReadMode}
  {objects : List (ObjectId × ObjectId)}

/-- What is placed is one of the objects, with counters to read. -/
theorem Covers.placed (h : decision.Covers own objects) {p : Placement family}
    (hp : p ∈ decision.placements) :
    decision.supported ≠ [] ∧ ∃ rid, (p.vid, rid) ∈ objects ∧
      p.registration = ⟨rid, decision.supported, own⟩ := by
  have hsupported : decision.supported ≠ [] := by
    intro hnil
    rw [h.placements_eq_nil hnil] at hp
    exact absurd hp List.not_mem_nil
  refine ⟨hsupported, ?_⟩
  have hentry : p.entry ∈ decision.placements.map Placement.entry := List.mem_map_of_mem hp
  rw [h.entries_eq hsupported, List.mem_map] at hentry
  obtain ⟨⟨vid, rid⟩, hmem, heq⟩ := hentry
  obtain ⟨hvid, hregistration⟩ := Prod.mk.inj heq
  exact ⟨rid, hvid ▸ hmem, hregistration.symm⟩

/-- Each of the objects is placed if a counter is supported. -/
theorem Covers.vids_eq (h : decision.Covers own objects) (hsupported : decision.supported ≠ []) :
    decision.placements.map Placement.vid = objects.map Prod.fst := by
  have hfst := congrArg (List.map Prod.fst) (h.entries_eq hsupported)
  rw [List.map_map, List.map_map] at hfst
  exact hfst

theorem Covers.vids_nodup (h : decision.Covers own objects)
    (hobjects : (objects.map Prod.fst).Nodup) :
    (decision.placements.map Placement.vid).Nodup := by
  by_cases hsupported : decision.supported = []
  · rw [h.placements_eq_nil hsupported]
    exact List.nodup_nil
  · rw [h.vids_eq hsupported]
    exact hobjects

end Decision

/-- One command of a history, with what it came to. -/
structure GroupStep (family : CounterFamily) where
  before : StatsGroup family
  command : GroupCommand
  decision : Decision family
  events : List Event
  after : StatsGroup family

namespace StatsGroup

variable {family : CounterFamily}

/-- Does what a command says; a refused change of prefixes does nothing. -/
def perform (g : StatsGroup family) : GroupCommand → Dialogue (StatsGroup family)
  | .add vid rid names asked => g.add vid rid names asked
  | .addMany vids rids names asked => g.addMany vids rids names asked
  | .remove vid => g.remove vid
  | .removeAll => return g.withoutObjects
  | .resize chunkSize => return g.withChunkSize chunkSize
  | .regroup prefixes => return ((g.withPrefixes prefixes).toOption).getD g
  | .changeMode mode => return { g with settings := { g.settings with mode := mode } }
  | .addPlugins plugins => return { g with settings := g.settings.withPlugins plugins }
  | .dropPlugins => return { g with settings := { g.settings with plugins := ∅ } }
  | .runPlugins arguments => do
    (Group.stats family g).runPlugins arguments
    return g
  | .poll => do
    g.poll
    return g

/-- The questions of a command, as far as they bear on what is tracked afterwards. -/
def decideOn (g : StatsGroup family) : GroupCommand → Dialogue (Decision family)
  | .add vid rid names asked => g.decideAdd vid rid names asked
  | .addMany vids rids names asked => g.decideAddMany vids rids names asked
  | _ => return ⟨g.discovery, [], []⟩

/-- What a command changes, given the decision it came to. -/
def conclude (g : StatsGroup family) (decision : Decision family) :
    GroupCommand → StatsGroup family
  | .add .. | .addMany .. => g.carryOut decision
  | .remove vid => if g.tracks vid then g.untrack vid else g
  | .removeAll => g.withoutObjects
  | .resize chunkSize => g.withChunkSize chunkSize
  | .regroup prefixes => ((g.withPrefixes prefixes).toOption).getD g
  | .changeMode mode => { g with settings := { g.settings with mode := mode } }
  | .addPlugins plugins => { g with settings := g.settings.withPlugins plugins }
  | .dropPlugins => { g with settings := { g.settings with plugins := ∅ } }
  | .runPlugins _ | .poll => g

/-- What a command does is settled by the decision that it comes to. -/
theorem value_perform (g : StatsGroup family) (command : GroupCommand) (switch : Switch)
    (past : List Event) :
    ((g.perform command).run switch past).value =
      g.conclude ((g.decideOn command).run switch past).value command := by
  cases command with
  | add vid rid names asked =>
    rw [perform, add_eq, Dialogue.value_run_bind]
    rfl
  | addMany vids rids names asked =>
    rw [perform, addMany_eq, Dialogue.value_run_bind]
    rfl
  | remove vid =>
    rw [perform, remove, conclude]
    split <;> rfl
  | runPlugins arguments =>
    rw [perform, Dialogue.value_run_bind]
    rfl
  | poll =>
    rw [perform, Dialogue.value_run_bind]
    rfl
  | _ => rfl

/-- A change of prefixes is refused, or changes sizes only, or divides the merged sets anew. -/
theorem conclude_regroup (g : StatsGroup family) (decision : Decision family)
    (prefixes : PrefixConfig) :
    (¬ PrefixConfig.DivideAlike g.settings.prefixes prefixes ∧
      g.partitions.merge? g.settings.prefixes = none ∧
      g.conclude decision (.regroup prefixes) = g) ∨
    (PrefixConfig.DivideAlike g.settings.prefixes prefixes ∧
      g.conclude decision (.regroup prefixes) =
        { g with
          settings := { g.settings with prefixes := prefixes }
          partitions := g.partitions.resize prefixes.sizeNamed? }) ∨
    (¬ PrefixConfig.DivideAlike g.settings.prefixes prefixes ∧
      ∃ sets, g.partitions.merge? g.settings.prefixes = some sets ∧
        g.conclude decision (.regroup prefixes) =
          { g with
            settings := { g.settings with prefixes := prefixes }
            partitions := PartitionTable.ofWholeSets prefixes g.settings.chunkSize sets }) := by
  by_cases halike : PrefixConfig.DivideAlike g.settings.prefixes prefixes
  · right; left
    refine ⟨halike, ?_⟩
    rw [conclude, withPrefixes, if_pos halike]
    rfl
  · cases hmerge : g.partitions.merge? g.settings.prefixes with
    | none =>
      left
      refine ⟨halike, rfl, ?_⟩
      simp only [conclude, withPrefixes, if_neg halike, hmerge]
      rfl
    | some sets =>
      right; right
      refine ⟨halike, sets, rfl, ?_⟩
      simp only [conclude, withPrefixes, if_neg halike, hmerge]
      rfl

/-- A command that registers objects carries its decision out. -/
theorem conclude_of_objects (g : StatsGroup family) {command : GroupCommand}
    (h : command.objects ≠ []) (decision : Decision family) :
    g.conclude decision command = g.carryOut decision := by
  cases command with
  | add vid rid names asked => rfl
  | addMany vids rids names asked => rfl
  | _ => exact absurd rfl h

/-- A decision on one object deals with that object. -/
theorem decideAdd_always (g : StatsGroup family) (vid rid : ObjectId) (names : List String)
    (asked : Option ReadMode) :
    (g.decideAdd vid rid names asked).Always fun decision =>
      decision.Covers (g.settings.objectMode asked) [(vid, rid)] := by
  unfold decideAdd
  simp only [discover_eq, Dialogue.always_bind, Dialogue.always_pure]
  refine Dialogue.always_of_forall (fun requested => ?_) _
  refine Dialogue.always_of_forall (fun discovery => ?_) _
  split
  · exact Decision.covers_nothing _ _ _
  · simp only [Dialogue.always_bind, Dialogue.always_pure]
    refine Dialogue.always_of_forall (fun bulk => ?_) _
    next hsupported =>
    refine ⟨CounterId.ascending_toList _, fun _ => rfl, fun hnil => ?_⟩
    exact absurd (List.isEmpty_iff.mpr hnil) hsupported

/-- A decision on objects with the same counters deals with all of them. -/
theorem decideAddMany_always (g : StatsGroup family) (vids rids : List ObjectId)
    (names : List String) (asked : Option ReadMode) :
    (g.decideAddMany vids rids names asked).Always fun decision =>
      decision.Covers (g.settings.objectMode asked)
        (GroupCommand.addMany vids rids names asked).objects := by
  unfold decideAddMany
  split
  · exact Decision.covers_nothing _ _ _
  · next hlength =>
    rw [GroupCommand.objects, if_pos (not_not.mp hlength)]
    split
    · exact Decision.covers_nothing _ _ _
    · simp only [discover_eq, Dialogue.always_bind, Dialogue.always_pure]
      refine Dialogue.always_of_forall (fun requested => ?_) _
      refine Dialogue.always_of_forall (fun discovery => ?_) _
      split
      · exact Decision.covers_nothing _ _ _
      · simp only [Dialogue.always_bind, Dialogue.always_pure]
        refine Dialogue.always_of_forall (fun alone => ?_) _
        next hsupported =>
        refine (decideEach_always g _ _ alone _).mono fun placements hplacements => ?_
        refine ⟨CounterId.ascending_toList _, fun _ => hplacements, fun hnil => ?_⟩
        exact absurd (List.isEmpty_iff.mpr hnil) hsupported

/-- A decision deals with the objects of its command. -/
theorem decideOn_always (g : StatsGroup family) (command : GroupCommand) :
    (g.decideOn command).Always fun decision =>
      decision.Covers (g.settings.objectMode command.asked) command.objects := by
  cases command with
  | add vid rid names asked => exact g.decideAdd_always vid rid names asked
  | addMany vids rids names asked => exact g.decideAddMany_always vids rids names asked
  | _ => exact Decision.covers_nothing _ _ _

/-- A state that a group may come to: it starts with no objects, and performs commands that
register no object twice, with any answers of the driver. -/
inductive Reachable : StatsGroup family → Prop
  | initial (settings : GroupSettings) : Reachable (StatsGroup.initial settings)
  | perform {g : StatsGroup family} (command : GroupCommand) (switch : Switch)
    (past : List Event) : Reachable g → command.Distinct →
    Reachable ((g.perform command).run switch past).value

/-- The steps of a list of commands against a switch, after a history of earlier events. -/
def course (switch : Switch) :
    List GroupCommand → StatsGroup family → List Event → List (GroupStep family)
  | [], _, _ => []
  | command :: rest, g, past =>
    let outcome := (g.perform command).run switch past
    ⟨g, command, ((g.decideOn command).run switch past).value, outcome.events, outcome.value⟩ ::
      course switch rest outcome.value (past ++ outcome.events)

/-- A step of a history ends as its decision settles. -/
theorem mem_course {switch : Switch} {commands : List GroupCommand} {g : StatsGroup family}
    {past : List Event} {step : GroupStep family} (h : step ∈ course switch commands g past) :
    (∃ past', step.decision = ((step.before.decideOn step.command).run switch past').value) ∧
      step.after = step.before.conclude step.decision step.command := by
  induction commands generalizing g past with
  | nil => exact absurd h List.not_mem_nil
  | cons command rest ih =>
    rcases List.mem_cons.mp h with rfl | hrest
    · exact ⟨⟨past, rfl⟩, value_perform g command switch past⟩
    · exact ih hrest

/-- What holds at first, and is kept by each command however it is decided, holds before and after
every step of a history. -/
theorem course_keeps {I : StatsGroup family → Prop} {commands : List GroupCommand}
    (hkeeps : ∀ command ∈ commands, ∀ g decision, I g →
      decision.Covers (g.settings.objectMode command.asked) command.objects →
      I (g.conclude decision command))
    {g : StatsGroup family} (h : I g) (switch : Switch) (past : List Event) :
    ∀ step ∈ course switch commands g past, I step.before ∧ I step.after := by
  induction commands generalizing g past with
  | nil => exact fun step hstep => absurd hstep List.not_mem_nil
  | cons command rest ih =>
    obtain ⟨hfirst, hrest⟩ := List.forall_mem_cons.mp hkeeps
    have hafter := hfirst g _ h ((g.decideOn_always command).value switch past)
    rw [course, List.forall_mem_cons, value_perform]
    exact ⟨⟨h, hafter⟩, ih hrest hafter _⟩

/-- Two statements about steps that agree step by step, where the first has what they need go on
to hold, agree on whole histories. -/
theorem course_iff {I : StatsGroup family → Prop} {P Q : GroupStep family → Prop}
    {commands : List GroupCommand}
    (hstep : ∀ command ∈ commands, ∀ g decision events, I g →
      decision.Covers (g.settings.objectMode command.asked) command.objects →
      (P ⟨g, command, decision, events, g.conclude decision command⟩ ↔
        Q ⟨g, command, decision, events, g.conclude decision command⟩) ∧
      (P ⟨g, command, decision, events, g.conclude decision command⟩ →
        I (g.conclude decision command)))
    {g : StatsGroup family} (h : I g) (switch : Switch) (past : List Event) :
    (∀ step ∈ course switch commands g past, P step) ↔
      ∀ step ∈ course switch commands g past, Q step := by
  induction commands generalizing g past with
  | nil => exact ⟨fun _ step hstep => absurd hstep List.not_mem_nil,
      fun _ step hstep => absurd hstep List.not_mem_nil⟩
  | cons command rest ih =>
    obtain ⟨hfirst, hrest⟩ := List.forall_mem_cons.mp hstep
    have hcovers := (g.decideOn_always command).value switch past
    obtain ⟨hiff, hnext⟩ := hfirst g _ ((g.perform command).run switch past).events h hcovers
    rw [course, List.forall_mem_cons, List.forall_mem_cons, value_perform]
    constructor
    · rintro ⟨hP, hlater⟩
      exact ⟨hiff.mp hP, (ih hrest (hnext hP) _).mp hlater⟩
    · rintro ⟨hQ, hlater⟩
      have hP := hiff.mpr hQ
      exact ⟨hP, (ih hrest (hnext hP) _).mpr hlater⟩

end StatsGroup

end CounterPolling
