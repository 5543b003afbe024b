import CounterPolling.Proofs.Group.Changes
import CounterPolling.Proofs.Group.Published

/-!
# Chunking leaves no trace

How many rows a bulk read has and which counters share one is a matter of speed. With a driver
that never changes and judges bulk reads row by row, two histories that differ in chunk sizes
and prefixes only, refused ones included, track the same objects in the same ways and publish
the same values. Main statement: `chunking_leaves_no_trace`.
-/

namespace CounterPolling

variable {family : CounterFamily} {rules : BulkRules} {driver : Driver}

namespace StatsGroup

variable {g g' : StatsGroup family} {decision : Decision family} {own : Option ReadMode}
  {objects : List (ObjectId × ObjectId)}

/-- The groups differ at most in chunk sizes, prefixes and plugins, and in the partitions that
what they read in bulk is divided into. -/
structure Alike (g g' : StatsGroup family) : Prop where
  settings : g.settings.ReadAlike g'.settings
  discovery : g.discovery = g'.discovery
  singles : g.singles = g'.singles
  reads : ∀ {mode row} {id : CounterId family},
    g.partitions.Reads mode row id ↔ g'.partitions.Reads mode row id

namespace Alike

theorem refl (g : StatsGroup family) : g.Alike g :=
  ⟨⟨rfl, rfl, rfl⟩, rfl, rfl, Iff.rfl⟩

theorem trans {g'' : StatsGroup family} (h : g.Alike g') (h' : g'.Alike g'') : g.Alike g'' where
  settings := ⟨h.settings.spec.trans h'.settings.spec, h.settings.owner.trans h'.settings.owner,
    h.settings.mode.trans h'.settings.mode⟩
  discovery := h.discovery.trans h'.discovery
  singles := h.singles.trans h'.singles
  reads := h.reads.trans h'.reads

theorem holds_iff (h : g.Alike g') (hg : g.Sound) (hg' : g'.Sound) {vid : ObjectId} :
    g.partitions.holds vid = true ↔ g'.partitions.holds vid = true := by
  rw [hg.table.holds_iff_reads, hg'.table.holds_iff_reads]
  simp only [h.reads]

/-- Groups that are alike track the same objects. -/
theorem vids_eq (h : g.Alike g') (hg : g.Sound) (hg' : g'.Sound) : g.vids = g'.vids := by
  refine congrArg SortedSet.toList (SortedSet.ext_has fun vid => ?_)
  rw [← SortedSet.mem_toList, ← SortedSet.mem_toList]
  change vid ∈ g.vids ↔ vid ∈ g'.vids
  rw [mem_vids, mem_vids, h.singles, h.holds_iff hg hg']

theorem untrack (h : g.Alike g') (hg : g.Sound) (hg' : g'.Sound) (vid : ObjectId) :
    (g.untrack vid).Alike (g'.untrack vid) where
  settings := by
    rw [settings_untrack, settings_untrack]
    exact h.settings
  discovery := by
    rw [discovery_untrack, discovery_untrack, h.discovery]
  singles := by
    rw [singles_untrack, singles_untrack, h.singles]
  reads := by
    intro mode row id
    rw [reads_untrack hg.exclusive, reads_untrack hg'.exclusive, h.reads]

theorem carryOut (h : g.Alike g') (hg : g.Sound) (hg' : g'.Sound)
    (hcovers : decision.Covers own objects) :
    (g.carryOut decision).Alike (g'.carryOut decision) where
  settings := by
    rw [settings_carryOut, settings_carryOut]
    exact h.settings
  discovery := by
    rw [discovery_carryOut, discovery_carryOut]
  singles := by
    rw [singles_carryOut, singles_carryOut, h.singles]
  reads := by
    intro mode row id
    rw [reads_carryOut hg.exclusive hcovers, reads_carryOut hg'.exclusive hcovers, h.reads]

/-- Groups that are alike stay so with a command that both perform, given one decision. -/
theorem conclude (h : g.Alike g') (hg : g.Sound) (hg' : g'.Sound) {command : GroupCommand}
    (hcommand : command.configures = false) (hcovers : decision.Covers own command.objects) :
    (g.conclude decision command).Alike (g'.conclude decision command) := by
  cases command with
  | add vid rid names asked => exact h.carryOut hg hg' hcovers
  | addMany vids rids names asked => exact h.carryOut hg hg' hcovers
  | remove vid =>
    have htracks : g.tracks vid = g'.tracks vid := by
      rw [Bool.eq_iff_iff, tracks, tracks, Bool.or_eq_true, Bool.or_eq_true, h.singles,
        h.holds_iff hg hg']
    rw [StatsGroup.conclude, StatsGroup.conclude, htracks]
    split
    · exact h.untrack hg hg' vid
    · exact h
  | removeAll => exact ⟨h.settings, h.discovery, rfl, Iff.rfl⟩
  | resize chunkSize => cases hcommand
  | regroup prefixes => cases hcommand
  | changeMode mode =>
    exact ⟨⟨h.settings.spec, h.settings.owner, rfl⟩, h.discovery, h.singles, h.reads⟩
  | addPlugins plugins =>
    exact ⟨⟨h.settings.spec, h.settings.owner, h.settings.mode⟩, h.discovery, h.singles, h.reads⟩
  | dropPlugins =>
    exact ⟨⟨h.settings.spec, h.settings.owner, h.settings.mode⟩, h.discovery, h.singles, h.reads⟩
  | runPlugins arguments => exact h
  | poll => exact h

end Alike

/-- New chunk sizes and prefixes leave a group like it was. -/
theorem Sound.alike_configure (h : g.Sound) {command : GroupCommand}
    (hcommand : command.configures = true) (decision : Decision family) :
    (g.conclude decision command).Alike g := by
  obtain ⟨hsingles, hdiscovery, hspec, howner, hmode⟩ := g.conclude_configure hcommand decision
  exact ⟨⟨hspec, howner, hmode⟩, hdiscovery, hsingles, h.reads_configure hcommand decision⟩

/-- What is read in bulk stays admitted if what is placed in bulk is. -/
theorem Sound.admitted_conclude (h : g.Sound) (hadmitted : g.Admitted rules)
    {command : GroupCommand} (hcovers : decision.Covers own command.objects)
    (hbulk : ∀ p ∈ decision.placements, p.bulk = true → rules.AdmitsAll p.registration) :
    (g.conclude decision command).Admitted rules := by
  have hplaced : (g.carryOut decision).Admitted rules := by
    intro mode row id hread
    rcases (reads_carryOut h.exclusive hcovers).mp hread with
      ⟨-, hold⟩ | ⟨p, hp, hpbulk, -, rfl, hid⟩
    · exact hadmitted _ _ _ hold
    · exact hbulk p hp hpbulk id hid
  cases command with
  | add vid rid names asked => exact hplaced
  | addMany vids rids names asked => exact hplaced
  | remove vid =>
    rw [StatsGroup.conclude]
    split
    · intro mode row id hread
      exact hadmitted _ _ _ ((reads_untrack h.exclusive).mp hread).2
    · exact hadmitted
  | removeAll =>
    intro mode row id hread
    exact absurd hread (by simp [StatsGroup.conclude, withoutObjects])
  | resize chunkSize =>
    intro mode row id hread
    exact hadmitted _ _ _ ((h.reads_configure rfl decision).mp hread)
  | regroup prefixes =>
    intro mode row id hread
    exact hadmitted _ _ _ ((h.reads_configure rfl decision).mp hread)
  | _ => exact hadmitted

theorem events_perform_poll (g : StatsGroup family) (switch : Switch) (past : List Event) :
    ((g.perform .poll).run switch past).events = (g.poll.run switch past).events := by
  rw [perform, Dialogue.events_run_bind]
  exact List.append_nil _

/-- Groups that are alike publish the same. -/
theorem Alike.publishedAt_eq (h : g.Alike g') (hg : g.Sound) (hg' : g'.Sound)
    (hrules : rules.Governs driver g.kind) (hadmitted : g.Admitted rules)
    (past past' : List Event) :
    publishedAt (g.poll.run (.unchanging driver) past).events =
      publishedAt (g'.poll.run (.unchanging driver) past').events := by
  have hkind : g.kind = g'.kind := congrArg GroupSpec.kind h.settings.spec
  have hadmitted' : g'.Admitted rules :=
    fun mode row id hread => hadmitted mode row id (h.reads.mpr hread)
  have hrules' : rules.Governs driver g'.kind := hkind ▸ hrules
  funext key field
  apply Option.ext
  intro text
  rw [hg.publishedAt_eq_some_iff hrules hadmitted, hg'.publishedAt_eq_some_iff hrules' hadmitted']
  simp only [h.singles, h.reads, request, hkind]

end StatsGroup

/-- What a step shows: its command, the objects tracked by themselves and all objects tracked
afterwards, and the value of each field if the step is a pass. -/
structure Sight where
  command : GroupCommand
  alone : List ObjectId
  vids : List ObjectId
  published : Option (String → String → Option String)

/-- What there is to see of a step. -/
def GroupStep.sight (step : GroupStep family) : Sight where
  command := step.command
  alone := step.after.singles.keys
  vids := step.after.vids
  published := if step.command = .poll then some (publishedAt step.events) else none

namespace StatsGroup

variable {g g' : StatsGroup family}

/-- A history shows, apart from changes of chunk sizes and prefixes, what it shows without them. -/
theorem Alike.sights_eq (h : g.Alike g') (hg : g.Sound) (hg' : g'.Sound)
    (hrules : rules.Governs driver g.kind) (hadmitted : g.Admitted rules)
    {commands : List GroupCommand} (hdistinct : ∀ command ∈ commands, command.Distinct)
    (past past' : List Event) :
    ((course (.unchanging driver) commands g past).filter fun step =>
        !step.command.configures).map GroupStep.sight =
      (course (.unchanging driver) (commands.filter fun command => !command.configures) g'
        past').map GroupStep.sight := by
  induction commands generalizing g g' past past' with
  | nil => rfl
  | cons command rest ih =>
    obtain ⟨hfirst, hrest⟩ := List.forall_mem_cons.mp hdistinct
    have hcovers := (g.decideOn_always command).value (.unchanging driver) past
    have hsound := hg.conclude hfirst hcovers
    have hbulk := bulk_iff hrules command
    rw [Dialogue.valueWith, ← Dialogue.run_unchanging driver _ past] at hbulk
    have hadmitted' := hg.admitted_conclude hadmitted hcovers fun p hp => (hbulk p hp).mp
    have hrules' : rules.Governs driver
        (g.conclude ((g.decideOn command).run (.unchanging driver) past).value command).kind := by
      rw [kind, spec_conclude]
      exact hrules
    rw [course, value_perform]
    cases hcommand : command.configures with
    | true =>
      rw [List.filter_cons_of_neg (by simp [hcommand]),
        List.filter_cons_of_neg (by simp [hcommand])]
      have halike := (hg.alike_configure hcommand
        ((g.decideOn command).run (.unchanging driver) past).value).trans h
      exact ih halike hsound hg' hrules' hadmitted' hrest _ _
    | false =>
      rw [List.filter_cons_of_pos (by simp [hcommand]),
        List.filter_cons_of_pos (by simp [hcommand]), course, value_perform, List.map_cons,
        List.map_cons]
      -- The trials differ with the shares that they are made for, but not in what they lead to.
      have hdecision : ((g'.decideOn command).run (.unchanging driver) past').value =
          ((g.decideOn command).run (.unchanging driver) past).value := by
        rw [Dialogue.run_unchanging, Dialogue.run_unchanging driver (g.decideOn command)]
        exact (valueWith_decideOn_congr hrules h.settings h.discovery command).symm
      rw [hdecision]
      have halike := h.conclude hg hg' hcommand hcovers
      have hsound' := hg'.conclude hfirst hcovers
      apply congrArg₂ List.cons
      · rw [GroupStep.sight, GroupStep.sight, Sight.mk.injEq]
        refine ⟨rfl, congrArg SortedMap.keys halike.singles, halike.vids_eq hsound hsound', ?_⟩
        by_cases hpoll : command = .poll
        · subst hpoll
          rw [if_pos rfl, if_pos rfl, events_perform_poll, events_perform_poll,
            h.publishedAt_eq hg hg' hrules hadmitted past past']
        · rw [if_neg hpoll, if_neg hpoll]
      · exact ih halike hsound hsound' hrules' hadmitted' hrest _ _

/-- A change of chunk sizes or prefixes changes nothing that is tracked. -/
theorem Sound.configure_tracks (h : g.Sound) (switch : Switch) {commands : List GroupCommand}
    (hdistinct : ∀ command ∈ commands, command.Distinct) (past : List Event) :
    ∀ step ∈ course switch commands g past, step.command.configures = true →
      step.after.singles = step.before.singles ∧ step.after.vids = step.before.vids := by
  intro step hstep hcommand
  obtain ⟨hbefore, hafter⟩ := course_keeps (I := Sound)
    (fun command hmem g decision hsound hcovers =>
      hsound.conclude (hdistinct command hmem) hcovers) h switch past step hstep
  have halike := hbefore.alike_configure hcommand step.decision
  rw [← (mem_course hstep).2] at halike
  exact ⟨halike.singles, halike.vids_eq hafter hbefore⟩

/-- With a driver that never changes and follows rules on bulk reads, two histories from the
beginning of a group that differ in changes of chunk sizes and prefixes only show the same,
step by step, and these changes themselves change nothing that is tracked. -/
theorem chunking_leaves_no_trace (settings : GroupSettings)
    (hrules : rules.Governs driver settings.spec.kind) {commands commands' : List GroupCommand}
    (hdistinct : ∀ command ∈ commands, command.Distinct)
    (hshared : (commands.filter fun command => !command.configures) =
      commands'.filter fun command => !command.configures) (past past' : List Event) :
    let steps : List (GroupStep family) :=
      course (.unchanging driver) commands (initial settings) past
    let steps' : List (GroupStep family) :=
      course (.unchanging driver) commands' (initial settings) past'
    ((steps.filter fun step => !step.command.configures).map GroupStep.sight =
      (steps'.filter fun step => !step.command.configures).map GroupStep.sight) ∧
    ∀ step ∈ steps ++ steps', step.command.configures = true →
      step.after.singles = step.before.singles ∧ step.after.vids = step.before.vids := by
  intro steps steps'
  have hsound : (initial settings : StatsGroup family).Sound := sound_initial settings
  have hadmitted : (initial settings : StatsGroup family).Admitted rules := by
    intro mode row id hread
    exact absurd hread (by simp [initial])
  have hdistinct' : ∀ command ∈ commands', command.Distinct := by
    intro command hmem
    cases hcommand : command.configures with
    | true =>
      cases command with
      | resize chunkSize => trivial
      | regroup prefixes => trivial
      | _ => cases hcommand
    | false =>
      have hfilter : command ∈ commands'.filter fun command => !command.configures :=
        List.mem_filter.mpr ⟨hmem, by simp [hcommand]⟩
      rw [← hshared] at hfilter
      exact hdistinct command (List.mem_filter.mp hfilter).1
  constructor
  · calc
      (steps.filter fun step => !step.command.configures).map GroupStep.sight
        = (course (.unchanging driver) (commands.filter fun command => !command.configures)
            (initial settings : StatsGroup family) past).map GroupStep.sight :=
          (Alike.refl _).sights_eq hsound hsound hrules hadmitted hdistinct past past
      _ = (course (.unchanging driver) (commands'.filter fun command => !command.configures)
            (initial settings : StatsGroup family) past).map GroupStep.sight := by rw [hshared]
      _ = (steps'.filter fun step => !step.command.configures).map GroupStep.sight :=
          ((Alike.refl _).sights_eq hsound hsound hrules hadmitted hdistinct' past' past).symm
  · intro step hstep
    rcases List.mem_append.mp hstep with hstep | hstep
    · exact hsound.configure_tracks _ hdistinct past step hstep
    · exact hsound.configure_tracks _ hdistinct' past' step hstep

/-- Three ports, one of which cannot be read in bulk and one of which has a counter that spoils
bulk reads, show the same whether chunks and prefixes are configured or not. -/
theorem chunking_leaves_no_trace_three_ports :
    let settings := GroupSettings.initial
      (GroupSpec.stats "Port Counter" .portStat "PORT_COUNTER_ID_LIST" none) "PORTS"
    let rules : BulkRules := ⟨fun id => id = 9, fun key _ => key ≠ .object 0x102, fun _ _ => 7⟩
    let sights (commands : List GroupCommand) : List Sight :=
      ((course (.unchanging rules.driver) commands (initial settings : StatsGroup .portStat)
        []).filter fun step => !step.command.configures).map GroupStep.sight
    let together : GroupCommand :=
      .addMany [1, 2] [0x101, 0x102] ["SAI_PORT_STAT_IF_IN_OCTETS", "SAI_PORT_STAT_IF_IN_ERRORS"]
        none
    let spoilt : GroupCommand := .add 3 0x103 ["SAI_PORT_STAT_IF_OUT_OCTETS"] none
    ((sights [together, spoilt, .poll]).map Sight.alone = [[2], [2, 3], [2, 3]]) ∧
      sights [together, spoilt, .poll] =
        sights [.regroup ⟨[⟨["SAI_PORT_STAT_IF_IN_ERR"], 1⟩]⟩, together, .resize 1, spoilt,
          .regroup ⟨[⟨["SAI_PORT_STAT_IF_OUT"], 2⟩]⟩, .poll] := by
  intro settings rules sights together spoilt
  refine ⟨by decide +kernel, ?_⟩
  exact (chunking_leaves_no_trace settings (rules.governs_driver _) (by decide) (by decide)
    [] []).1

end StatsGroup

end CounterPolling
