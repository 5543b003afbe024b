import CounterPolling.Proofs.Group.Changes
import CounterPolling.Proofs.Partition.Sizes

/-!
# Chunk sizes follow the configuration

Every change brings the chunk sizes of all partitions in line with the prefixes and the default
size in force, with one exception. New prefixes that divide counters as before are brought in by
name, and an item may have the name of the partitions that no item made: these take its size
then. Main statement: `sizesFollow_iff`, by which nothing else can go wrong.
-/

namespace CounterPolling

variable {family : CounterFamily}

/-- The prefixes that the command brings, if any, can be read from text. -/
def GroupCommand.Parsed (command : GroupCommand) : Prop :=
  ∀ prefixes, command = .regroup prefixes → prefixes.Parsed

/-- The command brings, with prefixes that divide as before, another size under the default name
than the default size, while there are partitions of that name. -/
def GroupCommand.Misnames (command : GroupCommand) (g : StatsGroup family) : Prop :=
  ∃ prefixes, command = .regroup prefixes ∧
    PrefixConfig.DivideAlike g.settings.prefixes prefixes ∧
    ∃ size, prefixes.sizeNamed? defaultShare = some size ∧ size ≠ g.settings.chunkSize ∧
      ∃ key p, g.partitions.get? key = some p ∧ p.name = defaultShare

/-- The partition has the default name, and the size of an item that has it too. -/
def Partition.Misled (prefixes : PrefixConfig) (p : Partition family) : Prop :=
  p.name = defaultShare ∧ prefixes.sizeNamed? defaultShare = some p.chunkSize

namespace Partition

variable {prefixes prefixes' : PrefixConfig} {key : PartitionKey family} {p : Partition family}
  {size : Nat}

/-- A partition that follows a new default size, as one with the default name takes it. -/
theorem Fits.follows_resize (h : p.Fits prefixes key)
    (hplain : ∀ item ∈ prefixes.items, item.Plain)
    (hfollows : p.Follows prefixes size ∨ p.Misled prefixes) (size' : Nat) :
    (p.withChunkSize ((if p.name = defaultShare then some size' else none).getD
      p.chunkSize)).Follows prefixes size' := by
  have hresized := h.withChunkSize (rfl : PrefixConfig.DivideAlike prefixes prefixes)
    ((if p.name = defaultShare then some size' else none).getD p.chunkSize)
  by_cases hname : p.name = defaultShare
  · rw [hresized.follows_iff_of_default hname, if_pos hname]
    rfl
  · obtain ⟨named, -, hnamed⟩ := h.sizeNamed?_of_named hplain hname
    rcases hfollows with hold | hmisled
    · rw [if_neg hname]
      exact (hnamed size').mpr ((hnamed size).mp hold)
    · exact absurd hmisled.1 hname

/-- With sizes brought in by name a partition follows, unless it has the default name and does
not get the default size. -/
theorem Fits.follows_rename_iff (h : p.Fits prefixes key)
    (halike : PrefixConfig.DivideAlike prefixes prefixes')
    (hplain : ∀ item ∈ prefixes'.items, item.Plain) :
    (p.withChunkSize ((prefixes'.sizeNamed? p.name).getD p.chunkSize)).Follows prefixes' size ↔
      (p.name = defaultShare →
        (prefixes'.sizeNamed? defaultShare).getD p.chunkSize = size) := by
  have hresized := h.withChunkSize halike ((prefixes'.sizeNamed? p.name).getD p.chunkSize)
  by_cases hname : p.name = defaultShare
  · rw [hresized.follows_iff_of_default hname, hname]
    exact ⟨fun hsize _ => hsize, fun hsize => hsize rfl⟩
  · obtain ⟨named, hsize, hnamed⟩ := hresized.sizeNamed?_of_named hplain hname
    refine iff_of_true ((hnamed size).mpr ?_) (fun hdefault => absurd hdefault hname)
    change (prefixes'.sizeNamed? p.name).getD p.chunkSize = named
    rw [show prefixes'.sizeNamed? p.name = some named from hsize]
    rfl

end Partition

namespace StatsGroup

variable {g : StatsGroup family} {P : Partition family → Prop} {decision : Decision family}
  {own : Option ReadMode} {objects : List (ObjectId × ObjectId)}

/-- Every partition has the chunk size that dividing its counters anew would give it. -/
def SizesFollow (g : StatsGroup family) : Prop :=
  ∀ key p, g.partitions.get? key = some p → p.Follows g.settings.prefixes g.settings.chunkSize

instance (g : StatsGroup family) : Decidable g.SizesFollow :=
  decidable_of_iff (∀ entry ∈ g.partitions.entries,
      entry.2.Follows g.settings.prefixes g.settings.chunkSize)
    ⟨fun h key p hp => h (key, p) (SortedMap.get?_eq_some_iff.mp hp),
      fun h entry hentry => h entry.1 entry.2 (SortedMap.get?_eq_some_iff.mpr hentry)⟩

theorem filedWith_untrackAll {prefixes : PrefixConfig} (h : g.partitions.FiledWith prefixes P)
    (hP : ∀ p rows, P p → P { p with rows }) (vids : List ObjectId) :
    (g.untrackAll vids).partitions.FiledWith prefixes P := by
  unfold untrackAll
  induction vids generalizing g with
  | nil => exact h
  | cons vid rest ih =>
    refine ih ?_
    unfold untrack
    split
    · exact h
    · exact h.remove hP vid

theorem filedWith_settle {settings : GroupSettings} (hsettings : g.settings = settings)
    (h : g.partitions.FiledWith settings.prefixes P) (hP : ∀ p rows, P p → P { p with rows })
    (hnew : ∀ p, p.Follows settings.prefixes settings.chunkSize → P p)
    {placements : List (Placement family)}
    (hids : ∀ p ∈ placements, CounterId.Ascending p.registration.ids) :
    (g.settle placements).partitions.FiledWith settings.prefixes P := by
  unfold settle
  induction placements generalizing g with
  | nil => exact h
  | cons p rest ih =>
    obtain ⟨hfirst, hrest⟩ := List.forall_mem_cons.mp hids
    refine ih ((settings_put g _ _ _).trans hsettings) ?_ hrest
    subst hsettings
    change (g.put p.bulk p.vid p.registration).partitions.FiledWith g.settings.prefixes P
    cases p.bulk with
    | true => exact h.addSplit hP hnew (List.cons_ne_nil _ _) hfirst
    | false => exact h

/-- A decision that is carried out keeps a property of partitions that all that follow have. -/
theorem filedWith_carryOut (h : g.partitions.FiledWith g.settings.prefixes P)
    (hP : ∀ p rows, P p → P { p with rows })
    (hnew : ∀ p, p.Follows g.settings.prefixes g.settings.chunkSize → P p)
    (hcovers : decision.Covers own objects) :
    (g.carryOut decision).partitions.FiledWith g.settings.prefixes P := by
  have hknown : ({ g with discovery := decision.discovery } : StatsGroup
    family).partitions.FiledWith g.settings.prefixes P := h
  have huntracked := filedWith_untrackAll hknown hP (decision.placements.map Placement.vid)
  refine filedWith_settle (settings_untrackAll _ _) huntracked hP hnew fun p hp => ?_
  obtain ⟨-, rid, -, hregistration⟩ := hcovers.placed hp
  rw [hregistration]
  exact hcovers.ascending

/-- Only changes of chunk sizes and prefixes bear on how counters divide. -/
theorem chunking_conclude (g : StatsGroup family) (decision : Decision family)
    {command : GroupCommand} (hcommand : command.configures = false) :
    (g.conclude decision command).settings.prefixes = g.settings.prefixes ∧
      (g.conclude decision command).settings.chunkSize = g.settings.chunkSize := by
  cases command with
  | add vid rid names asked => simp only [conclude, settings_carryOut, and_self]
  | addMany vids rids names asked => simp only [conclude, settings_carryOut, and_self]
  | remove vid =>
    rw [conclude]
    split
    · simp only [settings_untrack, and_self]
    · exact ⟨rfl, rfl⟩
  | resize chunkSize => cases hcommand
  | regroup prefixes => cases hcommand
  | _ => exact ⟨rfl, rfl⟩

theorem filedWith_conclude (h : g.partitions.FiledWith g.settings.prefixes P)
    (hP : ∀ p rows, P p → P { p with rows })
    (hnew : ∀ p, p.Follows g.settings.prefixes g.settings.chunkSize → P p)
    {command : GroupCommand} (hcommand : command.configures = false)
    (hcovers : decision.Covers own command.objects) :
    (g.conclude decision command).partitions.FiledWith g.settings.prefixes P := by
  cases command with
  | add vid rid names asked => exact filedWith_carryOut h hP hnew hcovers
  | addMany vids rids names asked => exact filedWith_carryOut h hP hnew hcovers
  | remove vid =>
    rw [conclude]
    split
    · exact filedWith_untrackAll h hP [vid]
    · exact h
  | removeAll => exact PartitionTable.filedWith_empty _ _
  | resize chunkSize => cases hcommand
  | regroup prefixes => cases hcommand
  | _ => exact h

/-- The prefixes in force might have been read from text, and every partition is rightly filed
and follows them, or has the default name and the size of an item of that name. -/
structure Configured (g : StatsGroup family) : Prop where
  plain : ∀ item ∈ g.settings.prefixes.items, item.Plain
  filed : g.partitions.FiledWith g.settings.prefixes fun p =>
    p.Follows g.settings.prefixes g.settings.chunkSize ∨ p.Misled g.settings.prefixes

theorem configured_initial {settings : GroupSettings} (h : settings.prefixes.Parsed) :
    (initial settings : StatsGroup family).Configured where
  plain := h.plain
  filed := PartitionTable.filedWith_empty _ _

/-- Changing the default size brings all sizes in line. -/
theorem Configured.sizesFollow_resize (h : g.Configured) (size : Nat) :
    (g.withChunkSize size).Configured ∧ (g.withChunkSize size).SizesFollow := by
  have hall : ∀ key p, (g.withChunkSize size).partitions.get? key = some p →
      p.Fits g.settings.prefixes key ∧ p.Follows g.settings.prefixes size := by
    intro key p hp
    unfold withChunkSize at hp
    rw [PartitionTable.get?_resize, Option.map_eq_some_iff] at hp
    obtain ⟨q, hq, rfl⟩ := hp
    obtain ⟨hfits, hfollows⟩ := h.filed key q hq
    exact ⟨hfits.withChunkSize rfl _, hfits.follows_resize h.plain hfollows size⟩
  exact ⟨⟨h.plain, fun key p hp => ⟨(hall key p hp).1, .inl (hall key p hp).2⟩⟩,
    fun key p hp => (hall key p hp).2⟩

/-- New prefixes keep a group configured. -/
theorem Configured.regroup (h : g.Configured) {prefixes : PrefixConfig}
    (hparsed : prefixes.Parsed) (decision : Decision family) :
    (g.conclude decision (.regroup prefixes)).Configured := by
  rcases g.conclude_regroup decision prefixes with
    ⟨-, -, heq⟩ | ⟨halike, heq⟩ | ⟨-, sets, hmerge, heq⟩
  · rw [heq]
    exact h
  · rw [heq]
    refine ⟨hparsed.plain, ?_⟩
    intro key p hp
    rw [PartitionTable.get?_resize, Option.map_eq_some_iff] at hp
    obtain ⟨q, hq, rfl⟩ := hp
    obtain ⟨hfits, hfollows⟩ := h.filed key q hq
    refine ⟨hfits.withChunkSize halike _, ?_⟩
    change Partition.Follows prefixes g.settings.chunkSize _ ∨ Partition.Misled prefixes _
    rw [hfits.follows_rename_iff halike hparsed.plain]
    cases hsize : prefixes.sizeNamed? defaultShare with
    | none =>
      left
      intro hname
      rcases hfollows with hold | hmisled
      · exact (hfits.follows_iff_of_default hname).mp hold
      · have hnamed := hmisled.2
        rw [(halike.sizeNamed?_eq_none_iff defaultShare).mpr hsize] at hnamed
        exact absurd hnamed.symm (Option.some_ne_none _)
    | some size =>
      by_cases hname : q.name = defaultShare
      · right
        refine ⟨hname, ?_⟩
        rw [hname, hsize]
        rfl
      · left
        exact fun hdefault => absurd hdefault hname
  · rw [heq]
    exact ⟨hparsed.plain, (h.filed.regroup hmerge prefixes _).mono fun _ hp => .inl hp⟩

/-- Any command keeps a group configured, whatever the driver answers. -/
theorem Configured.conclude (h : g.Configured) {command : GroupCommand} (hparsed : command.Parsed)
    (hcovers : decision.Covers own command.objects) : (g.conclude decision command).Configured := by
  cases hcommand : command.configures with
  | false =>
    obtain ⟨hprefixes, hsize⟩ := g.chunking_conclude decision hcommand
    refine ⟨hprefixes ▸ h.plain, ?_⟩
    rw [hprefixes, hsize]
    exact filedWith_conclude h.filed (fun _ _ hp => hp) (fun _ hp => .inl hp) hcommand hcovers
  | true =>
    cases command with
    | resize size => exact (h.sizesFollow_resize size).1
    | regroup prefixes => exact h.regroup (hparsed prefixes rfl) decision
    | _ => cases hcommand

/-- Where sizes follow, new prefixes let them follow unless they misname the default size. -/
theorem Configured.sizesFollow_regroup_iff (h : g.Configured) (hfollow : g.SizesFollow)
    {prefixes : PrefixConfig} (hparsed : prefixes.Parsed) (decision : Decision family) :
    (g.conclude decision (.regroup prefixes)).SizesFollow ↔
      ¬ (GroupCommand.regroup prefixes).Misnames g := by
  have hnot : ¬ PrefixConfig.DivideAlike g.settings.prefixes prefixes →
      ¬ (GroupCommand.regroup prefixes).Misnames g := by
    rintro hother ⟨_, heq, halike, -⟩
    cases heq
    exact hother halike
  rcases g.conclude_regroup decision prefixes with
    ⟨hother, -, heq⟩ | ⟨halike, heq⟩ | ⟨hother, sets, hmerge, heq⟩
  · rw [heq]
    exact iff_of_true hfollow (hnot hother)
  · -- sizes are brought in by name, and only partitions with the default name can go wrong
    have hrenamed : (g.conclude decision (.regroup prefixes)).SizesFollow ↔
        ∀ key p, g.partitions.get? key = some p → p.name = defaultShare →
          (prefixes.sizeNamed? defaultShare).getD g.settings.chunkSize = g.settings.chunkSize := by
      rw [heq]
      unfold SizesFollow
      refine forall_congr' fun key => ?_
      rw [PartitionTable.get?_resize]
      cases hp : g.partitions.get? key with
      | none => simp
      | some q =>
        obtain ⟨hfits, -⟩ := h.filed key q hp
        simp only [Option.map_some, Option.some.injEq, forall_eq']
        refine (hfits.follows_rename_iff halike hparsed.plain).trans ?_
        refine forall_congr' fun hname => ?_
        rw [(hfits.follows_iff_of_default hname).mp (hfollow key q hp)]
    rw [hrenamed]
    constructor
    · rintro hall ⟨_, hregroup, -, size, hsize, hne, key, p, hp, hname⟩
      cases hregroup
      have hget := hall key p hp hname
      rw [hsize] at hget
      exact hne hget
    · intro hmisnames key p hp hname
      cases hsize : prefixes.sizeNamed? defaultShare with
      | none => rfl
      | some size =>
        by_contra hne
        exact hmisnames ⟨prefixes, rfl, halike, size, hsize, hne, key, p, hp, hname⟩
  · rw [heq]
    have hfiled := h.filed.regroup hmerge prefixes g.settings.chunkSize
    exact iff_of_true (fun key p hp => (hfiled key p hp).2) (hnot hother)

/-- Where sizes follow, a command lets them follow unless it misnames the default size. -/
theorem Configured.sizesFollow_conclude_iff (h : g.Configured) (hfollow : g.SizesFollow)
    {command : GroupCommand} (hparsed : command.Parsed)
    (hcovers : decision.Covers own command.objects) :
    (g.conclude decision command).SizesFollow ↔ ¬ command.Misnames g := by
  cases hcommand : command.configures with
  | false =>
    obtain ⟨hprefixes, hsize⟩ := g.chunking_conclude decision hcommand
    refine iff_of_true ?_ ?_
    · have hfiled : g.partitions.FiledWith g.settings.prefixes
          (Partition.Follows g.settings.prefixes g.settings.chunkSize) :=
        fun key p hp => ⟨(h.filed key p hp).1, hfollow key p hp⟩
      have hafter := filedWith_conclude hfiled (fun _ _ hp => hp) (fun _ hp => hp) hcommand hcovers
      intro key p hp
      rw [hprefixes, hsize]
      exact (hafter key p hp).2
    · rintro ⟨prefixes, rfl, -⟩
      cases hcommand
  | true =>
    cases command with
    | resize size =>
      refine iff_of_true (h.sizesFollow_resize size).2 ?_
      rintro ⟨prefixes, heq, -⟩
      cases heq
    | regroup prefixes => exact h.sizesFollow_regroup_iff hfollow (hparsed prefixes rfl) decision
    | _ => cases hcommand

/-- In a history from a configured group all sizes follow after every command exactly if no
command misnames the default size. -/
theorem Configured.sizesFollow_course_iff (h : g.Configured) (hfollow : g.SizesFollow)
    (switch : Switch) {commands : List GroupCommand}
    (hparsed : ∀ command ∈ commands, command.Parsed) (past : List Event) :
    (∀ step ∈ course switch commands g past, step.after.SizesFollow) ↔
      ∀ step ∈ course switch commands g past, ¬ step.command.Misnames step.before := by
  refine course_iff (I := fun g => g.Configured ∧ g.SizesFollow)
    (fun command hmem g decision events hg hcovers => ?_) ⟨h, hfollow⟩ switch past
  have hafter := hg.1.conclude (hparsed command hmem) hcovers
  exact ⟨hg.1.sizesFollow_conclude_iff hg.2 (hparsed command hmem) hcovers,
    fun hfollows => ⟨hafter, hfollows⟩⟩

theorem Configured.course (h : g.Configured) (switch : Switch) {commands : List GroupCommand}
    (hparsed : ∀ command ∈ commands, command.Parsed) (past : List Event) :
    ∀ step ∈ course switch commands g past, step.after.Configured := by
  intro step hstep
  exact (course_keeps (I := Configured) (fun command hmem g decision hg hcovers =>
    hg.conclude (hparsed command hmem) hcovers) h switch past step hstep).2

/-- Whatever a group is told from its beginning on, with prefixes read from text, and whatever
the driver answers: all chunk sizes follow the configuration after every command exactly if no
command misnames the default size. A partition that does not follow has the default name and the
size of an item of that name, so all follow while no item has it. -/
theorem sizesFollow_iff (settings : GroupSettings) (hsettings : settings.prefixes.Parsed)
    (switch : Switch) {commands : List GroupCommand}
    (hparsed : ∀ command ∈ commands, command.Parsed) (past : List Event) :
    let steps : List (GroupStep family) := course switch commands (initial settings) past
    ((∀ step ∈ steps, step.after.SizesFollow) ↔
      ∀ step ∈ steps, ¬ step.command.Misnames step.before) ∧
    (∀ step ∈ steps, ∀ key p, step.after.partitions.get? key = some p →
      p.Follows step.after.settings.prefixes step.after.settings.chunkSize ∨
        p.Misled step.after.settings.prefixes) ∧
    ∀ step ∈ steps, step.after.settings.prefixes.sizeNamed? defaultShare = none →
      step.after.SizesFollow := by
  intro steps
  have hinitial : (initial settings : StatsGroup family).Configured := configured_initial hsettings
  have hfollow : (initial settings : StatsGroup family).SizesFollow :=
    fun key p hp => by simp [initial] at hp
  have hafter := hinitial.course switch hparsed past
  refine ⟨hinitial.sizesFollow_course_iff hfollow switch hparsed past, ?_, ?_⟩
  · exact fun step hstep key p hp => ((hafter step hstep).filed key p hp).2
  · intro step hstep hnone key p hp
    rcases ((hafter step hstep).filed key p hp).2 with hp | hmisled
    · exact hp
    · rw [Partition.Misled, hnone] at hmisled
      exact absurd hmisled.2.symm (Option.some_ne_none _)

/-- The sizes of two partitions follow through changes of both configurations. -/
theorem sizesFollow_two_shares :
    let settings := GroupSettings.initial
      (GroupSpec.stats "Port Counter" .portStat "PORT_COUNTER_ID_LIST" none) "PORTS"
    let names := ["SAI_PORT_STAT_IF_IN_OCTETS", "SAI_PORT_STAT_IF_OUT_OCTETS"]
    let steps : List (GroupStep .portStat) := course (.unchanging (rowFails (.object 0x102)))
      [.regroup ⟨[⟨["SAI_PORT_STAT_IF_IN"], 5⟩]⟩, .add 1 0x101 names none, .resize 3,
        .regroup ⟨[⟨["SAI_PORT_STAT_IF_IN"], 7⟩]⟩] (initial settings) []
    steps.map (fun step => step.after.partitions.values.map Partition.chunkSize) =
        [[], [5, 0], [5, 3], [7, 3]] ∧
      ∀ step ∈ steps, step.after.SizesFollow := by
  intro settings names steps
  refine ⟨by decide +kernel, ?_⟩
  have hparsed : ∀ command ∈ ([.regroup ⟨[⟨["SAI_PORT_STAT_IF_IN"], 5⟩]⟩, .add 1 0x101 names none,
      .resize 3, .regroup ⟨[⟨["SAI_PORT_STAT_IF_IN"], 7⟩]⟩] : List GroupCommand),
      command.Parsed := by
    simp only [List.forall_mem_cons, List.not_mem_nil, false_implies, implies_true, and_true]
    refine ⟨?_, fun _ h => ?_, fun _ h => ?_, ?_⟩
    · rintro _ ⟨⟩
      exact ⟨"SAI_PORT_STAT_IF_IN:5", by decide +kernel⟩
    · cases h
    · cases h
    · rintro _ ⟨⟩
      exact ⟨"SAI_PORT_STAT_IF_IN:7", by decide +kernel⟩
  obtain ⟨-, -, hfollow⟩ := sizesFollow_iff settings PrefixConfig.parsed_empty
    (.unchanging (rowFails (.object 0x102))) hparsed []
  have hnone : ∀ step ∈ steps,
      step.after.settings.prefixes.sizeNamed? defaultShare = none := by decide +kernel
  exact fun step hstep => hfollow step hstep (hnone step hstep)

/-- An item may be written that has the default name. Where only its size changes, the counters
that no item covers lose the default size to it. -/
theorem default_size_lost_to_item :
    PrefixConfig.parse "default:5" = .ok ⟨[⟨["default"], 5⟩]⟩ ∧
    PrefixConfig.parse "default:7" = .ok ⟨[⟨["default"], 7⟩]⟩ ∧
    ¬ ∀ step ∈ course (.unchanging (rowFails (.object 0x102)))
        [.regroup ⟨[⟨["default"], 5⟩]⟩, .add 1 0x101 ["SAI_PORT_STAT_IF_IN_OCTETS"] none,
          .regroup ⟨[⟨["default"], 7⟩]⟩]
        (initial (GroupSettings.initial
          (GroupSpec.stats "Port Counter" .portStat "PORT_COUNTER_ID_LIST" none) "PORTS") :
          StatsGroup .portStat) [],
      step.after.SizesFollow := by
  decide +kernel

end StatsGroup

end CounterPolling
