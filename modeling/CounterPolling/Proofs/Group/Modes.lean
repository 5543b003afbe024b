import CounterPolling.Proofs.Group.Changes
import CounterPolling.Proofs.Group.Discovery

/-!
# Modes that support is found out in

Whether a counter is supported may depend on the read mode, but a group that does not find out
anew asks for each counter once, in the mode that is in force then. What a later registration
is read for depends on the mode of the registration that asked first. Main statement:
`registration_reads_supported`.
-/

namespace CounterPolling

variable {family : CounterFamily} {driver : Driver}

namespace GroupStep

/-- The read mode in force for what the step registers. -/
def mode (step : GroupStep family) : ReadMode :=
  step.before.settings.modeFor step.command.asked

/-- The known ones of the counters that the step asks for. -/
def requested (step : GroupStep family) : List (CounterId family) :=
  family.requested step.command.names

/-- The step registers objects in such a way that it is found out about a counter, unless that
was done before: a capability list tells of all counters at once. -/
def informs (listed : Bool) (id : CounterId family) (step : GroupStep family) : Bool :=
  !step.command.objects.isEmpty && (listed || step.requested.contains id)

/-- The steps that may have found out what still counts when a later one registers objects. -/
def heard (spec : GroupSpec) (earlier : List (GroupStep family)) : List (GroupStep family) :=
  if spec.rediscovers then [] else earlier

/-- The step that finds out about a counter for a registration with an earlier history: the first
one heard that informs of it, and the registration itself if there is none. -/
def informant? (spec : GroupSpec) (listed : Bool) (earlier : List (GroupStep family))
    (step : GroupStep family) (id : CounterId family) : Option (GroupStep family) :=
  (heard spec earlier ++ [step]).find? (informs listed id)

theorem informs_iff_of_objects {listed : Bool} {id : CounterId family} {step : GroupStep family}
    (h : step.command.objects ≠ []) :
    step.informs listed id = true ↔ listed = true ∨ id ∈ step.requested := by
  simp [informs, h]

end GroupStep

namespace Discovery

open GroupStep

/-- What a group takes for granted is what its earlier steps found out, each counter in the mode
of the first step that informs of it. -/
structure Remembers (driver : Driver) (spec : GroupSpec) (object : ObjectId)
    (steps : List (GroupStep family)) (d : Discovery family) : Prop where
  follows : d.Follows (driver.offersList spec family.kind object)
  settled : ∀ id, d.Settled id ↔
    ∃ step, steps.find? (informs (driver.offersList spec family.kind object) id) = some step
  supported : ∀ id, SortedSet.has d.supported id = true ↔
    ∃ step, steps.find? (informs (driver.offersList spec family.kind object) id) = some step ∧
      driver.supports spec family.kind object step.mode id.raw = true

/-- Nothing was found out before the first step. -/
theorem remembers_initial (driver : Driver) (spec : GroupSpec) (object : ObjectId) :
    (initial : Discovery family).Remembers driver spec object [] where
  follows := follows_initial _
  settled id := by simp [Settled, initial, SortedSet.has]
  supported id := by simp [initial, SortedSet.has]

/-- After a registration the group remembers it too. -/
theorem remembers_learnt {object : ObjectId} {steps : List (GroupStep family)}
    {step : GroupStep family}
    (h : (step.before.discovery.onRegistration step.before.settings.spec).Remembers driver
      step.before.settings.spec object steps)
    (hobjects : step.command.objects ≠ []) :
    (step.before.learnt driver object step.mode step.command.names).Remembers driver
      step.before.settings.spec object (steps ++ [step]) where
  follows := StatsGroup.follows_learnt h.follows
  settled id := by
    rw [StatsGroup.settled_learnt h.follows, h.settled, List.find?_append, List.find?_singleton]
    change _ ∨ (driver.offersList step.before.settings.spec family.kind object = true ∨
      id ∈ step.requested) ↔ _
    generalize driver.offersList step.before.settings.spec family.kind object = listed
    rw [← informs_iff_of_objects hobjects]
    cases steps.find? (informs listed id) with
    | some found => simp
    | none => simp
  supported id := by
    rw [StatsGroup.has_supported_learnt h.follows, h.settled, h.supported, List.find?_append,
      List.find?_singleton]
    change _ ∨ (_ ∧ (driver.offersList step.before.settings.spec family.kind object = true ∨
      id ∈ step.requested) ∧ _) ↔ _
    generalize driver.offersList step.before.settings.spec family.kind object = listed
    rw [← informs_iff_of_objects hobjects]
    cases steps.find? (informs listed id) with
    | some found => simp
    | none => simp

/-- A step that registers nothing leaves the group with what it remembers. -/
theorem Remembers.append_of_objects {d : Discovery family} {spec : GroupSpec} {object : ObjectId}
    {steps : List (GroupStep family)} (h : d.Remembers driver spec object steps)
    {step : GroupStep family} (hobjects : step.command.objects = []) :
    d.Remembers driver spec object (steps ++ [step]) := by
  have hfind : ∀ listed id, (steps ++ [step]).find? (informs listed id) =
      steps.find? (informs listed id) := by
    intro listed id
    rw [List.find?_append, List.find?_singleton, if_neg (by simp [informs, hobjects]),
      Option.or_none]
  refine ⟨h.follows, fun id => ?_, fun id => ?_⟩
  · rw [h.settled, hfind]
  · rw [h.supported, hfind]

end Discovery

namespace StatsGroup

open GroupStep

variable {g : StatsGroup family} {spec : GroupSpec} {object : ObjectId}
  {earlier : List (GroupStep family)}

/-- What a step of a history finds out is remembered after it. -/
theorem remembers_step (halike : driver.SupportsAlike spec.kind family.kind)
    (hkeeps : spec.keepsSupported = false) {step : GroupStep family}
    (hspec : step.before.settings.spec = spec)
    (hdecision : step.decision = (step.before.decideOn step.command).valueWith driver)
    (hafter : step.after = step.before.conclude step.decision step.command)
    (h : (step.before.discovery.onRegistration spec).Remembers driver spec object
      (heard spec earlier)) :
    (step.after.discovery.onRegistration spec).Remembers driver spec object
      (heard spec (earlier ++ [step])) := by
  unfold Discovery.onRegistration heard at *
  by_cases hrediscovers : spec.rediscovers = true
  · simp only [if_pos hrediscovers, hkeeps]
    exact Discovery.remembers_initial driver spec object
  · simp only [if_neg hrediscovers] at h ⊢
    have hknown : step.after.discovery = step.decision.discovery := by
      rw [hafter, hdecision]
      exact discovery_conclude _ _ _ _
    rw [hknown, hdecision]
    cases hobjects : step.command.objects with
    | nil =>
      rw [valueWith_decideOn_of_nil hobjects]
      exact h.append_of_objects hobjects
    | cons first others =>
      subst hspec
      rw [(decideOn_learnt driver hobjects).1, learnt_congr _ halike first.2 object]
      refine Discovery.remembers_learnt ?_ (hobjects ▸ List.cons_ne_nil first others)
      rw [Discovery.onRegistration, if_neg hrediscovers]
      exact h

/-- Before each step of a history the group remembers what the earlier ones found out. -/
theorem remembers_course (halike : driver.SupportsAlike spec.kind family.kind)
    (hkeeps : spec.keepsSupported = false) {commands : List GroupCommand} {past : List Event}
    {steps rest : List (GroupStep family)} {step : GroupStep family}
    (hspec : g.settings.spec = spec)
    (h : (g.discovery.onRegistration spec).Remembers driver spec object (heard spec earlier))
    (hcourse : course (.unchanging driver) commands g past = steps ++ step :: rest) :
    step.before.settings.spec = spec ∧
      (step.before.discovery.onRegistration spec).Remembers driver spec object
        (heard spec (earlier ++ steps)) := by
  induction commands generalizing g past earlier steps with
  | nil => exact absurd hcourse (by simp [course])
  | cons command commands ih =>
    cases steps with
    | nil =>
      obtain ⟨rfl, -⟩ := List.cons.inj hcourse
      rw [List.append_nil]
      exact ⟨hspec, h⟩
    | cons first steps =>
      obtain ⟨hfirst, hrest⟩ := List.cons.inj hcourse
      have hbefore : first.before = g := by rw [← hfirst]
      have hdecision : first.decision = (first.before.decideOn first.command).valueWith driver := by
        rw [← hfirst]
        exact congrArg Dialogue.Outcome.value (Dialogue.run_unchanging driver _ past)
      have hafter : first.after = first.before.conclude first.decision first.command := by
        rw [← hfirst]
        exact value_perform g command (.unchanging driver) past
      have hvalue : ((g.perform command).run (.unchanging driver) past).value = first.after := by
        rw [← hfirst]
      rw [← hbefore] at hspec h
      have hstep := remembers_step halike hkeeps hspec hdecision hafter h
      have hspec' : first.after.settings.spec = spec := by
        rw [hafter, spec_conclude, hspec]
      rw [hvalue] at hrest
      have hlater := ih hspec' hstep hrest
      rwa [List.append_assoc] at hlater

/-- What a registration finds supported is what the group remembers with it. -/
theorem mem_supported_iff {step : GroupStep family} {steps : List (GroupStep family)}
    (halike : driver.SupportsAlike step.before.settings.spec.kind family.kind)
    (hobjects : step.command.objects ≠ [])
    (hdecision : step.decision = (step.before.decideOn step.command).valueWith driver)
    (h : (step.before.discovery.onRegistration step.before.settings.spec).Remembers driver
      step.before.settings.spec object steps) (id : CounterId family) :
    id ∈ step.decision.supported ↔ id ∈ step.requested ∧ ∃ found,
      (steps ++ [step]).find? (informs
        (driver.offersList step.before.settings.spec family.kind object) id) = some found ∧
      driver.supports step.before.settings.spec family.kind object found.mode id.raw = true := by
  obtain ⟨first, others, hfirst⟩ := List.exists_cons_of_ne_nil hobjects
  rw [hdecision, (decideOn_learnt driver hfirst).2, learnt_congr _ halike first.2 object,
    Discovery.mem_select]
  exact and_congr_right' ((Discovery.remembers_learnt h hobjects).supported id)

section Reading

variable {decision : Decision family} {own : Option ReadMode} {objects : List (ObjectId × ObjectId)}
  {vid : ObjectId} {id : CounterId family}

/-- A counter is read for an object, by itself or in bulk. -/
def ReadsFor (g : StatsGroup family) (vid : ObjectId) (id : CounterId family) : Prop :=
  (∃ r, g.singles.get? vid = some r ∧ id ∈ r.ids) ∨
    ∃ mode row, row.vid = vid ∧ g.partitions.Reads mode row id

/-- An object that a counter is read for is tracked. -/
theorem mem_vids_of_readsFor (h : g.ReadsFor vid id) : vid ∈ g.vids := by
  rcases h with ⟨r, hr, -⟩ | ⟨mode, row, rfl, hread⟩
  · exact mem_vids.mpr (.inl (SortedMap.contains_iff_get?.mpr ⟨r, hr⟩))
  · exact mem_vids.mpr (.inr hread.holds)

theorem holds_of_untrack {vid' : ObjectId}
    (h : (g.untrack vid').partitions.holds vid = true) : g.partitions.holds vid = true := by
  unfold untrack at h
  split at h
  · exact h
  · exact (PartitionTable.holds_remove.mp h).2

theorem holds_of_untrackAll {vids : List ObjectId}
    (h : (g.untrackAll vids).partitions.holds vid = true) : g.partitions.holds vid = true := by
  unfold untrackAll at h
  induction vids generalizing g with
  | nil => exact h
  | cons first rest ih => exact holds_of_untrack (ih h)

/-- An object that was not tracked in two ways is in no partition once it was dropped. -/
theorem not_holds_untrackAll {vids : List ObjectId}
    (h : ¬ (g.singles.contains vid = true ∧ g.partitions.holds vid = true)) (hvid : vid ∈ vids) :
    ¬ (g.untrackAll vids).partitions.holds vid = true := by
  induction vids generalizing g with
  | nil => exact absurd hvid List.not_mem_nil
  | cons first rest ih =>
    change ¬ ((g.untrack first).untrackAll rest).partitions.holds vid = true
    rcases List.mem_cons.mp hvid with rfl | hrest
    · intro hheld
      have hdropped := holds_of_untrackAll hheld
      unfold untrack at hdropped
      split at hdropped
      · next hsingle => exact h ⟨hsingle, hdropped⟩
      · exact (PartitionTable.holds_remove.mp hdropped).1 rfl
    · refine ih ?_ hrest
      rw [contains_untrack]
      exact fun hboth => h ⟨hboth.1.2, holds_of_untrack hboth.2⟩

/-- An object that was placed and is read by itself is read for the supported counters. -/
theorem ids_eq_of_get?_carryOut (hcovers : decision.Covers own objects)
    (hvid : vid ∈ decision.placements.map Placement.vid) {r : Registration family}
    (hr : (g.carryOut decision).singles.get? vid = some r) : r.ids = decision.supported := by
  rcases get?_settle hr with hold | ⟨p, hp, -, rfl, -⟩
  · have hcontains := SortedMap.contains_iff_get?.mpr ⟨r, hold⟩
    exact absurd hvid (contains_untrackAll.mp hcontains).1
  · obtain ⟨-, rid, -, hregistration⟩ := hcovers.placed hp
    rw [hregistration]

/-- The supported counters are read for each object of a decision. -/
theorem readsFor_carryOut (hcovers : decision.Covers own objects)
    (hvid : vid ∈ objects.map Prod.fst) (hid : id ∈ decision.supported) :
    (g.carryOut decision).ReadsFor vid id := by
  rw [← hcovers.vids_eq (List.ne_nil_of_mem hid)] at hvid
  obtain ⟨p, hp, rfl⟩ := List.mem_map.mp hvid
  cases hbulk : p.bulk with
  | true =>
    right
    refine ⟨p.registration.mode, objectRow p.vid p.registration.rid, rfl, ?_⟩
    obtain ⟨-, rid, -, hregistration⟩ := hcovers.placed hp
    refine (reads_carryOut_iff hcovers).mpr (.inr ⟨p, hp, hbulk, rfl, rfl, ?_⟩)
    rwa [hregistration]
  | false =>
    left
    have hcontains := (contains_carryOut (g := g)).mpr (.inr ⟨p, hp, rfl, hbulk⟩)
    obtain ⟨r, hr⟩ := SortedMap.contains_iff_get?.mp hcontains
    exact ⟨r, hr, (ids_eq_of_get?_carryOut hcovers hvid hr).symm ▸ hid⟩

/-- Nothing but the supported counters is read for an object of a decision that places it, unless it
was tracked in two ways before. -/
theorem mem_supported_of_readsFor (hcovers : decision.Covers own objects)
    (hsupported : decision.supported ≠ [])
    (h : ¬ (g.singles.contains vid = true ∧ g.partitions.holds vid = true))
    (hvid : vid ∈ objects.map Prod.fst) (hreads : (g.carryOut decision).ReadsFor vid id) :
    id ∈ decision.supported := by
  rw [← hcovers.vids_eq hsupported] at hvid
  rcases hreads with ⟨r, hr, hid⟩ | ⟨mode, row, hrow, hbulk⟩
  · rwa [ids_eq_of_get?_carryOut hcovers hvid hr] at hid
  · rcases (reads_carryOut_iff hcovers).mp hbulk with hold | ⟨p, hp, -, -, -, hid⟩
    · have hheld := hold.holds
      rw [hrow] at hheld
      exact absurd hheld (not_holds_untrackAll h hvid)
    · obtain ⟨-, rid, -, hregistration⟩ := hcovers.placed hp
      rwa [hregistration] at hid

/-- A decision without supported counters leaves what is tracked. -/
theorem carryOut_of_supported_eq_nil (hcovers : decision.Covers own objects)
    (hnil : decision.supported = []) : (g.carryOut decision).singles = g.singles ∧
      (g.carryOut decision).partitions = g.partitions := by
  rw [carryOut, hcovers.placements_eq_nil hnil]
  exact ⟨rfl, rfl⟩

/-- An object of a decision that was not tracked is tracked after it exactly if there are supported
counters. -/
theorem mem_vids_carryOut_of_new (hcovers : decision.Covers own objects)
    (hvid : vid ∈ objects.map Prod.fst) (hnew : vid ∉ g.vids) :
    vid ∈ (g.carryOut decision).vids ↔ ∃ id, id ∈ decision.supported := by
  constructor
  · intro htracked
    by_contra hnone
    have hnil := List.eq_nil_iff_forall_not_mem.mpr (not_exists.mp hnone)
    obtain ⟨hsingles, hpartitions⟩ := carryOut_of_supported_eq_nil (g := g) hcovers hnil
    rw [mem_vids, hsingles, hpartitions, ← mem_vids] at htracked
    exact hnew htracked
  · rintro ⟨id, hid⟩
    exact mem_vids_of_readsFor (readsFor_carryOut hcovers hvid hid)

end Reading

/-- With a driver that never changes and tells the same of all objects, the objects of a
registration are read for exactly the counters asked for that are supported in the mode of their
informant. If there are none, nothing that is tracked changes, and an object that was not tracked
before is tracked after if and only if there are some. That needs a group that keeps no counters
when it finds out anew; an object that was tracked in two ways may be read for more. -/
theorem registration_reads_supported (settings : GroupSettings)
    (hkeeps : settings.spec.keepsSupported = false)
    (halike : driver.SupportsAlike settings.spec.kind family.kind) (object : ObjectId)
    {commands : List GroupCommand} {past : List Event} {steps rest : List (GroupStep family)}
    {step : GroupStep family}
    (hcourse : course (.unchanging driver) commands (initial settings) past = steps ++ step :: rest)
    (hobjects : step.command.objects ≠ []) :
    let informant? := step.informant? settings.spec
      (driver.offersList settings.spec family.kind object) steps
    let supported (id : CounterId family) : Prop := id ∈ step.requested ∧
      ∃ found, informant? id = some found ∧
        driver.supports settings.spec family.kind object found.mode id.raw = true
    (∀ id ∈ step.requested, ∃ found, informant? id = some found) ∧
      ((∀ id, ¬ supported id) → step.after.singles = step.before.singles ∧
        step.after.partitions = step.before.partitions) ∧
      (∀ vid ∈ step.command.objects.map Prod.fst, vid ∉ step.before.vids →
        (vid ∈ step.after.vids ↔ ∃ id, supported id)) ∧
      ((∃ id, supported id) → ∀ vid ∈ step.command.objects.map Prod.fst, ∀ id,
        (supported id → step.after.ReadsFor vid id) ∧
        (¬ (step.before.singles.contains vid = true ∧ step.before.partitions.holds vid = true) →
          step.after.ReadsFor vid id → supported id)) := by
  intro informant? supported
  have hinitial : ((initial settings : StatsGroup family).discovery.onRegistration
      settings.spec).Remembers driver settings.spec object (heard settings.spec []) := by
    unfold Discovery.onRegistration heard
    rw [hkeeps]
    split <;> exact Discovery.remembers_initial driver settings.spec object
  obtain ⟨hspec, hremembers⟩ := remembers_course halike hkeeps rfl hinitial hcourse
  rw [List.nil_append] at hremembers
  have hmem : step ∈ course (.unchanging driver) commands (initial settings) past :=
    hcourse ▸ List.mem_append_right _ List.mem_cons_self
  obtain ⟨⟨past', hdecision⟩, hafter⟩ := mem_course hmem
  have hcovers := (step.before.decideOn_always step.command).value (.unchanging driver) past'
  rw [← hdecision] at hcovers
  rw [conclude_of_objects _ hobjects] at hafter
  rw [Dialogue.run_unchanging] at hdecision
  -- what the decision has as supported is what the group remembers
  have hsupported : ∀ id, id ∈ step.decision.supported ↔ supported id := by
    rw [← hspec] at halike hremembers
    have hmem := mem_supported_iff halike hobjects hdecision hremembers
    rw [hspec] at hmem
    exact hmem
  refine ⟨fun id hid => ?_, fun hnone => ?_, fun vid hvid hnew => ?_,
    fun ⟨id, hid⟩ vid hvid other => ⟨?_, fun htwice => ?_⟩⟩
  · have hinforms : step.informs (driver.offersList settings.spec family.kind object) id = true :=
      (informs_iff_of_objects hobjects).mpr (.inr hid)
    exact Option.isSome_iff_exists.mp (List.find?_isSome.mpr
      ⟨step, List.mem_append_right _ (List.mem_singleton_self step), hinforms⟩)
  · have hnil : step.decision.supported = [] :=
      List.eq_nil_iff_forall_not_mem.mpr fun id hid => hnone id ((hsupported id).mp hid)
    rw [hafter]
    exact carryOut_of_supported_eq_nil hcovers hnil
  · rw [hafter, mem_vids_carryOut_of_new hcovers hvid hnew]
    exact exists_congr hsupported
  · rw [← hsupported, hafter]
    exact readsFor_carryOut hcovers hvid
  · rw [← hsupported, hafter]
    have hsome := List.ne_nil_of_mem ((hsupported id).mpr hid)
    exact mem_supported_of_readsFor hcovers hsome htwice hvid

/-- A driver whose capability list has one counter, in one mode, and that reads everything as
zero. -/
def listsOnly (counter : Int) (mode : ReadMode) : Driver
  | .read _ _ ids => .ok (ids.map fun _ => 0)
  | .clear .. => .ok ()
  | .bulkRead .. => .ok ⟨fun _ => some .success, fun _ => some 0⟩
  | .capabilities .. => .ok [⟨counter, mode.mask⟩]
  | .attributes _ _ ids => .ok (ids.map fun _ => "")
  | .switchOf object => object

/-- Two buffer pools with modes of their own: the second comes to be tracked, and what it is read
for was found out in the mode of the first. -/
theorem registration_reads_supported_two_pools :
    let settings := GroupSettings.initial
      { GroupSpec.stats "Buffer Pool Counter" .bufferPoolStat "BUFFER_POOL_COUNTER_ID_LIST"
          none with
        perObjectMode := true } "POOLS"
    let names := ["SAI_BUFFER_POOL_STAT_CURR_OCCUPANCY_BYTES"]
    let steps := course (.unchanging (listsOnly 0 .read))
      [.add 1 0x101 names (some .read), .add 2 0x102 names (some .readAndClear)]
      (initial settings : StatsGroup .bufferPoolStat) []
    ∀ step, steps[1]? = some step → step.mode = .readAndClear ∧ step.requested ≠ [] ∧
      2 ∉ step.before.vids ∧ 2 ∈ step.after.vids ∧
      ∀ id ∈ step.requested, step.after.ReadsFor 2 id := by
  intro settings names steps step hstep
  have hcourse : steps = [steps[0]] ++ steps[1] :: [] := rfl
  obtain rfl : steps[1] = step := Option.some.inj hstep
  have halike : (listsOnly 0 .read).SupportsAlike settings.spec.kind settings.spec.kind :=
    ⟨fun _ _ => rfl, fun _ _ _ _ => rfl⟩
  obtain ⟨-, -, htracked, hread⟩ :=
    registration_reads_supported settings rfl halike 0 hcourse (by decide)
  have hraw : ∀ id ∈ steps[1].requested, id.raw = 0 := by decide +kernel
  have hsupported : ∀ id ∈ steps[1].requested,
      (listsOnly 0 .read).supports settings.spec settings.spec.kind 0 steps[0].mode id.raw =
        true := by
    intro id hid
    rw [hraw id hid]
    decide +kernel
  have hrequested : steps[1].requested ≠ [] := by decide +kernel
  have hnew : 2 ∉ steps[1].before.vids := by decide +kernel
  obtain ⟨first, hfirst⟩ := List.exists_mem_of_ne_nil _ hrequested
  refine ⟨by decide +kernel, hrequested, hnew, ?_, fun id hid => ?_⟩
  · exact (htracked 2 (by decide) hnew).mpr ⟨first, hfirst, steps[0], rfl, hsupported first hfirst⟩
  · have hfound := hsupported id hid
    exact (hread ⟨id, hid, steps[0], rfl, hfound⟩ 2 (by decide) id).1 ⟨hid, steps[0], rfl, hfound⟩

/-- A counter that may be read but not cleared is polled with clearing for a pool that asks for
that, because an earlier pool asked for it in the other mode. -/
theorem supported_in_another_mode :
    let settings := GroupSettings.initial
      { GroupSpec.stats "Buffer Pool Counter" .bufferPoolStat "BUFFER_POOL_COUNTER_ID_LIST"
          none with
        perObjectMode := true } "POOLS"
    let names := ["SAI_BUFFER_POOL_STAT_CURR_OCCUPANCY_BYTES"]
    settings.spec.keepsSupported = false ∧
      (listsOnly 0 .read).SupportsAlike settings.spec.kind settings.spec.kind ∧
      ¬ ∀ step ∈ course (.unchanging (listsOnly 0 .read))
          [.add 1 0x101 names (some .read), .add 2 0x102 names (some .readAndClear)]
          (initial settings : StatsGroup .bufferPoolStat) [],
        ∀ object ∈ step.command.objects, object.1 ∉ step.before.vids →
          (object.1 ∈ step.after.vids ↔ ∃ id ∈ step.requested, (listsOnly 0 .read).supports
            settings.spec settings.spec.kind object.2 step.mode id.raw = true) := by
  intro settings names
  refine ⟨rfl, ⟨fun _ _ => rfl, fun _ _ _ _ => rfl⟩, fun h => ?_⟩
  have hcase : ∃ step ∈ course (.unchanging (listsOnly 0 .read))
      [.add 1 0x101 names (some .read), .add 2 0x102 names (some .readAndClear)]
      (initial settings : StatsGroup .bufferPoolStat) [],
      (2, 0x102) ∈ step.command.objects ∧ 2 ∉ step.before.vids ∧ 2 ∈ step.after.vids ∧
        ∀ id ∈ step.requested, (listsOnly 0 .read).supports settings.spec settings.spec.kind 0x102
          step.mode id.raw = false := by
    decide +kernel
  obtain ⟨step, hstep, hobject, hnew, hlisted, hnone⟩ := hcase
  obtain ⟨id, hid, hsupported⟩ := (h step hstep (2, 0x102) hobject hnew).mp hlisted
  exact Bool.false_ne_true ((hnone id hid).symm.trans hsupported)

end StatsGroup

end CounterPolling
