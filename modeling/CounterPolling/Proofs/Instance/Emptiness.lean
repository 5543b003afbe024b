import CounterPolling.Proofs.Group.Others
import CounterPolling.Proofs.Instance.Configuration
import CounterPolling.Proofs.Instance.Inheritance

/-!
# What may leave an instance empty

An instance that was retired may end once it is empty. Configuring it never leaves it empty, and
neither does a registration, unless all that the instance tracks are interfaces that the call itself
registers anew: their buckets may fail the trial after the earlier registration was dropped. Main
statements: `Instance.configure_keeps` and `Instance.registration_keeps`.
-/

namespace CounterPolling

namespace StatsGroup

variable {family : CounterFamily} {g : StatsGroup family}

theorem tracksAny_iff : g.tracksAny = true ↔ ∃ vid, vid ∈ g.vids := by
  have hbulk : (g.partitions.any fun _ p => !p.isEmpty) = true ↔
      ∃ vid, g.partitions.holds vid = true := by
    simp only [PartitionTable.holds, SortedMap.any, List.any_eq_true, Bool.not_eq_true',
      Partition.holds_iff_mem, Partition.isEmpty]
    constructor
    · rintro ⟨entry, hentry, hrows⟩
      obtain ⟨row, hrow⟩ := List.exists_mem_of_ne_nil _ (List.isEmpty_eq_false_iff.mp hrows)
      exact ⟨row.vid, entry, hentry, row, hrow, rfl⟩
    · rintro ⟨vid, entry, hentry, row, hrow, -⟩
      exact ⟨entry, hentry, List.isEmpty_eq_false_iff.mpr (List.ne_nil_of_mem hrow)⟩
  rw [tracksAny, Bool.or_eq_true, Bool.not_eq_true', ← SortedMap.exists_contains_iff, hbulk,
    ← exists_or]
  exact exists_congr fun vid => mem_vids.symm

/-- A decision that is carried out leaves objects where there were some. -/
theorem tracksAny_carryOut {decision : Decision family} {own : Option ReadMode}
    {objects : List (ObjectId × ObjectId)} (hcovers : decision.Covers own objects)
    (h : g.tracksAny = true) : (g.carryOut decision).tracksAny = true := by
  -- a decision without placements changes what is known only; else its first object is there
  cases hplacements : decision.placements with
  | nil =>
    have heq : g.carryOut decision = { g with discovery := decision.discovery } := by
      rw [carryOut, hplacements]
      rfl
    rw [heq]
    exact h
  | cons p rest =>
    have hp : p ∈ decision.placements := hplacements ▸ List.mem_cons_self
    have hids : ∀ q ∈ decision.placements, q.registration.ids ≠ [] := by
      intro q hq
      obtain ⟨hsupported, rid, -, hregistration⟩ := hcovers.placed hq
      rw [hregistration]
      exact hsupported
    refine tracksAny_iff.mpr ⟨p.vid, mem_vids.mpr ?_⟩
    rw [carryOut, contains_settle, holds_settle hids]
    cases hbulk : p.bulk with
    | true => exact .inr (.inr ⟨p, hp, rfl, hbulk⟩)
    | false => exact .inl (.inr ⟨p, hp, rfl, hbulk⟩)

end StatsGroup

namespace Group

variable {group : Group} {objects : List ObjectId}

theorem tracksAny_iff : group.tracksAny = true ↔ ∃ vid, vid ∈ group.vids := by
  cases group with
  | stats family g => exact StatsGroup.tracksAny_iff
  | attributes family g =>
    rw [tracksAny, Bool.not_eq_true', ← SortedMap.exists_contains_iff]
    exact exists_congr fun vid => SortedMap.contains_iff
  | meterBuckets g =>
    rw [tracksAny, Bool.not_eq_true', ← SortedMap.exists_contains_iff]
    exact exists_congr fun vid => SortedMap.contains_iff

/-- A group tracks something that a registration of objects cannot drop: anything, but for
interfaces, which are dropped before their buckets are tried anew. -/
def Anchored (objects : List ObjectId) : Group → Prop
  | stats _ g => g.tracksAny = true
  | attributes _ g => g.objects.isEmpty = false
  | meterBuckets g => ∃ vid ∈ g.vids, vid ∉ objects

theorem Anchored.tracksAny (h : group.Anchored objects) : group.tracksAny = true := by
  cases group with
  | stats family g => exact h
  | attributes family g =>
    rw [Group.tracksAny, Bool.not_eq_true']
    exact h
  | meterBuckets g =>
    obtain ⟨vid, hvid, -⟩ := h
    exact tracksAny_iff.mpr ⟨vid, hvid⟩

/-- A group that tracks something and is not anchored has interfaces that are registered anew. -/
theorem exists_meterBuckets (htracks : group.tracksAny = true) (h : ¬ group.Anchored objects) :
    ∃ g, group = .meterBuckets g ∧ ∀ vid ∈ g.vids, vid ∈ objects := by
  cases group with
  | stats family g => exact absurd htracks h
  | attributes family g =>
    rw [Group.tracksAny, Bool.not_eq_true'] at htracks
    exact absurd htracks h
  | meterBuckets g =>
    refine ⟨g, rfl, fun vid hvid => ?_⟩
    by_contra hother
    exact h ⟨vid, hvid, hother⟩

/-- Registering one of the objects keeps a group anchored. -/
theorem add_anchored (h : group.Anchored objects) {vid : ObjectId} (hvid : vid ∈ objects)
    (rid : ObjectId) (names : List String) (asked : Option ReadMode) :
    (group.add vid rid names asked).Always (Anchored objects) := by
  cases group with
  | stats family g =>
    refine (Dialogue.always_map _ _ _).mpr ?_
    refine (g.perform_always (.add vid rid names asked)).mono ?_
    rintro after ⟨decision, hcovers, rfl⟩
    exact StatsGroup.tracksAny_carryOut hcovers h
  | attributes family g =>
    rw [add, Dialogue.always_map]
    refine (g.add_always vid rid names).mono ?_
    rintro after (⟨-, rfl⟩ | ⟨-, rfl⟩)
    · exact h
    · exact SortedMap.exists_contains_iff.mp ⟨vid, SortedMap.contains_insert.mpr (.inl rfl)⟩
  | meterBuckets g =>
    rw [add, Dialogue.always_map]
    refine (g.add_always vid rid names).mono ?_
    rintro after ⟨switch, houtcome⟩
    -- the interface that anchors the group is not the one registered, which alone may be dropped
    obtain ⟨other, hother, hfresh⟩ := h
    have hne : other ≠ vid := fun heq => hfresh (heq ▸ hvid)
    exact ⟨other, (houtcome.mem_vids_iff hne).mpr hother, hfresh⟩

/-- A registration of the objects keeps a group anchored. -/
theorem registerWith_anchored {vids : List ObjectId} (h : group.Anchored vids)
    (rids : List ObjectId) (names : List String) (asked : Option ReadMode) :
    (Instance.registerWith group vids rids names asked).Always (Anchored vids) := by
  refine registerWith_always (fun before hbefore vid hvid rid => ?_)
    (fun family g decision own objects hcovers _ hg => ?_) h rids
  · exact add_anchored hbefore hvid rid names asked
  · exact StatsGroup.tracksAny_carryOut hcovers hg

/-- No setting makes a group that is rightly filed drop an object. -/
theorem vids_tell (h : group.Filed) (setting : Setting) :
    (group.tell setting).vids = group.vids := by
  cases setting with
  | mode value => cases group <;> rfl
  | chunkSize value =>
    cases group with
    | stats family g =>
      exact StatsGroup.vids_eq_of_holds rfl fun vid => by
        rw [StatsGroup.withChunkSize, PartitionTable.holds_resize]
    | _ => rfl
  | prefixes value =>
    rcases group.withPrefixes_cases value with hrefused | ⟨after, htaken, -⟩
    · rw [tell, hrefused]
      rfl
    · rw [tell, htaken]
      exact (h.takes htaken).vids_eq
  | _ => rfl

theorem vids_withPlugins (group : Group) (names : List String) :
    (group.withPlugins names).vids = group.vids :=
  vids_mapSettings _ group

theorem runsPlugins_iff : group.runsPlugins = true ↔
    ∃ plugin, SortedSet.has group.settings.plugins plugin = true := by
  rw [runsPlugins, Bool.not_eq_true', ← SortedMap.exists_contains_iff]
  rfl

/-- A group that runs plugins goes on to run them, whatever setting it hears of. -/
theorem runsPlugins_tell (h : group.runsPlugins = true) (setting : Setting) :
    (group.tell setting).runsPlugins = true := by
  rcases group.settings_tell setting with hsettings | ⟨prefixes, refusal, -, -, hsame⟩
  · rw [runsPlugins, hsettings]
    cases setting <;> exact h
  · rwa [hsame]

theorem runsPlugins_withPlugins (h : group.runsPlugins = true) (names : List String) :
    (group.withPlugins names).runsPlugins = true := by
  obtain ⟨plugin, hplugin⟩ := runsPlugins_iff.mp h
  refine runsPlugins_iff.mpr ⟨plugin, ?_⟩
  rw [settings_withPlugins]
  exact SortedSet.has_addAll.mpr (.inr hplugin)

end Group

namespace Instance

variable {i : Instance} {objects : List ObjectId}

/-- An instance is not empty as long as some group has an object or a plugin. -/
theorem isEmpty_eq_false_iff : i.isEmpty = false ↔
    ∃ name g, i.groups.get? name = some g ∧ (g.tracksAny = true ∨ g.runsPlugins = true) := by
  rw [isEmpty, List.all_eq_false]
  simp only [SortedMap.get?_eq_some_iff, SortedMap.values, List.mem_map]
  constructor
  · rintro ⟨_, ⟨entry, hentry, rfl⟩, hbusy⟩
    refine ⟨entry.1, entry.2, hentry, ?_⟩
    simpa [or_iff_not_imp_left] using hbusy
  · rintro ⟨name, g, hentry, hbusy⟩
    refine ⟨g, ⟨(name, g), hentry, rfl⟩, ?_⟩
    simpa [or_iff_not_imp_left] using hbusy

section Configuration

/-- A field never leaves an instance empty, and does not allow it to end. -/
theorem applyField_keeps (h : i.Every Group.Filed) (field : String × String) :
    (i.applyField field).1.retired = i.retired ∧
      (i.isEmpty = false → (i.applyField field).1.isEmpty = false) := by
  unfold applyField
  cases hsetting : Setting.ofField field.1 field.2 with
  | error refusal => exact ⟨rfl, id⟩
  | ok setting =>
    refine ⟨by cases setting <;> rfl, fun hbusy => ?_⟩
    obtain ⟨name, g, hg, hbusy⟩ := isEmpty_eq_false_iff.mp hbusy
    obtain ⟨after, hafter, heq⟩ := exists_get?_apply hg setting
    refine isEmpty_eq_false_iff.mpr ⟨name, after, hafter, ?_⟩
    rw [Group.tracksAny_iff] at hbusy ⊢
    rcases heq with rfl | ⟨names, rfl⟩
    · rw [Group.vids_tell (h name g hg)]
      exact hbusy.imp id fun hplugins => Group.runsPlugins_tell hplugins setting
    · rw [Group.vids_withPlugins]
      exact hbusy.imp id fun hplugins => Group.runsPlugins_withPlugins hplugins names

/-- Configuring an instance never leaves it empty, and does not allow it to end. -/
theorem configure_keeps (h : i.Every Group.Filed) (fields : List (String × String)) :
    (i.configure fields).Always fun after => after.retired = i.retired ∧
      (i.isEmpty = false → after.isEmpty = false) := by
  have hcarried : (i.configure fields).Always fun after => after.Every Group.Filed ∧
      after.retired = i.retired ∧ (i.isEmpty = false → after.isEmpty = false) := by
    rw [configure_eq]
    refine Dialogue.Always.carry (fun before hbefore field _ => ?_) ⟨h, rfl, id⟩
    obtain ⟨hfiled, hretired, hkept⟩ := hbefore
    obtain ⟨hretired', hkept'⟩ := applyField_keeps hfiled field
    refine Dialogue.always_bind_of_forall fun _ => ?_
    exact ⟨hfiled.applyField Group.filed_invariant field, hretired'.trans hretired,
      fun hbusy => hkept' (hkept hbusy)⟩
  exact hcarried.mono fun _ hafter => hafter.2

end Configuration

section Registration

/-- An instance has something that a registration of objects cannot take away. -/
def Anchored (objects : List ObjectId) (i : Instance) : Prop :=
  ∃ name g, i.groups.get? name = some g ∧ (g.Anchored objects ∨ g.runsPlugins = true)

theorem Anchored.isEmpty_eq_false (h : i.Anchored objects) : i.isEmpty = false := by
  obtain ⟨name, g, hg, hbusy⟩ := h
  exact isEmpty_eq_false_iff.mpr ⟨name, g, hg, hbusy.imp Group.Anchored.tracksAny id⟩

/-- A registration of objects takes nothing else away, and does not allow the instance to end. -/
theorem registration_keeps {control : Control} (hcontrol : control.registers = true) :
    (control.perform i).Always fun after => after.retired = i.retired ∧
      (i.Anchored control.vids → after.Anchored control.vids) := by
  refine registration_always hcontrol (fun before spec rids names asked hbefore _ => ?_) ⟨rfl, id⟩
  obtain ⟨hretired, hkept⟩ := hbefore
  by_cases hanchored : i.Anchored control.vids
  · obtain ⟨name, g, hg, hbusy⟩ := hkept hanchored
    by_cases hname : spec.name = name
    · subst hname
      have hfound : before.groupFor spec = g := by
        rw [groupFor, hg, Option.getD_some]
      rw [hfound]
      have hput : ∀ after : Group, after.Anchored control.vids ∨ after.runsPlugins = true →
          (before.putGroup spec after).Anchored control.vids := fun after hafter =>
        ⟨spec.name, after, SortedMap.get?_insert_self _ _ _, hafter⟩
      rcases hbusy with hobject | hplugins
      · refine (Group.registerWith_anchored hobject rids names asked).mono fun after hafter => ?_
        exact ⟨hretired, fun _ => hput after (.inl hafter)⟩
      · refine (g.registerWith_settings _ rids names asked).mono fun after hafter => ?_
        refine ⟨hretired, fun _ => hput after (.inr ?_)⟩
        rwa [Group.runsPlugins, hafter]
    · refine Dialogue.always_of_forall (fun after => ⟨hretired, fun _ => ?_⟩) _
      exact ⟨name, g, (SortedMap.get?_insert_of_ne _ _ hname).trans hg, hbusy⟩
  · exact Dialogue.always_of_forall (fun after => ⟨hretired, fun h => absurd h hanchored⟩) _

end Registration

end Instance

end CounterPolling
