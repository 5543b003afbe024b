import CounterPolling.Proofs.Group.Removal
import CounterPolling.Proofs.Instance.Housing

/-!
# Dropping one object from an instance

A removal goes to the groups for objects of the kind that the id tells. It reaches a
registration exactly if the object was registered as one of that kind, which a registration of
many objects need not do, and it concerns no other object. Main statement:
`Instance.remove_reaches_iff`.
-/

namespace CounterPolling

namespace Group

/-- The group after a removal, which goes to groups for objects of the kind that the id tells. -/
def afterRemoval (vid : ObjectId) (g : Group) : Group :=
  if vid.kind? = some g.settings.spec.kind then g.without vid else g

/-- What a removal does to a group: settings stay, other objects are tracked as before, and the
object is dropped unless the group is for another kind than the id tells. -/
structure Drops (vid : ObjectId) (before after : Group) : Prop where
  settings_eq : after.settings = before.settings
  mem_vids_iff : vid ∈ after.vids ↔ vid ∈ before.vids ∧ vid.kind? ≠ some before.settings.spec.kind
  others : ∀ other, other ≠ vid →
    (other ∈ after.vids ↔ other ∈ before.vids) ∧ after.tracking other = before.tracking other

theorem afterRemoval_drops {g : Group} (h : g.Exclusive) (vid : ObjectId) :
    Drops vid g (g.afterRemoval vid) := by
  unfold afterRemoval
  split
  · next hkind =>
    refine ⟨g.settings_without vid, ?_, fun other hother => ⟨?_, g.tracking_without hother⟩⟩
    · rw [mem_vids_without h]
      exact iff_of_false (fun hvid => hvid.1 rfl) (fun hvid => hvid.2 hkind)
    · rw [mem_vids_without h]
      exact and_iff_right hother
  · next hkind => exact ⟨rfl, (and_iff_left hkind).symm, fun other _ => ⟨Iff.rfl, rfl⟩⟩

end Group

namespace Instance

variable {listed : ObjectKind → ObjectId → Prop} {i : Instance}

/-- The instance once an object was dropped from the groups of some specifications. -/
def withoutIn (i : Instance) (vid : ObjectId) (specs : List GroupSpec) : Instance :=
  { i with
    groups := i.groups.map fun name g =>
      if name ∈ specs.map GroupSpec.name then g.without vid else g }

/-- Instances that differ in their groups at most are told apart by the look-ups of groups. -/
theorem eq_of_get? {groups groups' : SortedMap String Group}
    (h : ∀ name, groups.get? name = groups'.get? name) :
    { i with groups := groups } = { i with groups := groups' } := by
  rw [SortedMap.ext_get? h]

/-- Where none of the groups is present, nothing is dropped. -/
theorem withoutIn_of_absent {vid : ObjectId} {specs : List GroupSpec}
    (h : ∀ spec ∈ specs, i.groups.contains spec.name = false) : i.withoutIn vid specs = i := by
  refine eq_of_get? fun name => ?_
  rw [SortedMap.get?_map]
  cases hfound : i.groups.get? name with
  | none => rfl
  | some g =>
    have hname : name ∉ specs.map GroupSpec.name := by
      intro hmem
      obtain ⟨spec, hspec, rfl⟩ := List.mem_map.mp hmem
      rw [SortedMap.contains_eq_false_iff.mp (h spec hspec)] at hfound
      cases hfound
    rw [Option.map_some, if_neg hname]

theorem value_removeFrom (i : Instance) (vid : ObjectId) (spec : GroupSpec) (switch : Switch)
    (past : List Event) :
    ((removeFrom vid i spec).run switch past).value = i.withoutIn vid [spec] := by
  unfold removeFrom
  cases hfound : i.groups.get? spec.name with
  | none =>
    have habsent : ∀ other ∈ [spec], i.groups.contains other.name = false := by
      intro other hother
      rw [List.mem_singleton.mp hother]
      exact SortedMap.contains_eq_false_iff.mpr hfound
    exact (withoutIn_of_absent habsent).symm
  | some g =>
    dsimp only
    rw [Dialogue.value_run_bind, Group.value_remove]
    refine eq_of_get? fun name => ?_
    rw [SortedMap.get?_map]
    by_cases hname : spec.name = name
    · subst hname
      rw [SortedMap.get?_insert_self, hfound]
      simp
    · rw [SortedMap.get?_insert_of_ne _ _ hname]
      simp [Ne.symm hname]

/-- Dropping an object from one group and then from others is dropping it from all of them. -/
theorem withoutIn_withoutIn {vid : ObjectId} {spec : GroupSpec} {specs : List GroupSpec}
    (h : spec.name ∉ specs.map GroupSpec.name) :
    (i.withoutIn vid [spec]).withoutIn vid specs = i.withoutIn vid (spec :: specs) := by
  refine eq_of_get? fun name => ?_
  simp only [withoutIn, SortedMap.get?_map, Option.map_map]
  refine congrArg (Option.map · _) (funext fun g => ?_)
  by_cases hname : name = spec.name
  · subst hname
    simp [h]
  · simp [hname]

/-- Dropping an object from groups in turn is dropping it from all of them. -/
theorem value_carry_removeFrom {specs : List GroupSpec}
    (h : (specs.map GroupSpec.name).Nodup) (i : Instance) (vid : ObjectId) (switch : Switch)
    (past : List Event) :
    ((Dialogue.carry (removeFrom vid) i specs).run switch past).value = i.withoutIn vid specs := by
  induction specs generalizing i past with
  | nil => exact (withoutIn_of_absent fun spec hspec => absurd hspec List.not_mem_nil).symm
  | cons spec specs ih =>
    obtain ⟨hfirst, hrest⟩ := List.nodup_cons.mp h
    rw [Dialogue.carry, Dialogue.value_run_bind, ih hrest, value_removeFrom,
      withoutIn_withoutIn hfirst]

/-- Whatever the driver answers, a removal concerns the groups of the kind that the id tells. -/
theorem value_remove {vid : ObjectId} {kind : ObjectKind} (h : vid.kind? = some kind)
    (i : Instance) (switch : Switch) (past : List Event) :
    ((i.remove vid).run switch past).value = i.withoutIn vid (GroupSpec.ofKind kind) := by
  unfold remove
  simp only [h]
  split
  · exact value_carry_removeFrom (GroupSpec.names_nodup.sublist (List.filter_sublist.map _)) i vid
      switch past
  · next habsent =>
    rw [Dialogue.value_run_bind]
    refine (withoutIn_of_absent fun spec hspec => ?_).symm
    simpa using List.any_eq_false.mp (Bool.eq_false_iff.mpr habsent) spec hspec

/-- Where groups stand in their places, those of the kind that the id tells drop the object. -/
theorem Housed.value_remove (h : i.Housed listed) (vid : ObjectId) (switch : Switch)
    (past : List Event) :
    ((i.remove vid).run switch past).value = i.mapGroups (Group.afterRemoval vid) := by
  cases hkind : vid.kind? with
  | none =>
    unfold Instance.remove
    simp only [hkind]
    rw [Dialogue.value_run_bind]
    refine eq_of_get? fun name => ?_
    simp [Group.afterRemoval, hkind]
  | some kind =>
    rw [Instance.value_remove hkind]
    refine eq_of_get? fun name => ?_
    rw [SortedMap.get?_map, SortedMap.get?_map]
    cases hfound : i.groups.get? name with
    | none => rfl
    | some g =>
      have hg := h name g hfound
      have hiff : name ∈ (GroupSpec.ofKind kind).map GroupSpec.name ↔
          some kind = some g.settings.spec.kind := by
        rw [Option.some_inj, List.mem_map]
        constructor
        · rintro ⟨spec, hspec, hname⟩
          obtain ⟨hknown, rfl⟩ := GroupSpec.mem_ofKind.mp hspec
          rw [GroupSpec.eq_of_name_eq hknown hg.known (hname.trans hg.name_eq.symm)]
        · rintro rfl
          exact ⟨_, GroupSpec.mem_ofKind.mpr ⟨hg.known, rfl⟩, hg.name_eq⟩
      simp only [Option.map_some, hiff, Group.afterRemoval, hkind]

/-- After any calls that register no object twice, removing an object changes nothing but the
groups, none of which comes or goes. A group lists the object afterwards exactly if it did so
before and is for another kind than the id tells, and every other object is tracked as before. So
no group lists the object if no call ever registered it as of another kind. -/
theorem remove_reaches_iff {controls : List Control} (h : i.ReachedBy controls)
    (hdistinct : ∀ control ∈ controls, control.Distinct) (vid : ObjectId) (switch : Switch)
    (past : List Event) :
    let after := ((Control.perform i (.remove vid)).run switch past).value
    after = { i with groups := after.groups } ∧ after.groups.keys = i.groups.keys ∧
    (∀ name g g', i.groups.get? name = some g → after.groups.get? name = some g' →
      Group.Drops vid g g') ∧
    ((∀ control ∈ controls, ∀ kind, control.Registers kind vid → vid.kind? = some kind) →
      ∀ g' ∈ after.groups.values, vid ∉ g'.vids) := by
  intro after
  have hhoused := h.housed hdistinct
  have hafter : after = i.mapGroups (Group.afterRemoval vid) :=
    hhoused.value_remove vid switch past
  have hlookup : ∀ name, after.groups.get? name =
      (i.groups.get? name).map (Group.afterRemoval vid) := by
    intro name
    rw [hafter, mapGroups, SortedMap.get?_map]
  refine ⟨?_, ?_, ?_, ?_⟩
  · rw [hafter]
    rfl
  · rw [hafter]
    exact SortedMap.keys_map _ _
  · intro name g g' hg hg'
    rw [hlookup, hg] at hg'
    obtain rfl := Option.some.inj hg'
    exact Group.afterRemoval_drops (hhoused name g hg).exclusive vid
  · intro htells g' hg' hvid
    obtain ⟨⟨name, _⟩, hentry, rfl⟩ := List.mem_map.mp hg'
    have hfound := SortedMap.get?_eq_some_iff.mpr hentry
    rw [hlookup, Option.map_eq_some_iff] at hfound
    obtain ⟨g, hg, rfl⟩ := hfound
    have hgroup := hhoused name g hg
    obtain ⟨hlists, hkind⟩ := (Group.afterRemoval_drops hgroup.exclusive vid).mem_vids_iff.mp hvid
    obtain ⟨control, hcontrol, hregisters⟩ := hgroup.vids_listed vid hlists
    exact hkind (htells control hcontrol _ hregisters)

/-- Of two ports and a queue that was registered as a port, a removal of a port reaches it, and a
removal of the queue does not; how the other port is tracked does not change. -/
theorem remove_reaches_iff_two_ports :
    let fields := [("PORT_COUNTER_ID_LIST", "SAI_PORT_STAT_IF_IN_OCTETS")]
    let port : ObjectId := .virtual .port 1
    let other : ObjectId := .virtual .port 2
    let queue : ObjectId := .virtual .queue 1
    let switch : Switch := .unchanging (StatsGroup.rowFails (.object 0x103))
    let alone := (((initial "PORTS" .standard).add port 0x101 fields).run switch []).value
    let i := ((alone.addMany .port [other, queue] [0x102, 0x103] fields).run switch []).value
    let after (vid : ObjectId) := ((i.remove vid).run switch []).value
    i.groups.values.map Group.vids = [[port, other, queue]] ∧
      (∀ g' ∈ (after other).groups.values, other ∉ g'.vids) ∧
      ∀ name g g', i.groups.get? name = some g → (after queue).groups.get? name = some g' →
        (queue ∈ g'.vids ↔ queue ∈ g.vids ∧ queue.kind? ≠ some g.settings.spec.kind) ∧
          g'.tracking port = g.tracking port := by
  intro fields port other queue switch alone i after
  have hi : i.ReachedBy [.add port 0x101 fields,
      .addMany .port [other, queue] [0x102, 0x103] fields] :=
    .perform _ switch [] (.perform _ switch [] (.initial "PORTS" .standard))
  have hdistinct : ∀ control ∈ ([.add port 0x101 fields,
      .addMany .port [other, queue] [0x102, 0x103] fields] : List Control), control.Distinct := by
    decide
  refine ⟨by decide +kernel, ?_, ?_⟩
  · obtain ⟨-, -, -, hgone⟩ := remove_reaches_iff hi hdistinct other switch []
    refine hgone fun control hcontrol kind hregisters => ?_
    rcases List.mem_cons.mp hcontrol with rfl | hcontrol
    · exact hregisters.2
    · rw [List.mem_singleton.mp hcontrol] at hregisters
      rw [← hregisters.1]
      decide +kernel
  · intro name g g' hg hg'
    obtain ⟨-, -, hgroup, -⟩ := remove_reaches_iff hi hdistinct queue switch []
    have hdrops := hgroup name g g' hg hg'
    exact ⟨hdrops.mem_vids_iff, (hdrops.others port (by decide)).2⟩

/-- A queue that was registered as a port stays listed when it is removed. -/
theorem misfiled_queue_outlives_removal :
    ¬ ∀ (controls : List Control) (i : Instance), i.ReachedBy controls →
      (∀ control ∈ controls, control.Distinct) →
      ∀ (vid : ObjectId) (switch : Switch) (past : List Event),
        ∀ g' ∈ ((Control.perform i (.remove vid)).run switch past).value.groups.values,
          vid ∉ g'.vids := by
  intro h
  let queue : ObjectId := .virtual .queue 1
  let switch : Switch := .unchanging (StatsGroup.rowFails (.object 0x102))
  let call : Control :=
    .addMany .port [queue] [0x101] [("PORT_COUNTER_ID_LIST", "SAI_PORT_STAT_IF_IN_OCTETS")]
  have hreached := ReachedBy.perform call switch [] (.initial "QUEUES" .standard)
  have hdistinct : ∀ control ∈ [call], control.Distinct := by
    decide
  have hgone := h [call] _ hreached hdistinct queue switch []
  revert hgone
  decide +kernel

end Instance

end CounterPolling
