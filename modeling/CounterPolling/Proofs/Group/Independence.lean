import CounterPolling.Proofs.Group.Reading
import CounterPolling.Proofs.Partition.Apart

/-!
# Objects apart from each other

A call that registers or drops objects leaves all that a group has of any other object: what
stands under it, and in every partition its rows, in their order, with the counters and the chunk
size that they are read with. So an object that was not tracked may come and go without a trace.
Main statement: `Group.calls_leave_others`.
-/

namespace CounterPolling

section Absent

variable {named : List ObjectId}

/-- Objects that a sound group does not track have no row in its partitions. -/
theorem StatsGroup.Sound.partitions_apartFrom {family : CounterFamily} {g : StatsGroup family}
    (h : g.Sound) (habsent : ∀ vid ∈ named, vid ∉ g.vids) :
    g.partitions.apartFrom named = g.partitions := by
  refine SortedMap.apartFrom_eq_self fun key p hp => ⟨(h.table.fits hp).rows_ne_nil, ?_⟩
  intro row hrow hvid
  refine habsent row.vid hvid (mem_vids.mpr (.inr ?_))
  exact PartitionTable.holds_iff.mpr ⟨key, row, by rwa [PartitionTable.rowsAt_eq hp], rfl⟩

/-- Nor have interfaces that a sound group does not track. -/
theorem MeterGroup.Sound.partitions_apartFrom {g : MeterGroup} (h : g.Sound)
    (habsent : ∀ vid ∈ named, vid ∉ g.vids) : g.partitions.apartFrom named = g.partitions := by
  refine SortedMap.apartFrom_eq_self fun ids p hp => ⟨(h.filed ids p hp).1, ?_⟩
  intro row hrow hvid
  refine habsent row.vid hvid (h.mem_vids_iff.mpr ⟨ids, p, hp, ?_⟩)
  exact Partition.holds_iff_mem.mpr ⟨row, hrow, rfl⟩

end Absent

namespace Group

/-- Groups of one kind have the same objects: the same stands under each of them, and the same
partitions hold the same rows in the same order. -/
inductive SameObjects : Group → Group → Prop
  | stats {family : CounterFamily} {g g' : StatsGroup family} :
    g.singles = g'.singles → g.partitions = g'.partitions →
    SameObjects (stats family g) (stats family g')
  | attributes {family : CounterFamily} {g g' : AttributeGroup family} :
    g.objects = g'.objects → SameObjects (attributes family g) (attributes family g')
  | meterBuckets {g g' : MeterGroup} :
    g.interfaces = g'.interfaces → g.partitions = g'.partitions →
    SameObjects (meterBuckets g) (meterBuckets g')

variable {group group' group'' : Group} {named : List ObjectId} {vid other : ObjectId}

theorem SameObjects.refl (group : Group) : group.SameObjects group := by
  cases group with
  | stats family g => exact .stats rfl rfl
  | attributes family g => exact .attributes rfl
  | meterBuckets g => exact .meterBuckets rfl rfl

theorem SameObjects.symm (h : group.SameObjects group') : group'.SameObjects group := by
  cases h with
  | stats hsingles hpartitions => exact .stats hsingles.symm hpartitions.symm
  | attributes hobjects => exact .attributes hobjects.symm
  | meterBuckets hinterfaces hpartitions => exact .meterBuckets hinterfaces.symm hpartitions.symm

theorem SameObjects.trans (h : group.SameObjects group') (h' : group'.SameObjects group'') :
    group.SameObjects group'' := by
  cases h with
  | stats hsingles hpartitions =>
    cases h' with
    | stats hsingles' hpartitions' =>
      exact .stats (hsingles.trans hsingles') (hpartitions.trans hpartitions')
  | attributes hobjects =>
    cases h' with
    | attributes hobjects' => exact .attributes (hobjects.trans hobjects')
  | meterBuckets hinterfaces hpartitions =>
    cases h' with
    | meterBuckets hinterfaces' hpartitions' =>
      exact .meterBuckets (hinterfaces.trans hinterfaces') (hpartitions.trans hpartitions')

theorem SameObjects.tracking_eq (h : group.SameObjects group') (vid : ObjectId) :
    group.tracking vid = group'.tracking vid := by
  cases h with
  | stats hsingles hpartitions => rw [tracking, tracking, hsingles, hpartitions]
  | attributes hobjects => rw [tracking, tracking, hobjects]
  | meterBuckets hinterfaces hpartitions => rw [tracking, tracking, hinterfaces, hpartitions]

/-- A group without what it has of some objects. -/
def apartFrom (group : Group) (named : List ObjectId) : Group :=
  match group with
  | stats family g =>
    stats family { g with
      singles := g.singles.eraseAll named
      partitions := g.partitions.apartFrom named }
  | attributes family g => attributes family { g with objects := g.objects.eraseAll named }
  | meterBuckets g =>
    meterBuckets { g with
      interfaces := g.interfaces.eraseAll named
      partitions := g.partitions.apartFrom named }

theorem tracking_apartFrom (group : Group) (h : other ∉ named) :
    (group.apartFrom named).tracking other = group.tracking other := by
  cases group with
  | stats family g =>
    unfold apartFrom tracking
    dsimp only
    rw [SortedMap.get?_eraseAll, if_neg h, bulkTracking_apartFrom _ _ h]
  | attributes family g =>
    unfold apartFrom tracking
    dsimp only
    rw [SortedMap.get?_eraseAll, if_neg h]
  | meterBuckets g =>
    unfold apartFrom tracking
    dsimp only
    rw [SortedMap.get?_eraseAll, if_neg h, bulkTracking_apartFrom _ _ h]

/-- A change leaves what a group has of all but some objects. -/
structure LeavesOthers (named : List ObjectId) (before after : Group) : Prop where
  same : (before.apartFrom named).SameObjects (after.apartFrom named)
  tracking_eq : ∀ other, other ∉ named → after.tracking other = before.tracking other

/-- That the groups are the same apart from some objects is all there is to show. -/
theorem LeavesOthers.of_same (h : (group.apartFrom named).SameObjects (group'.apartFrom named)) :
    LeavesOthers named group group' where
  same := h
  tracking_eq other hother := by
    rw [← tracking_apartFrom group' hother, ← h.tracking_eq, tracking_apartFrom group hother]

theorem LeavesOthers.refl (named : List ObjectId) (group : Group) :
    LeavesOthers named group group :=
  .of_same (.refl _)

theorem LeavesOthers.trans (h : LeavesOthers named group group')
    (h' : LeavesOthers named group' group'') : LeavesOthers named group group'' :=
  .of_same (h.same.trans h'.same)

/-- Groups with the same objects have the same ones apart from any. -/
theorem LeavesOthers.of_sameObjects (h : group.SameObjects group') (named : List ObjectId) :
    LeavesOthers named group group' := by
  refine .of_same ?_
  cases h with
  | stats hsingles hpartitions =>
    exact .stats (congrArg (·.eraseAll named) hsingles) (congrArg (·.apartFrom named) hpartitions)
  | attributes hobjects => exact .attributes (congrArg (·.eraseAll named) hobjects)
  | meterBuckets hinterfaces hpartitions =>
    exact .meterBuckets (congrArg (·.eraseAll named) hinterfaces)
      (congrArg (·.apartFrom named) hpartitions)

section Steps

variable {family : CounterFamily}

theorem leavesOthers_untrack (g : StatsGroup family) (h : vid ∈ named) :
    LeavesOthers named (stats family g) (stats family (g.untrack vid)) := by
  refine .of_same ?_
  unfold StatsGroup.untrack
  split
  · exact .stats (SortedMap.eraseAll_erase h).symm rfl
  · exact .stats rfl (SortedMap.apartFrom_remove h).symm

theorem leavesOthers_put (g : StatsGroup family) (bulk : Bool)
    (registration : Registration family) (h : vid ∈ named) :
    LeavesOthers named (stats family g) (stats family (g.put bulk vid registration)) := by
  refine .of_same ?_
  cases bulk with
  | false => exact .stats (SortedMap.eraseAll_insert h _).symm rfl
  | true =>
    refine .stats rfl (PartitionTable.apartFrom_addShares (fun row hrow => ?_) _ _).symm
    rw [List.mem_singleton.mp hrow]
    exact h

/-- What each step leaves of the others, a run over the objects leaves. -/
theorem leavesOthers_foldl {α : Type} {step : StatsGroup family → α → StatsGroup family}
    {list : List α}
    (hstep : ∀ a ∈ list, ∀ g, LeavesOthers named (stats family g) (stats family (step g a)))
    (g : StatsGroup family) :
    LeavesOthers named (stats family g) (stats family (list.foldl step g)) := by
  induction list generalizing g with
  | nil => exact .refl _ _
  | cons a rest ih =>
    obtain ⟨hfirst, hrest⟩ := List.forall_mem_cons.mp hstep
    exact (hfirst g).trans (ih hrest (step g a))

/-- Carrying a decision out leaves all objects that it does not place. -/
theorem leavesOthers_carryOut (g : StatsGroup family) {decision : Decision family}
    (h : ∀ p ∈ decision.placements, p.vid ∈ named) :
    LeavesOthers named (stats family g) (stats family (g.carryOut decision)) := by
  have hknown : LeavesOthers named (stats family g)
      (stats family { g with discovery := decision.discovery }) := by
    refine .of_sameObjects ?_ named
    exact .stats rfl rfl
  have huntracked : LeavesOthers named (stats family { g with discovery := decision.discovery })
      (stats family (({ g with discovery := decision.discovery } : StatsGroup family).untrackAll
        (decision.placements.map Placement.vid))) := by
    refine leavesOthers_foldl (fun vid hvid g => ?_) _
    obtain ⟨p, hp, rfl⟩ := List.mem_map.mp hvid
    exact leavesOthers_untrack g (h p hp)
  exact (hknown.trans huntracked).trans
    (leavesOthers_foldl (fun p hp g => leavesOthers_put g p.bulk p.registration (h p hp)) _)

theorem leavesOthers_meter_untrack (g : MeterGroup) (h : vid ∈ named) :
    LeavesOthers named (meterBuckets g) (meterBuckets (g.untrack vid)) := by
  refine .of_same ?_
  unfold MeterGroup.untrack
  split
  · exact .meterBuckets (SortedMap.eraseAll_erase h).symm (SortedMap.apartFrom_remove h).symm
  · exact .refl _

theorem leavesOthers_meter_put (g : MeterGroup) (rid : ObjectId) (ids : List BucketCounter)
    (keys : List RowKey) (h : vid ∈ named) :
    LeavesOthers named (meterBuckets g) (meterBuckets (g.put vid rid ids keys)) := by
  refine .of_same (.meterBuckets (SortedMap.eraseAll_insert h _).symm ?_)
  refine (SortedMap.apartFrom_addRows rfl fun row hrow => ?_).symm
  obtain ⟨key, -, rfl⟩ := List.mem_map.mp hrow
  exact h

theorem leavesOthers_retains {g after : MeterGroup} (h : MeterGroup.Retains g after)
    (named : List ObjectId) :
    LeavesOthers named (meterBuckets g) (meterBuckets after) :=
  .of_sameObjects (.meterBuckets h.interfaces_eq.symm h.partitions_eq.symm) named

end Steps

/-- In every branch a registration leaves the other objects. -/
theorem add_leavesOthers (group : Group) (h : vid ∈ named) (rid : ObjectId) (names : List String)
    (asked : Option ReadMode) :
    (group.add vid rid names asked).Always (LeavesOthers named group) := by
  cases group with
  | stats family g =>
    rw [add, Dialogue.always_map, StatsGroup.add_eq]
    refine (g.decideAdd_always vid rid names asked).bind fun decision hcovers => ?_
    refine leavesOthers_carryOut g fun p hp => ?_
    obtain ⟨-, rid', hobject, -⟩ := hcovers.placed hp
    rw [(Prod.mk.inj (List.mem_singleton.mp hobject)).1]
    exact h
  | attributes family g =>
    rw [add, Dialogue.always_map]
    refine (g.add_always vid rid names).mono ?_
    rintro after (⟨-, rfl⟩ | ⟨-, rfl⟩)
    · exact .refl _ _
    · exact .of_same (.attributes (SortedMap.eraseAll_insert h _).symm)
  | meterBuckets g =>
    rw [add, Dialogue.always_map]
    refine (g.add_always vid rid names).mono ?_
    rintro after ⟨switch, houtcome⟩
    cases houtcome with
    | kept hkept => exact leavesOthers_retains hkept named
    | dropped hdropped =>
      exact (leavesOthers_meter_untrack g h).trans (leavesOthers_retains hdropped named)
    | placed hdropped _ _ _ _ =>
      exact ((leavesOthers_meter_untrack g h).trans (leavesOthers_retains hdropped named)).trans
        (leavesOthers_meter_put _ rid _ _ h)

/-- In every branch a registration of many objects leaves the others. -/
theorem addMany_leavesOthers (group : Group) (vids rids : List ObjectId) (names : List String)
    (asked : Option ReadMode) :
    (group.addMany vids rids names asked).Always (LeavesOthers vids group) := by
  have hzip : ∀ object ∈ vids.zip rids, object.1 ∈ vids := fun object hobject =>
    (List.of_mem_zip hobject).1
  have heach : (group.addEach (vids.zip rids) names asked).Always (LeavesOthers vids group) := by
    refine Dialogue.Always.carry (fun before hbefore object hobject => ?_) (.refl vids group)
    exact (before.add_leavesOthers (hzip object hobject) object.2 names asked).mono
      fun after hafter => hbefore.trans hafter
  cases group with
  | stats family g =>
    rw [addMany, Dialogue.always_map, StatsGroup.addMany_eq]
    refine (g.decideAddMany_always vids rids names asked).bind fun decision hcovers => ?_
    refine leavesOthers_carryOut g fun p hp => ?_
    obtain ⟨-, rid, hobject, -⟩ := hcovers.placed hp
    exact GroupCommand.mem_vids_of_mem_objects (List.mem_map_of_mem hobject)
  | attributes family g => exact heach
  | meterBuckets g => exact heach

/-- Dropping an object leaves the others. -/
theorem without_leavesOthers (group : Group) (h : vid ∈ named) :
    LeavesOthers named group (group.without vid) := by
  cases group with
  | stats family g =>
    unfold without
    dsimp only
    split
    · exact leavesOthers_untrack g h
    · exact .refl _ _
  | attributes family g => exact .of_same (.attributes (SortedMap.eraseAll_erase h).symm)
  | meterBuckets g => exact leavesOthers_meter_untrack g h

section Dropping

/-- A sound group is as it is apart from objects that it does not track. -/
theorem Sound.apartFrom_same (h : group.Sound) (habsent : ∀ vid ∈ named, vid ∉ group.vids) :
    (group.apartFrom named).SameObjects group := by
  cases group with
  | stats family g =>
    refine .stats (SortedMap.eraseAll_eq_self fun vid hvid => ?_)
      (StatsGroup.Sound.partitions_apartFrom h habsent)
    rw [Bool.eq_false_iff]
    exact fun hsingle => habsent vid hvid (StatsGroup.mem_vids.mpr (.inl hsingle))
  | attributes family g =>
    refine .attributes (SortedMap.eraseAll_eq_self fun vid hvid => ?_)
    rw [Bool.eq_false_iff]
    exact fun hcontains => habsent vid hvid (SortedMap.contains_iff.mp hcontains)
  | meterBuckets g =>
    refine .meterBuckets (SortedMap.eraseAll_eq_self fun vid hvid => ?_)
      (MeterGroup.Sound.partitions_apartFrom h habsent)
    rw [Bool.eq_false_iff]
    exact fun hcontains => habsent vid hvid (SortedMap.contains_iff.mp hcontains)

/-- A sound group that drops an object has what it had apart from the object. -/
theorem Sound.without_same (h : group.Sound) (vid : ObjectId) :
    (group.without vid).SameObjects (group.apartFrom [vid]) := by
  have hwithout : (group.without vid).Sound := by
    cases group with
    | stats family g =>
      change StatsGroup.Sound (if g.tracks vid then g.untrack vid else g)
      split
      · exact StatsGroup.Sound.untrack h vid
      · exact h
    | attributes family g => exact h.attributes_without vid
    | meterBuckets g => exact MeterGroup.Sound.untrack h vid
  have hexclusive : group.Exclusive := by
    cases group with
    | stats family g => exact StatsGroup.Sound.exclusive h
    | _ => exact trivial
  have habsent : ∀ other ∈ [vid], other ∉ (group.without vid).vids := by
    intro other hother hmem
    exact ((mem_vids_without hexclusive).mp hmem).1 (List.mem_singleton.mp hother)
  exact (hwithout.apartFrom_same habsent).symm.trans
    (group.without_leavesOthers List.mem_cons_self).same.symm

end Dropping

/-- A call that registers or drops objects leaves the others as they are, whatever the driver
answers. In a state that commands come to which register no object twice, an object that is not
tracked may be registered and dropped, and everything is again as it was. -/
theorem calls_leave_others (group : Group) (switch : Switch) (past : List Event) :
    (∀ vid rid names asked, LeavesOthers [vid] group
      ((group.add vid rid names asked).run switch past).value) ∧
    (∀ vids rids names asked, LeavesOthers vids group
      ((group.addMany vids rids names asked).run switch past).value) ∧
    (∀ vid, LeavesOthers [vid] group ((group.remove vid).run switch past).value) ∧
    (group.Reachable → ∀ vid, vid ∉ group.vids → ∀ rid names asked switch' past',
      (((((group.add vid rid names asked).run switch past).value.remove vid).run
        switch' past').value).SameObjects group) := by
  refine ⟨fun vid rid names asked => ?_, fun vids rids names asked => ?_, fun vid => ?_,
    fun hreachable vid hvid rid names asked switch' past' => ?_⟩
  · exact (group.add_leavesOthers List.mem_cons_self rid names asked).value switch past
  · exact (group.addMany_leavesOthers vids rids names asked).value switch past
  · rw [value_remove]
    exact group.without_leavesOthers List.mem_cons_self
  · have hsound := hreachable.sound
    have hadded := (hsound.add vid rid names asked).value switch past
    have hleft : LeavesOthers [vid] group
        ((group.add vid rid names asked).run switch past).value :=
      (group.add_leavesOthers List.mem_cons_self rid names asked).value switch past
    have habsent : ∀ other ∈ [vid], other ∉ group.vids := by
      intro other hother
      rwa [List.mem_singleton.mp hother]
    rw [value_remove]
    exact ((hadded.without_same vid).trans hleft.same.symm).trans (hsound.apartFrom_same habsent)

/-- Two ports share a partition. One is registered again, and the other stays as it is. A third
port comes to the partition and goes. -/
theorem calls_leave_others_three_ports :
    let spec := GroupSpec.stats "Port Counter" .portStat "PORT_COUNTER_ID_LIST" none
    let names := ["SAI_PORT_STAT_IF_IN_OCTETS"]
    let switch : Switch := .unchanging (StatsGroup.rowFails (.object 0x103))
    let start := initial (GroupSettings.initial spec "PORTS")
    let two := ((start.perform (.addMany [1, 2] [0x101, 0x102] names none)).run switch []).value
    let again := ((two.add 1 0x103 names none).run switch []).value
    let three := ((two.add 3 0x104 names none).run switch []).value
    two.vids = [1, 2] ∧ again.tracking 1 ≠ two.tracking 1 ∧
      again.tracking 2 = two.tracking 2 ∧ three.vids = [1, 2, 3] ∧
      ((three.remove 3).run switch []).value.SameObjects two := by
  intro spec names switch start two again three
  have hreached : two.Reachable := .perform _ switch [] (.initial _) (by decide)
  obtain ⟨hadd, -, -, hrestored⟩ := calls_leave_others two switch []
  refine ⟨by decide +kernel, by decide +kernel,
    (hadd 1 0x103 names none).tracking_eq 2 (by decide), by decide +kernel, ?_⟩
  exact hrestored hreached 3 (by decide +kernel) 0x104 names none switch []

end Group

end CounterPolling
