import CounterPolling.Proofs.Instance.Emptiness

/-!
# Which calls concern an object

An instance lists an object if some group of it does. Most calls have no say in that: a call that
neither removes the object nor names it for registration leaves it listed or not as it was, whatever
the driver answers. Main statement: `Instance.Every.lists_perform`.
-/

namespace CounterPolling

/-- A call that takes an object away from nowhere, but for a registration that may replace one. -/
def Control.Spares (vid : ObjectId) : Control → Prop
  | .remove other => other ≠ vid
  | .clear => False
  | _ => True

instance (vid : ObjectId) : (control : Control) → Decidable (control.Spares vid)
  | .remove other => inferInstanceAs (Decidable (other ≠ vid))
  | .clear => isFalse id
  | .configure _ | .add .. | .addMany .. | .retire | .pass => isTrue trivial

/-- A registration leaves it to its own objects whether they are tracked. -/
theorem Group.mem_vids_registerWith {group : Group} {vids : List ObjectId} {vid : ObjectId}
    (h : vid ∉ vids) (rids : List ObjectId) (names : List String) (asked : Option ReadMode) :
    (Instance.registerWith group vids rids names asked).Always fun after =>
      vid ∈ after.vids ↔ vid ∈ group.vids := by
  refine registerWith_always (P := fun after => vid ∈ after.vids ↔ vid ∈ group.vids)
    (fun before hbefore other hother rid => ?_)
    (fun family g decision own objects hcovers hobjects hg => ?_) Iff.rfl rids
  · have hne : vid ≠ other := fun heq => h (heq ▸ hother)
    exact (mem_vids_add_of_ne hne rid names asked).mono fun after hafter => hafter.trans hbefore
  · exact (StatsGroup.mem_vids_carryOut hcovers fun hmem => h (hobjects vid hmem)).trans hg

namespace Instance

variable {i : Instance} {vid : ObjectId}

/-- Some group of the instance tracks an object. -/
def Lists (i : Instance) (vid : ObjectId) : Prop :=
  ∃ name g, i.groups.get? name = some g ∧ vid ∈ g.vids

theorem lists_iff_mem_values : i.Lists vid ↔ ∃ g ∈ i.groups.values, vid ∈ g.vids := by
  simp only [Lists, SortedMap.get?_eq_some_iff, SortedMap.values, List.mem_map]
  constructor
  · rintro ⟨name, g, hentry, hvid⟩
    exact ⟨g, ⟨(name, g), hentry, rfl⟩, hvid⟩
  · rintro ⟨g, ⟨entry, hentry, rfl⟩, hvid⟩
    exact ⟨entry.1, entry.2, hentry, hvid⟩

instance (i : Instance) (vid : ObjectId) : Decidable (i.Lists vid) :=
  decidable_of_iff _ lists_iff_mem_values.symm

/-- An instance that lists an object is not empty. -/
theorem Lists.isEmpty_eq_false (h : i.Lists vid) : i.isEmpty = false := by
  obtain ⟨name, g, hg, hvid⟩ := h
  exact isEmpty_eq_false_iff.mpr ⟨name, g, hg, .inl (Group.tracksAny_iff.mpr ⟨vid, hvid⟩)⟩

theorem Lists.mayEnd_eq_false (h : i.Lists vid) : i.mayEnd = false := by
  rw [mayEnd, h.isEmpty_eq_false, Bool.and_false]

theorem not_lists_initial (name : String) (profile : Profile) :
    ¬ (initial name profile).Lists vid := by
  rintro ⟨_, g, hg, -⟩
  cases hg

theorem lists_congr {i' : Instance} (h : i'.groups = i.groups) : i'.Lists vid ↔ i.Lists vid := by
  rw [Lists, h]
  rfl

theorem lists_mapGroups {change : Group → Group}
    (h : ∀ name g, i.groups.get? name = some g → (vid ∈ (change g).vids ↔ vid ∈ g.vids)) :
    (i.mapGroups change).Lists vid ↔ i.Lists vid := by
  constructor
  · rintro ⟨name, after, hafter, hvid⟩
    rw [mapGroups, SortedMap.get?_map, Option.map_eq_some_iff] at hafter
    obtain ⟨g, hg, rfl⟩ := hafter
    exact ⟨name, g, hg, (h name g hg).mp hvid⟩
  · rintro ⟨name, g, hg, hvid⟩
    refine ⟨name, change g, ?_, (h name g hg).mpr hvid⟩
    rw [mapGroups, SortedMap.get?_map, hg, Option.map_some]

/-- A group may be put in the place of the one that is there, or that would come into being, if it
tracks the object exactly if that one does. -/
theorem lists_putGroup {spec : GroupSpec} {g : Group}
    (h : vid ∈ g.vids ↔ vid ∈ (i.groupFor spec).vids) :
    (i.putGroup spec g).Lists vid ↔ i.Lists vid := by
  have hplace : vid ∈ (i.groupFor spec).vids ↔
      ∃ before, i.groups.get? spec.name = some before ∧ vid ∈ before.vids := by
    unfold groupFor
    cases i.groups.get? spec.name with
    | none =>
      rw [Option.getD_none, newGroup, Group.vids_initial]
      exact iff_of_false List.not_mem_nil (by rintro ⟨before, hbefore, -⟩; cases hbefore)
    | some before =>
      rw [Option.getD_some]
      refine ⟨fun hvid => ⟨before, rfl, hvid⟩, ?_⟩
      rintro ⟨_, ⟨⟩, hvid⟩
      exact hvid
  constructor
  · rintro ⟨name, after, hafter, hvid⟩
    rw [putGroup] at hafter
    by_cases hname : spec.name = name
    · subst hname
      rw [SortedMap.get?_insert_self, Option.some_inj] at hafter
      subst hafter
      obtain ⟨before, hbefore, hvid⟩ := hplace.mp (h.mp hvid)
      exact ⟨spec.name, before, hbefore, hvid⟩
    · rw [SortedMap.get?_insert_of_ne _ _ hname] at hafter
      exact ⟨name, after, hafter, hvid⟩
  · rintro ⟨name, before, hbefore, hvid⟩
    by_cases hname : spec.name = name
    · subst hname
      refine ⟨spec.name, g, SortedMap.get?_insert_self _ _ _, h.mpr (hplace.mpr ?_)⟩
      exact ⟨before, hbefore, hvid⟩
    · exact ⟨name, before, (SortedMap.get?_insert_of_ne _ _ hname).trans hbefore, hvid⟩

/-- No field of a configuration adds an object or drops one. -/
theorem Every.lists_applyField (h : i.Every Group.Filed) (field : String × String) :
    (i.applyField field).1.Lists vid ↔ i.Lists vid := by
  unfold Instance.applyField
  cases Setting.ofField field.1 field.2 with
  | error refusal => rfl
  | ok setting =>
    have htold : (i.mapGroups (Group.tell setting)).Lists vid ↔ i.Lists vid :=
      lists_mapGroups fun name g hg => by rw [Group.vids_tell (h name g hg)]
    cases setting with
    | interval milliseconds => exact lists_congr rfl
    | enabled value => exact lists_congr rfl
    | mode value => exact htold
    | chunkSize value => exact htold
    | prefixes value => exact htold
    | plugins spec names => exact lists_putGroup (by rw [Group.vids_withPlugins])

/-- A call that neither takes an object away nor names it for registration leaves the object listed
or not as it was, whatever the driver answers. -/
theorem Every.lists_perform (h : i.Every Group.Filed) {control : Control}
    (hspares : control.Spares vid) (hfresh : vid ∉ control.vids) :
    (control.perform i).Always fun after => after.Lists vid ↔ i.Lists vid := by
  have hregistration : control.registers = true →
      (control.perform i).Always fun after => after.Lists vid ↔ i.Lists vid := by
    intro hcontrol
    refine registration_always (I := fun after => after.Lists vid ↔ i.Lists vid) hcontrol
      (fun before spec rids names asked hbefore _ => ?_) Iff.rfl
    refine (Group.mem_vids_registerWith hfresh rids names asked).mono fun after hafter => ?_
    exact (lists_putGroup hafter).trans hbefore
  cases control with
  | configure fields =>
    have hcarried : (i.configure fields).Always fun after => after.Every Group.Filed ∧
        (after.Lists vid ↔ i.Lists vid) := by
      rw [configure_eq]
      refine Dialogue.Always.carry (fun before hbefore field _ => ?_) ⟨h, Iff.rfl⟩
      refine Dialogue.always_bind_of_forall fun _ => ?_
      exact ⟨hbefore.1.applyField Group.filed_invariant field,
        (hbefore.1.lists_applyField field).trans hbefore.2⟩
    exact hcarried.mono fun _ hafter => hafter.2
  | add other rid fields => exact hregistration rfl
  | addMany kind vids rids fields => exact hregistration rfl
  | remove other =>
    refine remove_always (I := fun after => after.Lists vid ↔ i.Lists vid)
      (fun before spec g hbefore hg => ?_) Iff.rfl
    refine (g.remove_always other).mono ?_
    rintro after rfl
    have hfound : before.groupFor spec = g := by
      rw [Instance.groupFor, hg, Option.getD_some]
    refine (lists_putGroup ?_).trans hbefore
    rw [hfound]
    exact Group.mem_vids_without_of_ne (Ne.symm hspares)
  | retire =>
    refine lists_mapGroups fun _ g _ => ?_
    rw [Group.withoutPlugins, Group.vids_mapSettings]
  | clear => exact hspares.elim
  | pass =>
    refine Dialogue.always_bind_of_forall fun _ => ?_
    refine Dialogue.always_bind_of_forall fun _ => ?_
    exact Dialogue.always_bind_of_forall fun _ => lists_congr rfl

end Instance

end CounterPolling
