import CounterPolling.Proofs.Group.Growth
import CounterPolling.Scheduler.Control

/-!
# How an instance houses its objects

Each group of an instance stands under its own name, and tracks an object only if a call
registered it as one of the group's kind. Whether an object really is of that kind is another
matter: only the registration of a single object asks its id. Main statement:
`Instance.ReachedBy.housed`.
-/

namespace CounterPolling

namespace GroupSpec

/-- Groups are told apart by their names. -/
theorem eq_of_name_eq {spec spec' : GroupSpec} (h : spec ∈ all) (h' : spec' ∈ all)
    (hname : spec.name = spec'.name) : spec = spec' :=
  List.inj_on_of_nodup_map names_nodup h h' hname

theorem mem_ofKind {spec : GroupSpec} {kind : ObjectKind} :
    spec ∈ ofKind kind ↔ spec ∈ all ∧ spec.kind = kind := by
  rw [ofKind, List.mem_filter, beq_iff_eq]

end GroupSpec

namespace Control

/-- No object is registered twice by the call. -/
def Distinct : Control → Prop
  | addMany _ vids _ _ => vids.Nodup
  | _ => True

instance (control : Control) : Decidable control.Distinct := by
  cases control <;> unfold Distinct <;> infer_instance

/-- The call registers an object as one of a kind: a single one by the kind that its id tells,
many by the kind that the call says. -/
def Registers (kind : ObjectKind) (vid : ObjectId) : Control → Prop
  | add vid' _ _ => vid' = vid ∧ vid.kind? = some kind
  | addMany kind' vids _ _ => kind' = kind ∧ vid ∈ vids
  | _ => False

instance (kind : ObjectKind) (vid : ObjectId) (control : Control) :
    Decidable (control.Registers kind vid) := by
  cases control <;> unfold Registers <;> infer_instance

end Control

/-- A group stands under its own name, has nothing tracked in two ways, and tracks only objects
that are listed for its kind. -/
structure Group.HousedUnder (listed : ObjectKind → ObjectId → Prop) (name : String)
    (g : Group) : Prop where
  known : g.settings.spec ∈ GroupSpec.all
  name_eq : g.settings.spec.name = name
  exclusive : g.Exclusive
  vids_listed : ∀ vid ∈ g.vids, listed g.settings.spec.kind vid

/-- A group stays in its place when it admits objects that are listed. -/
theorem Group.HousedUnder.admits {listed : ObjectKind → ObjectId → Prop} {name : String}
    {g after : Group} {objects : List ObjectId} (h : g.HousedUnder listed name)
    (hadmits : g.Admits objects after)
    (hobjects : ∀ vid ∈ objects, listed g.settings.spec.kind vid) :
    after.HousedUnder listed name where
  known := hadmits.spec_eq ▸ h.known
  name_eq := hadmits.spec_eq ▸ h.name_eq
  exclusive := hadmits.exclusive
  vids_listed vid hvid := by
    rw [hadmits.spec_eq]
    exact (hadmits.mem_vids vid hvid).elim (h.vids_listed vid) (hobjects vid)

/-- A group stays in its place when it admits nothing. -/
theorem Group.HousedUnder.of_admits_nil {listed : ObjectKind → ObjectId → Prop} {name : String}
    {g after : Group} (h : g.HousedUnder listed name) (hadmits : g.Admits [] after) :
    after.HousedUnder listed name :=
  h.admits hadmits fun _ hvid => absurd hvid List.not_mem_nil

namespace Setting

theorem eq_of_mapError {ε ε' α : Type} {make : α → Setting} {wrap : ε → ε'} {setting : Setting}
    {outcome : Except ε α} (h : (outcome.map make).mapError wrap = .ok setting) :
    ∃ value, make value = setting := by
  cases outcome with
  | error refusal => cases h
  | ok value => exact ⟨value, Except.ok.inj h⟩

/-- The fields that register plugins are those of known groups. -/
theorem known_of_ofField {field value : String} {spec : GroupSpec} {names : List String}
    (h : ofField field value = .ok (plugins spec names)) : spec ∈ GroupSpec.all := by
  unfold ofField at h
  split_ifs at h
  -- the other fields have settings of their own
  iterate 5
    obtain ⟨_, heq⟩ := eq_of_mapError h
    cases heq
  split at h
  · next found hfound =>
    cases h
    exact List.mem_of_find?_eq_some hfound
  · cases h

end Setting

namespace Instance

variable {listed : ObjectKind → ObjectId → Prop} {i : Instance}

/-- Every group is in its place. -/
def Housed (listed : ObjectKind → ObjectId → Prop) (i : Instance) : Prop :=
  ∀ name g, i.groups.get? name = some g → g.HousedUnder listed name

theorem housed_initial (name : String) (profile : Profile) :
    (initial name profile).Housed listed := by
  intro name g hg
  exact absurd hg (by simp [initial])

theorem Housed.mono {listed' : ObjectKind → ObjectId → Prop} (h : i.Housed listed)
    (hlisted : ∀ kind vid, listed kind vid → listed' kind vid) : i.Housed listed' := by
  intro name g hg
  have hold := h name g hg
  exact ⟨hold.known, hold.name_eq, hold.exclusive,
    fun vid hvid => hlisted _ vid (hold.vids_listed vid hvid)⟩

section Groups

/-- A change that admits nothing may be made to every group. -/
theorem Housed.mapGroups (h : i.Housed listed) {change : Group → Group}
    (hchange : ∀ g : Group, g.Exclusive → g.Admits [] (change g)) :
    (i.mapGroups change).Housed listed := by
  intro name g hg
  rw [Instance.mapGroups, SortedMap.get?_map, Option.map_eq_some_iff] at hg
  obtain ⟨before, hbefore, rfl⟩ := hg
  have hold := h name before hbefore
  exact hold.of_admits_nil (hchange before hold.exclusive)

/-- A command that names no objects and asks nothing may be given to every group. -/
theorem Housed.command (h : i.Housed listed) {change : Group → Group} (command : GroupCommand)
    (hdistinct : command.Distinct) (hvids : command.vids = [])
    (hchange : ∀ g : Group, g.perform command = pure (change g)) :
    (i.mapGroups change).Housed listed := by
  refine h.mapGroups fun g hg => ?_
  have hadmits := Group.perform_admits hg command hdistinct
  rwa [hchange g, Dialogue.always_pure, hvids] at hadmits

theorem Housed.putGroup (h : i.Housed listed) {spec : GroupSpec} {g : Group}
    (hg : g.HousedUnder listed spec.name) : (i.putGroup spec g).Housed listed := by
  intro name found hfound
  rw [Instance.putGroup] at hfound
  by_cases hname : spec.name = name
  · subst hname
    rw [SortedMap.get?_insert_self] at hfound
    exact Option.some.inj hfound ▸ hg
  · rw [SortedMap.get?_insert_of_ne _ _ hname] at hfound
    exact h name found hfound

/-- A group as it comes into being is in its place. -/
theorem newGroup_housedUnder (i : Instance) {spec : GroupSpec} (hspec : spec ∈ GroupSpec.all) :
    (i.newGroup spec).HousedUnder listed spec.name := by
  have hsettings := Group.settings_initial
    { GroupSettings.initial spec i.name with
      mode := i.mode
      chunkSize := i.chunkSize.getD 0
      prefixes := i.prefixes }
  have hspec' : (i.newGroup spec).settings.spec = spec := congrArg GroupSettings.spec hsettings
  refine ⟨hspec'.symm ▸ hspec, congrArg GroupSpec.name hspec', ?_, ?_⟩
  · unfold newGroup Group.initial
    split
    · exact StatsGroup.exclusive_initial _
    · trivial
    · trivial
  · intro vid hvid
    unfold newGroup Group.initial at hvid
    split at hvid
    · exact absurd hvid List.not_mem_nil
    · exact absurd hvid List.not_mem_nil
    · exact absurd hvid List.not_mem_nil

/-- The group of a specification, found or new, is in its place and of that specification. -/
theorem Housed.groupFor (h : i.Housed listed) {spec : GroupSpec} (hspec : spec ∈ GroupSpec.all) :
    (i.groupFor spec).HousedUnder listed spec.name ∧ (i.groupFor spec).settings.spec = spec := by
  have hhoused : (i.groupFor spec).HousedUnder listed spec.name := by
    unfold Instance.groupFor
    cases hfound : i.groups.get? spec.name with
    | none => exact newGroup_housedUnder i hspec
    | some g => exact h spec.name g hfound
  exact ⟨hhoused, GroupSpec.eq_of_name_eq hhoused.known hspec hhoused.name_eq⟩

end Groups

section Calls

/-- Bringing a setting into force leaves every group in its place. -/
theorem Housed.applyField (h : i.Housed listed) (field : String × String) :
    (i.applyField field).1.Housed listed := by
  unfold Instance.applyField
  cases hsetting : Setting.ofField field.1 field.2 with
  | error refusal => exact h
  | ok setting =>
    cases setting with
    | interval milliseconds => exact h
    | enabled value => exact h
    | mode value =>
      exact h.command (.changeMode value) trivial rfl fun g => rfl
    | chunkSize value =>
      exact h.command (.resize value) trivial rfl fun g => rfl
    | prefixes value =>
      exact h.command (.regroup value) trivial rfl fun g => rfl
    | plugins spec names =>
      have hspec := Setting.known_of_ofField hsetting
      have hgroup := (h.groupFor hspec).1
      have hadmits := Group.perform_admits hgroup.exclusive (.addPlugins names) trivial
      exact h.putGroup (hgroup.of_admits_nil hadmits)

theorem Housed.configure (h : i.Housed listed) (fields : List (String × String)) :
    (i.configure fields).Always (Housed listed) := by
  refine Dialogue.Always.carry (fun before hbefore field _ => ?_) h
  exact Dialogue.always_bind_of_forall fun _ => hbefore.applyField field

/-- A field of counters is routed to a known group for objects of the kind. -/
theorem known_of_route {kind : ObjectKind} {asked : Option ReadMode} {field : String × String}
    {spec : GroupSpec} {names : List String} (h : route kind asked field = .ok (spec, names)) :
    spec ∈ GroupSpec.all ∧ spec.kind = kind := by
  unfold route at h
  split at h
  · cases h
  · next found hfound =>
    rw [GroupSpec.ofIdField?] at hfound
    have hmem := List.mem_of_find?_eq_some hfound
    have hmatch := List.find?_some hfound
    rw [Bool.and_eq_true_iff, beq_iff_eq] at hmatch
    split at h
    · cases h
    · split at h
      · cases h
      · cases h
        exact ⟨hmem, hmatch.1⟩

theorem registerWith_admits {g : Group} (h : g.Exclusive) {vids : List ObjectId}
    (hvids : vids.Nodup) (rids : List ObjectId) (names : List String) (asked : Option ReadMode) :
    (registerWith g vids rids names asked).Always (g.Admits vids) := by
  unfold registerWith
  split
  · exact Group.add_admits h _ _ names asked
  · exact Group.perform_admits h (.addMany vids rids names asked) hvids

/-- Registering objects that are listed for a kind leaves every group in its place. -/
theorem Housed.register (h : i.Housed listed) {kind : ObjectKind} {vids : List ObjectId}
    (hvids : vids.Nodup) (hlisted : ∀ vid ∈ vids, listed kind vid) (rids : List ObjectId)
    (fields : List (String × String)) :
    (i.register kind vids rids fields).Always (Housed listed) := by
  unfold Instance.register
  refine Dialogue.always_bind_of_forall fun _ => ?_
  refine Dialogue.Always.carry (fun before hbefore field _ => ?_) h
  unfold registerField
  cases hroute : route kind (askedMode fields) field with
  | error event =>
    dsimp only
    exact Dialogue.always_bind_of_forall fun _ => hbefore
  | ok routed =>
    obtain ⟨spec, names⟩ := routed
    obtain ⟨hspec, hkind⟩ := known_of_route hroute
    obtain ⟨hgroup, hgroupSpec⟩ := hbefore.groupFor hspec
    dsimp only
    refine (registerWith_admits hgroup.exclusive hvids rids names _).bind fun after hafter => ?_
    refine hbefore.putGroup (hgroup.admits hafter fun vid hvid => ?_)
    rw [hgroupSpec, hkind]
    exact hlisted vid hvid

theorem Housed.remove (h : i.Housed listed) (vid : ObjectId) :
    (i.remove vid).Always (Housed listed) := by
  unfold Instance.remove
  split
  · exact Dialogue.always_bind_of_forall fun _ => h
  · dsimp only
    split
    · refine Dialogue.Always.carry (fun before hbefore spec _ => ?_) h
      unfold removeFrom
      split
      · next g hg =>
        have hgroup := hbefore spec.name g hg
        exact (Group.remove_admits hgroup.exclusive vid).bind fun after hafter =>
          hbefore.putGroup (hgroup.of_admits_nil hafter)
      · exact hbefore
    · exact Dialogue.always_bind_of_forall fun _ => h

/-- A call that registers no object twice, and only objects that are listed for the kind that
they are registered as, leaves every group in its place. -/
theorem Housed.perform (h : i.Housed listed) {control : Control} (hdistinct : control.Distinct)
    (hlisted : ∀ kind vid, control.Registers kind vid → listed kind vid) :
    (control.perform i).Always (Housed listed) := by
  cases control with
  | configure fields => exact h.configure fields
  | add vid rid fields =>
    rw [Control.perform, Instance.add]
    split
    · next kind hkind =>
      refine h.register (List.nodup_singleton vid) (fun other hother => ?_) [rid] fields
      rw [List.mem_singleton.mp hother]
      exact hlisted kind vid ⟨rfl, hkind⟩
    · exact Dialogue.always_bind_of_forall fun _ => h
  | addMany kind vids rids fields =>
    rw [Control.perform, Instance.addMany]
    split
    · exact Dialogue.always_bind_of_forall fun _ => h
    · split
      · exact h
      · exact h.register hdistinct (fun vid hvid => hlisted kind vid ⟨rfl, hvid⟩) rids fields
  | remove vid => exact h.remove vid
  | retire => exact h.command .dropPlugins trivial rfl fun g => rfl
  | clear => exact h.command .removeAll trivial rfl fun g => rfl
  | pass =>
    refine Dialogue.always_bind_of_forall fun _ => ?_
    refine Dialogue.always_bind_of_forall fun _ => ?_
    exact Dialogue.always_bind_of_forall fun _ => h

end Calls

/-- A state that calls bring an instance to, whatever the driver answers to each. -/
inductive ReachedBy : List Control → Instance → Prop
  | initial (name : String) (profile : Profile) : ReachedBy [] (Instance.initial name profile)
  | perform {controls : List Control} {i : Instance} (control : Control) (switch : Switch)
    (past : List Event) : ReachedBy controls i →
    ReachedBy (controls ++ [control]) ((control.perform i).run switch past).value

/-- Calls that register no object twice leave every group in its place, tracking only objects
that one of the calls registered as of the group's kind. -/
theorem ReachedBy.housed {controls : List Control} (h : i.ReachedBy controls)
    (hdistinct : ∀ control ∈ controls, control.Distinct) :
    i.Housed fun kind vid => ∃ control ∈ controls, control.Registers kind vid := by
  induction h with
  | initial name profile => exact housed_initial name profile
  | @perform controls i control switch past _ ih =>
    have hlater : control ∈ controls ++ [control] :=
      List.mem_append_right controls List.mem_cons_self
    have hold := ih fun earlier hearlier => hdistinct earlier (List.mem_append_left _ hearlier)
    have hlisted : i.Housed fun kind vid =>
        ∃ call ∈ controls ++ [control], call.Registers kind vid :=
      hold.mono fun kind vid ⟨call, hcall, hregisters⟩ =>
        ⟨call, List.mem_append_left _ hcall, hregisters⟩
    have hstep := hlisted.perform (hdistinct control hlater) fun kind vid hregisters =>
      ⟨control, hlater, hregisters⟩
    exact hstep.value switch past

end Instance

end CounterPolling
