import CounterPolling.Proofs.Dialogue.Transcript
import CounterPolling.Proofs.Group.Interfaces
import CounterPolling.Proofs.Instance.Removal

/-!
# What calls do to the groups of an instance

A call reaches groups in few ways. A setting is told to all of them, or brings plugins to one; a
registration goes to the groups that its fields choose, and a removal to those for the kind that
the id tells. Main statements: `Instance.exists_of_get?_apply`, `Instance.registration_always`, and
`Instance.ReachedBy.every`, by which a property of groups that commands keep holds of every group
at any time.
-/

namespace CounterPolling

namespace Group

variable {group : Group}

/-- Tells a group a setting of its instance; a refused change of prefixes does nothing. -/
def tell (setting : Setting) (group : Group) : Group :=
  match setting with
  | .mode value => group.withMode value
  | .chunkSize value => group.withChunkSize value
  | .prefixes value => ((group.withPrefixes value).toOption).getD group
  | .interval _ | .enabled _ | .plugins .. => group

section Settings

/-- Registering an object does not change what a group is told. -/
theorem add_settings (group : Group) (vid rid : ObjectId) (names : List String)
    (asked : Option ReadMode) :
    (group.add vid rid names asked).Always fun after => after.settings = group.settings := by
  cases group with
  | stats family g =>
    refine (Dialogue.always_map _ _ _).mpr ?_
    refine (g.perform_always (.add vid rid names asked)).mono ?_
    rintro after ⟨decision, -, rfl⟩
    exact g.settings_carryOut decision
  | attributes family g =>
    rw [add, Dialogue.always_map]
    refine (g.add_always vid rid names).mono ?_
    rintro after (⟨-, rfl⟩ | ⟨-, rfl⟩) <;> rfl
  | meterBuckets g =>
    rw [add, Dialogue.always_map]
    refine (g.add_always vid rid names).mono ?_
    rintro after ⟨switch, houtcome⟩
    exact houtcome.settings_eq

theorem remove_settings (group : Group) (vid : ObjectId) :
    (group.remove vid).Always fun after => after.settings = group.settings :=
  (group.remove_always vid).mono fun after hafter => by rw [hafter, settings_without]

/-- What holds of a group holds after a registration of objects if the registration of one of them
keeps it and, in a group of counters, the placing of many at once does. -/
theorem registerWith_always {P : Group → Prop} {vids : List ObjectId} {names : List String}
    {asked : Option ReadMode}
    (hadd : ∀ before, P before → ∀ vid ∈ vids, ∀ rid, (before.add vid rid names asked).Always P)
    (hplaced : ∀ (family : CounterFamily) (g : StatsGroup family) (decision : Decision family)
      (own : Option ReadMode) (objects : List (ObjectId × ObjectId)),
      decision.Covers own objects → (∀ vid ∈ objects.map Prod.fst, vid ∈ vids) →
      P (.stats family g) → P (.stats family (g.carryOut decision)))
    (h : P group) (rids : List ObjectId) :
    (Instance.registerWith group vids rids names asked).Always P := by
  have heach : (group.addEach (vids.zip rids) names asked).Always P :=
    Dialogue.Always.carry (fun before hbefore object hobject =>
      hadd before hbefore object.1 (List.of_mem_zip hobject).1 object.2) h
  unfold Instance.registerWith
  split
  · exact hadd group h _ List.mem_cons_self _
  · cases group with
    | stats family g =>
      refine (Dialogue.always_map _ _ _).mpr ?_
      refine (g.perform_always (.addMany vids rids names asked)).mono ?_
      rintro after ⟨decision, hcovers, rfl⟩
      exact hplaced family g decision _ _ hcovers
        (fun vid hvid => GroupCommand.mem_vids_of_mem_objects hvid) h
    | attributes family g => exact heach
    | meterBuckets g => exact heach

/-- No registration changes what a group is told. -/
theorem registerWith_settings (group : Group) (vids rids : List ObjectId) (names : List String)
    (asked : Option ReadMode) :
    (Instance.registerWith group vids rids names asked).Always fun after =>
      after.settings = group.settings := by
  refine registerWith_always (P := fun after => after.settings = group.settings)
    (fun before hbefore vid _ rid => ?_) (fun family g decision own objects _ _ hg => ?_) rfl rids
  · exact (before.add_settings vid rid names asked).mono fun after hafter => hafter.trans hbefore
  · exact (g.settings_carryOut decision).trans hg

end Settings

/-- A property that new groups have, and that a command keeps which names objects that it may name
together, whatever the driver answers. -/
structure Invariant (allowed : List ObjectId → Prop) (P : Group → Prop) : Prop where
  allowed_nil : allowed []
  initial : ∀ settings, P (Group.initial settings)
  perform : ∀ group command, allowed command.vids → P group → (group.perform command).Always P

section Invariant

variable {allowed : List ObjectId → Prop} {P : Group → Prop}

theorem Invariant.tell (hP : Invariant allowed P) (h : P group) (setting : Setting) :
    P (group.tell setting) := by
  cases setting with
  | mode value => exact hP.perform group (.changeMode value) hP.allowed_nil h
  | chunkSize value => exact hP.perform group (.resize value) hP.allowed_nil h
  | prefixes value => exact hP.perform group (.regroup value) hP.allowed_nil h
  | _ => exact h

theorem Invariant.registerWith (hP : Invariant allowed P) (h : P group) {vids : List ObjectId}
    (hvids : allowed vids) (rids : List ObjectId) (names : List String) (asked : Option ReadMode) :
    (Instance.registerWith group vids rids names asked).Always P := by
  unfold Instance.registerWith
  split
  · exact hP.perform group (.add _ _ names asked) hvids h
  · exact hP.perform group (.addMany vids rids names asked) hvids h

end Invariant

end Group

namespace Control

/-- Whether a call registers objects. -/
def registers : Control → Bool
  | add .. | addMany .. => true
  | _ => false

/-- The objects that a call names for registration. -/
def vids : Control → List ObjectId
  | add vid _ _ => [vid]
  | addMany _ vids _ _ => vids
  | _ => []

theorem Distinct.vids_nodup {control : Control} (h : control.Distinct) : control.vids.Nodup := by
  cases control with
  | add vid rid fields => exact List.nodup_singleton vid
  | addMany kind vids rids fields => exact h
  | _ => exact List.nodup_nil

end Control

namespace Instance

variable {i : Instance} {allowed : List ObjectId → Prop} {P : Group → Prop}

section Settings

/-- Takes in one field, and reports what it gives rise to. -/
def heed (i : Instance) (field : String × String) : Dialogue Instance := do
  Dialogue.each i.report (i.applyField field).2
  return (i.applyField field).1

theorem configure_eq (i : Instance) (fields : List (String × String)) :
    i.configure fields = Dialogue.carry heed i fields := rfl

/-- A field is taken in without a question to the driver. -/
theorem run_heed (i : Instance) (field : String × String) (switch : Switch)
    (past : List Event) :
    (i.heed field).run switch past = ⟨(i.applyField field).1,
      (i.applyField field).2.map fun event => .handedOut (.notice (.ofInstance i.name event))⟩ := by
  have hevents : ((Dialogue.each i.report (i.applyField field).2).run switch past).events =
      ((i.applyField field).2.map fun event => .notice (.ofInstance i.name event)).map
        Event.handedOut := Dialogue.events_each_output switch _ past
  rw [heed, Dialogue.run_bind]
  exact congrArg _ ((List.append_nil _).trans (hevents.trans (List.map_map ..)))

/-- A configuration comes to its fields, applied in order. -/
theorem value_configure (i : Instance) (fields : List (String × String)) (switch : Switch)
    (past : List Event) :
    ((i.configure fields).run switch past).value =
      fields.foldl (fun i field => (i.applyField field).1) i := by
  rw [configure_eq]
  induction fields generalizing i past with
  | nil => rfl
  | cons field rest ih =>
    rw [Dialogue.carry, Dialogue.value_run_bind, run_heed, List.foldl_cons]
    exact ih _ _

/-- After a setting each group was told it, or was brought plugins. -/
theorem exists_of_get?_apply {setting : Setting} {name : String} {after : Group}
    (h : (i.apply setting).groups.get? name = some after) :
    (∃ g, i.groups.get? name = some g ∧ after = g.tell setting) ∨
      ∃ spec names, setting = .plugins spec names ∧ spec.name = name ∧
        after = (i.groupFor spec).withPlugins names := by
  have hmapped : ∀ change : Group → Group, (i.mapGroups change).groups.get? name = some after →
      ∃ g, i.groups.get? name = some g ∧ after = change g := by
    intro change hfound
    rw [mapGroups, SortedMap.get?_map, Option.map_eq_some_iff] at hfound
    obtain ⟨g, hg, rfl⟩ := hfound
    exact ⟨g, hg, rfl⟩
  cases setting with
  | interval milliseconds => exact .inl ⟨after, h, rfl⟩
  | enabled value => exact .inl ⟨after, h, rfl⟩
  | mode value => exact .inl (hmapped (Group.tell (.mode value)) h)
  | chunkSize value => exact .inl (hmapped (Group.tell (.chunkSize value)) h)
  | prefixes value => exact .inl (hmapped (Group.tell (.prefixes value)) h)
  | plugins spec names =>
    rw [apply, putGroup] at h
    by_cases hname : spec.name = name
    · subst hname
      rw [SortedMap.get?_insert_self, Option.some_inj] at h
      exact .inr ⟨spec, names, rfl, rfl, h.symm⟩
    · rw [SortedMap.get?_insert_of_ne _ _ hname] at h
      exact .inl ⟨after, h, rfl⟩

/-- A group that is there hears of every setting, or is brought plugins. -/
theorem exists_get?_apply {name : String} {g : Group} (h : i.groups.get? name = some g)
    (setting : Setting) :
    ∃ after, (i.apply setting).groups.get? name = some after ∧
      (after = g.tell setting ∨ ∃ names, after = g.withPlugins names) := by
  have hmapped : ∀ change : Group → Group,
      (i.mapGroups change).groups.get? name = some (change g) :=
    fun change => (SortedMap.get?_map _ _ _).trans (congrArg _ h)
  cases setting with
  | interval milliseconds => exact ⟨g, h, .inl rfl⟩
  | enabled value => exact ⟨g, h, .inl rfl⟩
  | mode value => exact ⟨_, hmapped (Group.tell (.mode value)), .inl rfl⟩
  | chunkSize value => exact ⟨_, hmapped (Group.tell (.chunkSize value)), .inl rfl⟩
  | prefixes value => exact ⟨_, hmapped (Group.tell (.prefixes value)), .inl rfl⟩
  | plugins spec names =>
    by_cases hname : spec.name = name
    · subst hname
      refine ⟨(i.groupFor spec).withPlugins names, SortedMap.get?_insert_self _ _ _,
        .inr ⟨names, ?_⟩⟩
      rw [groupFor, h, Option.getD_some]
    · exact ⟨g, (SortedMap.get?_insert_of_ne _ _ hname).trans h, .inl rfl⟩

end Settings

section Objects

variable {I : Instance → Prop}

/-- What holds of an instance holds after a registration of objects if each group that the fields
choose may be put in its place. -/
theorem register_always {vids rids : List ObjectId}
    (hput : ∀ i spec names asked, I i → spec ∈ GroupSpec.all →
      (registerWith (i.groupFor spec) vids rids names asked).Always fun g => I (i.putGroup spec g))
    (h : I i) (kind : ObjectKind) (fields : List (String × String)) :
    (i.register kind vids rids fields).Always I := by
  unfold register
  refine Dialogue.always_bind_of_forall fun _ => ?_
  refine Dialogue.Always.carry (fun before hbefore field _ => ?_) h
  unfold registerField
  cases hroute : route kind (askedMode fields) field with
  | error event =>
    dsimp only
    exact Dialogue.always_bind_of_forall fun _ => hbefore
  | ok routed =>
    dsimp only
    rw [Dialogue.always_bind]
    exact hput before routed.1 routed.2 _ hbefore (known_of_route hroute).1

/-- The same of the calls that register objects. -/
theorem registration_always {control : Control} (hcontrol : control.registers = true)
    (hput : ∀ i spec rids names asked, I i → spec ∈ GroupSpec.all →
      (registerWith (i.groupFor spec) control.vids rids names asked).Always fun g =>
        I (i.putGroup spec g))
    (h : I i) : (control.perform i).Always I := by
  cases control with
  | add vid rid fields =>
    rw [Control.perform, Instance.add]
    split
    · next kind hkind =>
      exact register_always (fun i spec names asked => hput i spec [rid] names asked) h kind fields
    · exact Dialogue.always_bind_of_forall fun _ => h
  | addMany kind vids rids fields =>
    rw [Control.perform, Instance.addMany]
    split
    · exact Dialogue.always_bind_of_forall fun _ => h
    · split
      · exact h
      · exact register_always (fun i spec names asked => hput i spec rids names asked) h kind fields
  | _ => cases hcontrol

/-- What holds of an instance holds after a removal if each group that has dropped the object may be
put in its place. -/
theorem remove_always {vid : ObjectId}
    (hput : ∀ i spec g, I i → i.groups.get? spec.name = some g →
      (g.remove vid).Always fun after => I (i.putGroup spec after))
    (h : I i) : (i.remove vid).Always I := by
  unfold remove
  split
  · exact Dialogue.always_bind_of_forall fun _ => h
  · dsimp only
    split
    · refine Dialogue.Always.carry (fun before hbefore spec _ => ?_) h
      unfold removeFrom
      split
      · next g hg =>
        rw [Dialogue.always_bind]
        exact hput before spec g hbefore hg
      · exact hbefore
    · exact Dialogue.always_bind_of_forall fun _ => h

end Objects

section Every

/-- Every group has a property. -/
def Every (P : Group → Prop) (i : Instance) : Prop :=
  ∀ name g, i.groups.get? name = some g → P g

theorem Every.mapGroups (h : i.Every P) {change : Group → Group}
    (hchange : ∀ g, P g → P (change g)) : (i.mapGroups change).Every P := by
  intro name after hafter
  rw [Instance.mapGroups, SortedMap.get?_map, Option.map_eq_some_iff] at hafter
  obtain ⟨g, hg, rfl⟩ := hafter
  exact hchange g (h name g hg)

theorem Every.putGroup (h : i.Every P) (spec : GroupSpec) {g : Group} (hg : P g) :
    (i.putGroup spec g).Every P := by
  intro name after hafter
  rw [Instance.putGroup] at hafter
  by_cases hname : spec.name = name
  · subst hname
    rw [SortedMap.get?_insert_self, Option.some_inj] at hafter
    exact hafter ▸ hg
  · rw [SortedMap.get?_insert_of_ne _ _ hname] at hafter
    exact h name after hafter

/-- The group of a specification, found or new, has an invariant that all groups have. -/
theorem Every.groupFor (h : i.Every P) (hP : Group.Invariant allowed P) (spec : GroupSpec) :
    P (i.groupFor spec) := by
  unfold Instance.groupFor
  cases hfound : i.groups.get? spec.name with
  | none => exact hP.initial _
  | some g => exact h spec.name g hfound

theorem Every.applyField (h : i.Every P) (hP : Group.Invariant allowed P)
    (field : String × String) : (i.applyField field).1.Every P := by
  unfold Instance.applyField
  cases hsetting : Setting.ofField field.1 field.2 with
  | error refusal => exact h
  | ok setting =>
    intro name after hafter
    rcases exists_of_get?_apply hafter with ⟨g, hg, rfl⟩ | ⟨spec, names, -, -, rfl⟩
    · exact hP.tell (h name g hg) setting
    · exact hP.perform _ (.addPlugins names) hP.allowed_nil (h.groupFor hP spec)

/-- An invariant of groups that all groups have they have after every call that names objects which
it may name together. -/
theorem Every.perform (h : i.Every P) (hP : Group.Invariant allowed P) (control : Control)
    (hcontrol : allowed control.vids) : (control.perform i).Always (Every P) := by
  have hregistration : control.registers = true → (control.perform i).Always (Every P) := by
    intro hregisters
    refine registration_always hregisters (fun before spec rids names asked hbefore _ => ?_) h
    have hgroup := hP.registerWith (hbefore.groupFor hP spec) hcontrol rids names asked
    exact hgroup.mono fun after hafter => hbefore.putGroup spec hafter
  cases control with
  | configure fields =>
    refine Dialogue.Always.carry (fun before hbefore field _ => ?_) h
    exact Dialogue.always_bind_of_forall fun _ => hbefore.applyField hP field
  | add vid rid fields => exact hregistration rfl
  | addMany kind vids rids fields => exact hregistration rfl
  | remove vid =>
    refine remove_always (fun before spec g hbefore hg => ?_) h
    have hgroup := hP.perform g (.remove vid) hP.allowed_nil (hbefore spec.name g hg)
    exact hgroup.mono fun after hafter => hbefore.putGroup spec hafter
  | retire => exact h.mapGroups fun g hg => hP.perform g .dropPlugins hP.allowed_nil hg
  | clear => exact h.mapGroups fun g hg => hP.perform g .removeAll hP.allowed_nil hg
  | pass =>
    refine Dialogue.always_bind_of_forall fun _ => ?_
    refine Dialogue.always_bind_of_forall fun _ => ?_
    exact Dialogue.always_bind_of_forall fun _ => h

/-- Calls that are made one after the other bring an instance on. -/
theorem ReachedBy.carry {done : List Control} (h : i.ReachedBy done) (controls : List Control)
    (switch : Switch) (past : List Event) :
    ((Dialogue.carry Control.perform i controls).run switch past).value.ReachedBy
      (done ++ controls) := by
  induction controls generalizing i done past with
  | nil => rwa [List.append_nil]
  | cons control rest ih =>
    rw [Dialogue.carry, Dialogue.value_run_bind, List.append_cons]
    exact ih (h.perform control switch past) _

/-- An invariant of groups holds of every group after calls each of which names objects that it may
name together. -/
theorem ReachedBy.every {controls : List Control} (h : i.ReachedBy controls)
    (hP : Group.Invariant allowed P) (hcontrols : ∀ control ∈ controls, allowed control.vids) :
    i.Every P := by
  induction h with
  | initial name profile => exact fun name g hg => absurd hg (by simp [Instance.initial])
  | @perform controls i control switch past _ ih =>
    obtain ⟨hearlier, hlast⟩ := List.forall_mem_append.mp hcontrols
    have hstep := (ih hearlier).perform hP control (hlast control List.mem_cons_self)
    exact hstep.value switch past

end Every

end Instance

end CounterPolling
