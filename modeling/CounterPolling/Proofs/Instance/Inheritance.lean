import CounterPolling.Proofs.Group.Regrouping
import CounterPolling.Proofs.Instance.Calls

/-!
# Groups agree with their instance

What an instance is told reaches its groups in two ways: those that are there hear of it at once,
and one that comes later takes over what is in force. Both come to the same, as long as no group
refuses chunk sizes by prefix. Main statement: `Instance.groups_agree`.
-/

namespace CounterPolling

/-- A group refused chunk sizes by prefix. -/
def Event.refusesPrefixes : Event → Bool
  | .handedOut (.notice (.ofInstance _ (.refused (.conflictingPartitions _)))) => true
  | _ => false

namespace GroupSettings

/-- Settings as a group without objects takes them over. -/
def tell (setting : Setting) (settings : GroupSettings) : GroupSettings :=
  match setting with
  | .mode value => { settings with mode := value }
  | .chunkSize value => { settings with chunkSize := value }
  | .prefixes value => { settings with prefixes := value }
  | .interval _ | .enabled _ | .plugins .. => settings

/-- What a group is told is what its instance is told, prefixes too if no group refused any. -/
structure InTune (spared : Prop) (i : Instance) (settings : GroupSettings) : Prop where
  owner_eq : settings.owner = i.name
  mode_eq : settings.mode = i.mode
  chunkSize_eq : settings.chunkSize = i.chunkSize.getD 0
  prefixes_eq : spared → settings.prefixes = i.prefixes

end GroupSettings

namespace Group

variable {group : Group}

/-- Lets a group hear a configuration field; one that cannot be read says nothing. -/
def hear (group : Group) (field : String × String) : Group :=
  match Setting.ofField field.1 field.2 with
  | .ok setting => group.tell setting
  | .error _ => group

/-- A group without objects takes every setting over. -/
theorem tell_initial (setting : Setting) (settings : GroupSettings) :
    (initial settings).tell setting = initial (settings.tell setting) := by
  have hchange : ∀ change : GroupSettings → GroupSettings,
      (∀ told, (change told).spec = told.spec) →
      (initial settings).mapSettings change = initial (change settings) := by
    intro change hspec
    unfold initial
    rw [hspec]
    cases settings.spec.content <;> rfl
  cases setting with
  | mode value => exact hchange (fun told => { told with mode := value }) fun _ => rfl
  | chunkSize value =>
    unfold tell initial
    dsimp only [GroupSettings.tell]
    cases settings.spec.content <;> rfl
  | prefixes value =>
    unfold tell
    dsimp only
    rw [withPrefixes_initial]
    rfl
  | _ => rfl

/-- A group is told what a setting says, unless it refuses prefixes. -/
theorem settings_tell (setting : Setting) (group : Group) :
    (group.tell setting).settings = group.settings.tell setting ∨
      ∃ prefixes refusal, setting = .prefixes prefixes ∧
        group.withPrefixes prefixes = .error refusal ∧ group.tell setting = group := by
  cases setting with
  | mode value =>
    left
    cases group <;> rfl
  | chunkSize value =>
    left
    cases group <;> rfl
  | prefixes value =>
    rcases group.withPrefixes_cases value with hrefused | ⟨after, htaken, hsettings⟩
    · right
      refine ⟨value, _, rfl, hrefused, ?_⟩
      rw [tell, hrefused]
      rfl
    · left
      rw [tell, htaken]
      exact hsettings
  | _ => exact .inl rfl

theorem settings_withPlugins (group : Group) (names : List String) :
    (group.withPlugins names).settings = group.settings.withPlugins names := by
  cases group <;> rfl

theorem settings_withoutPlugins (group : Group) :
    group.withoutPlugins.settings = { group.settings with plugins := ∅ } := by
  cases group <;> rfl

theorem settings_withoutObjects (group : Group) :
    group.withoutObjects.settings = group.settings := by
  cases group <;> rfl

end Group

namespace Instance

variable {i : Instance} {spared : Prop} {spec : GroupSpec} {start : Group}

theorem newGroup_inTune (i : Instance) (spec : GroupSpec) (spared : Prop) :
    (i.newGroup spec).settings.InTune spared i := by
  rw [newGroup, Group.settings_initial]
  exact ⟨rfl, rfl, rfl, fun _ => rfl⟩

/-- The configuration fields of a call. -/
def fieldsOf : Control → List (String × String)
  | .configure fields => fields
  | _ => []

/-- Every group is in tune with the instance, and a new one is as if it had heard what a group from
the start did. -/
structure Follows (spared : Prop) (spec : GroupSpec) (start : Group) (i : Instance) : Prop where
  in_tune : ∀ name g, i.groups.get? name = some g → g.settings.InTune spared i
  new_eq : spared → i.newGroup spec = start

/-- An instance may change in what no group is told. -/
theorem Follows.retune {after : Instance} (h : i.Follows spared spec start)
    (hgroups : after.groups = i.groups) (hname : after.name = i.name) (hmode : after.mode = i.mode)
    (hsize : after.chunkSize = i.chunkSize) (hprefixes : after.prefixes = i.prefixes)
    (hnew : spared → after.newGroup spec = start) : after.Follows spared spec start where
  in_tune key g hg := by
    rw [hgroups] at hg
    obtain ⟨howner, hmode', hsize', hprefixes'⟩ := h.in_tune key g hg
    exact ⟨hname ▸ howner, hmode ▸ hmode', hsize ▸ hsize', hprefixes ▸ hprefixes'⟩
  new_eq := hnew

theorem Follows.groupFor (h : i.Follows spared spec start) (other : GroupSpec) :
    (i.groupFor other).settings.InTune spared i := by
  unfold Instance.groupFor
  cases hfound : i.groups.get? other.name with
  | none => exact i.newGroup_inTune other spared
  | some g => exact h.in_tune other.name g hfound

/-- A group that is in tune may be put in its place. -/
theorem Follows.putGroup (h : i.Follows spared spec start) (other : GroupSpec) {g : Group}
    (hg : g.settings.InTune spared i) :
    (i.putGroup other g).Follows spared spec start where
  in_tune name after hafter := by
    rw [Instance.putGroup] at hafter
    by_cases hname : other.name = name
    · subst hname
      rw [SortedMap.get?_insert_self, Option.some_inj] at hafter
      exact hafter ▸ ⟨hg.owner_eq, hg.mode_eq, hg.chunkSize_eq, hg.prefixes_eq⟩
    · rw [SortedMap.get?_insert_of_ne _ _ hname] at hafter
      obtain ⟨howner, hmode, hsize, hprefixes⟩ := h.in_tune name after hafter
      exact ⟨howner, hmode, hsize, hprefixes⟩
  new_eq := h.new_eq

/-- What leaves groups in tune may be done to all of them. -/
theorem Follows.mapGroups (h : i.Follows spared spec start) {change : Group → Group}
    (hchange : ∀ g : Group, g.settings.InTune spared i → (change g).settings.InTune spared i) :
    (i.mapGroups change).Follows spared spec start where
  in_tune name after hafter := by
    rw [Instance.mapGroups, SortedMap.get?_map, Option.map_eq_some_iff] at hafter
    obtain ⟨g, hg, rfl⟩ := hafter
    obtain ⟨howner, hmode, hsize, hprefixes⟩ := hchange g (h.in_tune name g hg)
    exact ⟨howner, hmode, hsize, hprefixes⟩
  new_eq := h.new_eq

/-- No group refused prefixes if no refusal was reported. -/
theorem prefixRefusals_eq_nil {prefixes : PrefixConfig}
    (h : ∀ event ∈ i.eventsOf (.prefixes prefixes),
      ¬ (Event.handedOut (.notice (.ofInstance i.name event))).refusesPrefixes = true) :
    i.prefixRefusals prefixes = [] := by
  apply List.filterMap_eq_nil_iff.mpr
  intro g hg
  rcases g.withPrefixes_cases prefixes with hrefused | ⟨after, htaken, -⟩
  · exfalso
    refine h (.refused (.conflictingPartitions g.settings.spec.name)) ?_ rfl
    refine List.mem_map_of_mem (List.mem_filterMap.mpr ⟨g, hg, ?_⟩)
    rw [hrefused]
  · rw [htaken]

/-- The prefixes that every group takes are those of the instance. -/
theorem prefixes_apply {prefixes : PrefixConfig} (h : i.prefixRefusals prefixes = []) :
    (i.apply (.prefixes prefixes)).prefixes = prefixes := by
  rw [apply, withPrefixes, h]
  rfl

theorem inTune_tell {settings : GroupSettings} (h : settings.InTune spared i) (setting : Setting)
    (hspared : spared → ∀ prefixes, setting = .prefixes prefixes →
      i.prefixRefusals prefixes = []) :
    (settings.tell setting).InTune spared (i.apply setting) := by
  obtain ⟨howner, hmode, hsize, hprefixes⟩ := h
  cases setting with
  | interval milliseconds => exact ⟨howner, hmode, hsize, hprefixes⟩
  | enabled value => exact ⟨howner, hmode, hsize, hprefixes⟩
  | mode value => exact ⟨howner, rfl, hsize, hprefixes⟩
  | chunkSize value => exact ⟨howner, hmode, rfl, hprefixes⟩
  | prefixes value =>
    exact ⟨howner, hmode, hsize, fun hs => (prefixes_apply (hspared hs value rfl)).symm⟩
  | plugins spec names => exact ⟨howner, hmode, hsize, hprefixes⟩

/-- Bringing a setting into force leaves groups and instance in tune. -/
theorem Follows.apply (h : i.Follows spared spec start) (setting : Setting)
    (hspared : spared → ∀ prefixes, setting = .prefixes prefixes →
      i.prefixRefusals prefixes = []) :
    (i.apply setting).Follows spared spec (start.tell setting) where
  in_tune name after hafter := by
    rcases exists_of_get?_apply hafter with ⟨g, hg, rfl⟩ | ⟨other, names, rfl, -, rfl⟩
    · have hold := h.in_tune name g hg
      rcases g.settings_tell setting with hsettings | ⟨prefixes, refusal, rfl, hrefused, hsame⟩
      · rw [hsettings]
        exact inTune_tell hold setting hspared
      · rw [hsame]
        refine ⟨hold.owner_eq, hold.mode_eq, hold.chunkSize_eq, fun hs => ?_⟩
        -- a group that was there refused, so the instance was not spared
        have hvalue : g ∈ i.groups.values :=
          List.mem_map_of_mem (SortedMap.get?_eq_some_iff.mp hg)
        have hnone := List.filterMap_eq_nil_iff.mp (hspared hs prefixes rfl) g hvalue
        rw [hrefused] at hnone
        cases hnone
    · rw [Group.settings_withPlugins]
      obtain ⟨howner, hmode, hsize, hprefixes⟩ := h.groupFor other
      exact ⟨howner, hmode, hsize, hprefixes⟩
  new_eq hs := by
    rw [← h.new_eq hs, newGroup, newGroup, Group.tell_initial]
    cases setting with
    | prefixes prefixes =>
      rw [prefixes_apply (hspared hs prefixes rfl)]
      rfl
    | _ => rfl

/-- A field is heeded as the setting that it is read as. -/
theorem Follows.heed (h : i.Follows spared spec start) (field : String × String)
    (switch : Switch) (past : List Event)
    (hgood : ∀ event ∈ ((i.heed field).run switch past).events,
      ¬ (spared ∧ event.refusesPrefixes = true)) :
    ((i.heed field).run switch past).value.Follows spared spec (start.hear field) := by
  rw [run_heed] at hgood ⊢
  dsimp only at hgood ⊢
  unfold applyField at hgood ⊢
  unfold Group.hear
  cases hsetting : Setting.ofField field.1 field.2 with
  | error refusal => exact h
  | ok setting =>
    refine h.apply setting ?_
    rintro hs prefixes rfl
    refine prefixRefusals_eq_nil fun event hevent hrefuses => ?_
    refine hgood _ ?_ ⟨hs, hrefuses⟩
    rw [hsetting]
    exact List.mem_map_of_mem hevent

/-- A call leaves groups and instance in tune, as long as no group refuses prefixes. -/
theorem Follows.perform (h : i.Follows spared spec start) (control : Control) (switch : Switch)
    (past : List Event)
    (hgood : ∀ event ∈ ((control.perform i).run switch past).events,
      ¬ (spared ∧ event.refusesPrefixes = true)) :
    ((control.perform i).run switch past).value.Follows spared spec
      ((fieldsOf control).foldl Group.hear start) := by
  have hregistration : control.registers = true →
      (control.perform i).Always (Follows spared spec start) := by
    intro hcontrol
    refine registration_always hcontrol (fun before other rids names asked hbefore _ => ?_) h
    refine (Group.registerWith_settings _ _ rids names asked).mono fun after hafter => ?_
    exact hbefore.putGroup other (hafter ▸ hbefore.groupFor other)
  cases control with
  | configure fields =>
    rw [Control.perform, configure_eq] at hgood ⊢
    refine Dialogue.carry_follows (fun start before hbefore field _ past hfield => ?_) h hgood
    exact hbefore.heed field switch past hfield
  | add vid rid fields => exact (hregistration rfl).value switch past
  | addMany kind vids rids fields => exact (hregistration rfl).value switch past
  | remove vid =>
    have hremoved : (i.remove vid).Always (Follows spared spec start) := by
      refine remove_always (fun before other g hbefore hg => ?_) h
      refine (g.remove_settings vid).mono fun after hafter => ?_
      exact hbefore.putGroup other (hafter ▸ hbefore.in_tune other.name g hg)
    exact hremoved.value switch past
  | retire =>
    have hmapped : (i.mapGroups Group.withoutPlugins).Follows spared spec start := by
      refine h.mapGroups fun g hg => ?_
      rw [Group.settings_withoutPlugins]
      exact ⟨hg.owner_eq, hg.mode_eq, hg.chunkSize_eq, hg.prefixes_eq⟩
    exact hmapped.retune rfl rfl rfl rfl rfl h.new_eq
  | clear =>
    refine h.mapGroups fun g hg => ?_
    rwa [Group.settings_withoutObjects]
  | pass =>
    have hpassed : (i.pass).Always (Follows spared spec start) := by
      refine Dialogue.always_bind_of_forall fun _ => ?_
      refine Dialogue.always_bind_of_forall fun _ => ?_
      exact Dialogue.always_bind_of_forall fun _ => h.retune rfl rfl rfl rfl rfl h.new_eq
    exact hpassed.value switch past

/-- After any calls with any answers of the driver, every group reads in the mode of its instance
and in chunks of its chunk size, zero if there is none. If no group ever refused chunk sizes by
prefix, every group has those of the instance too, and whenever it came into being it is told,
plugins apart, what a group from the start would be that heard all settings in order. -/
theorem groups_agree (name : String) (profile : Profile) (controls : List Control)
    (switch : Switch) (past : List Event) :
    let outcome :=
      (Dialogue.carry Control.perform (Instance.initial name profile) controls).run switch past
    let i := outcome.value
    (∀ key g, i.groups.get? key = some g →
      g.settings.mode = i.mode ∧ g.settings.chunkSize = i.chunkSize.getD 0) ∧
    ((∀ event ∈ outcome.events, event.refusesPrefixes = false) →
      ∀ key g, i.groups.get? key = some g → g.settings.prefixes = i.prefixes ∧
        g.settings =
          { ((controls.flatMap fieldsOf).foldl Group.hear
              ((Instance.initial name profile).newGroup g.settings.spec)).settings with
            plugins := g.settings.plugins }) := by
  intro outcome i
  have hfollows : ∀ spared spec,
      (∀ event ∈ outcome.events, ¬ (spared ∧ event.refusesPrefixes = true)) →
      i.Follows spared spec ((controls.flatMap fieldsOf).foldl Group.hear
        ((Instance.initial name profile).newGroup spec)) := by
    intro spared spec hgood
    rw [List.foldl_flatMap]
    refine Dialogue.carry_follows (fun start before hbefore control _ past hcall => ?_) ?_ hgood
    · exact hbefore.perform control switch past hcall
    · exact ⟨fun key g hg => absurd hg (by simp [Instance.initial]), fun _ => rfl⟩
  constructor
  · intro key g hg
    have hany := hfollows False g.settings.spec fun event _ => fun h => h.1
    have htune := hany.in_tune key g hg
    exact ⟨htune.mode_eq, htune.chunkSize_eq⟩
  · intro hspared key g hg
    have hnone := hfollows True g.settings.spec fun event hevent h => by
      rw [hspared event hevent] at h
      exact Bool.false_ne_true h.2
    have htune := hnone.in_tune key g hg
    refine ⟨htune.prefixes_eq trivial, ?_⟩
    rw [← hnone.new_eq trivial, newGroup, Group.settings_initial]
    calc
      g.settings = ⟨g.settings.spec, g.settings.owner, g.settings.mode, g.settings.plugins,
          g.settings.chunkSize, g.settings.prefixes⟩ := rfl
      _ = ⟨g.settings.spec, i.name, i.mode, g.settings.plugins, i.chunkSize.getD 0,
          i.prefixes⟩ := by
        rw [htune.owner_eq, htune.mode_eq, htune.chunkSize_eq, htune.prefixes_eq trivial]

/-- A group of ports from before some settings and a group of queues from after them, which plugins
bring into being, are told the same. -/
theorem groups_agree_ports_and_queues :
    let sizes := [("BULK_CHUNK_SIZE_PER_PREFIX", "SAI_PORT_STAT_ETHER:1")]
    let modes := [("STATS_MODE", "STATS_MODE_READ_AND_CLEAR"), ("BULK_CHUNK_SIZE", "4")]
    let ports := [("PORT_COUNTER_ID_LIST", "SAI_PORT_STAT_IF_IN_OCTETS")]
    let controls : List Control := [.configure sizes, .add (.virtual .port 1) 0x101 ports,
      .configure (modes ++ [("QUEUE_PLUGIN_LIST", "watermark")])]
    let outcome := (Dialogue.carry Control.perform (initial "PORTS" .standard) controls).run
      (.unchanging (StatsGroup.rowFails (.object 0x102))) []
    let i := outcome.value
    i.groups.keys = ["Port Counter", "Queue Counter"] ∧
      (∀ key g, i.groups.get? key = some g →
        g.settings.mode = .readAndClear ∧ g.settings.chunkSize = 4) ∧
      ∀ key g, i.groups.get? key = some g →
        g.settings.prefixes = ⟨[⟨["SAI_PORT_STAT_ETHER"], 1⟩]⟩ ∧
        g.settings =
          { ((controls.flatMap fieldsOf).foldl Group.hear
              ((Instance.initial "PORTS" .standard).newGroup g.settings.spec)).settings with
            plugins := g.settings.plugins } := by
  intro sizes modes ports controls outcome i
  obtain ⟨hagree, hspared⟩ := groups_agree "PORTS" .standard controls
    (.unchanging (StatsGroup.rowFails (.object 0x102))) []
  have hmode : i.mode = .readAndClear := by decide +kernel
  have hsize : i.chunkSize = some 4 := by decide +kernel
  have hprefixes : i.prefixes = ⟨[⟨["SAI_PORT_STAT_ETHER"], 1⟩]⟩ := by decide +kernel
  have hnone : ∀ event ∈ outcome.events, event.refusesPrefixes = false := by decide +kernel
  refine ⟨by decide +kernel, fun key g hg => ?_, fun key g hg => ?_⟩
  · obtain ⟨hgmode, hgsize⟩ := hagree key g hg
    exact ⟨hgmode.trans hmode, hgsize.trans (congrArg (Option.getD · 0) hsize)⟩
  · obtain ⟨hgprefixes, hsettings⟩ := hspared hnone key g hg
    exact ⟨hgprefixes.trans hprefixes, hsettings⟩

end Instance

end CounterPolling
