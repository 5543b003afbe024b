import CounterPolling.Proofs.Group.Prefixes
import CounterPolling.Proofs.Instance.Calls

/-!
# Fields that are refused

A field for which an error is reported changes nothing, but for chunk sizes by prefix, which every
group takes or refuses for itself. So a configuration comes to the same without the fields that are
refused and that no group takes. Main statement: `Instance.refused_fields_change_little`.
-/

namespace CounterPolling

/-- An error was reported. -/
def Event.reportsError : Event → Bool
  | .handedOut (.notice notice) => notice.severity == .error
  | _ => false

/-- A group is rightly filed at any time. -/
theorem Group.filed_invariant : Group.Invariant (fun _ => True) Group.Filed where
  allowed_nil := trivial
  initial := Group.filed_initial
  perform _ command _ h := h.perform command

/-- A group is sound as long as no object is registered twice at once. -/
theorem Group.sound_invariant : Group.Invariant List.Nodup Group.Sound where
  allowed_nil := List.nodup_nil
  initial := Group.sound_initial
  perform _ _ hvids h := h.perform (GroupCommand.distinct_of_vids_nodup hvids)

namespace Instance

variable {i : Instance} {field : String × String}

section OneField

/-- An error is reported for a field. -/
def refuses (i : Instance) (field : String × String) : Bool :=
  (i.applyField field).2.any fun event => event.severity == .error

theorem refuses_iff (i : Instance) (field : String × String) (switch : Switch)
    (past : List Event) :
    i.refuses field = true ↔
      ∃ event ∈ ((i.configure [field]).run switch past).events, event.reportsError = true := by
  rw [configure_eq, Dialogue.carry, Dialogue.events_run_bind, run_heed, refuses, List.any_eq_true]
  simp only [Dialogue.carry, Dialogue.run_done, List.append_nil, List.mem_map,
    exists_exists_and_eq_and]
  rfl

/-- A field is refused because it cannot be read, or because some group refuses its prefixes. -/
theorem cause_of_refuses (h : i.refuses field = true) :
    (∃ event, Setting.ofField field.1 field.2 = .error event) ∨
      ∃ prefixes, Setting.ofField field.1 field.2 = .ok (.prefixes prefixes) ∧
        i.prefixRefusals prefixes ≠ [] := by
  unfold refuses applyField at h
  cases hsetting : Setting.ofField field.1 field.2 with
  | error event => exact .inl ⟨event, rfl⟩
  | ok setting =>
    rw [hsetting] at h
    right
    cases setting with
    | enabled value => cases value <;> cases h
    | prefixes value =>
      refine ⟨value, rfl, fun hnone => ?_⟩
      simp only [eventsOf, hnone] at h
      cases h
    | _ => cases h

/-- What refused prefixes do to a group: it refuses them and stays as it is, or takes them. -/
inductive Bears (prefixes : PrefixConfig) (before : Group) : Group → Prop
  | refused {refusal : ConfigError} : before.withPrefixes prefixes = .error refusal →
    Bears prefixes before before
  | taken {after : Group} : before.Takes prefixes after → Bears prefixes before after

/-- A group that is sound reads the same in bulk, whether it refuses prefixes or takes them. -/
theorem Bears.sameInBulk {prefixes : PrefixConfig} {before after : Group}
    (h : Bears prefixes before after) (hsound : before.Sound) : before.SameInBulk after := by
  cases h with
  | refused hrefused => exact fun _ _ _ _ => Iff.rfl
  | taken htaken => exact htaken.sameInBulk hsound

/-- Prefixes that some group refuses are brought into force in the groups that take them only. -/
theorem withPrefixes_of_refused {prefixes : PrefixConfig}
    (h : i.prefixRefusals prefixes ≠ []) :
    i.withPrefixes prefixes = i.mapGroups (Group.tell (.prefixes prefixes)) := by
  have hempty : (i.prefixRefusals prefixes).isEmpty = false := by
    rwa [Bool.eq_false_iff, ne_eq, List.isEmpty_iff]
  unfold withPrefixes
  rw [hempty]
  rfl

theorem exists_refusal {prefixes : PrefixConfig} (h : i.prefixRefusals prefixes ≠ []) :
    ∃ name g refusal, i.groups.get? name = some g ∧
      g.withPrefixes prefixes = .error refusal := by
  obtain ⟨refusal, hrefusal⟩ := List.exists_mem_of_ne_nil _ h
  obtain ⟨g, hg, hrefused⟩ := List.mem_filterMap.mp hrefusal
  obtain ⟨⟨name, _⟩, hentry, rfl⟩ := List.mem_map.mp hg
  refine ⟨name, _, refusal, SortedMap.get?_eq_some_iff.mpr hentry, ?_⟩
  split at hrefused
  · next found hfound =>
    cases hrefused
    exact hfound
  · cases hrefused

/-- A group that is rightly filed bears prefixes well. -/
theorem bears_tell {g : Group} (h : g.Filed) (prefixes : PrefixConfig) :
    Bears prefixes g (g.tell (.prefixes prefixes)) := by
  rcases g.withPrefixes_cases prefixes with hrefused | ⟨after, htaken, -⟩
  · rw [Group.tell, hrefused]
    exact .refused hrefused
  · rw [Group.tell, htaken]
    exact .taken (h.takes htaken)

end OneField

section Fields

/-- A field is refused, and there is no group that takes it nevertheless. -/
def ignores (i : Instance) (field : String × String) : Bool :=
  i.refuses field &&
    match Setting.ofField field.1 field.2 with
    | .ok (.prefixes value) =>
      i.groups.values.all fun g => (g.withPrefixes value).toOption.isNone
    | _ => true

/-- The fields that are not ignored at their turn. -/
def effective : Instance → List (String × String) → List (String × String)
  | _, [] => []
  | i, field :: rest =>
    if i.ignores field then i.effective rest
    else field :: effective (i.applyField field).1 rest

/-- A field that is ignored changes nothing. -/
theorem applyField_of_ignores (h : i.ignores field = true) : (i.applyField field).1 = i := by
  obtain ⟨hrefuses, hnone⟩ := Bool.and_eq_true_iff.mp h
  unfold applyField
  rcases cause_of_refuses hrefuses with ⟨event, hsetting⟩ | ⟨prefixes, hsetting, hrefused⟩
  · rw [hsetting]
  · rw [hsetting] at hnone ⊢
    change i.withPrefixes prefixes = i
    rw [withPrefixes_of_refused hrefused]
    -- no group takes the prefixes, so each is put back as it was
    refine eq_of_get? fun name => ?_
    rw [SortedMap.get?_map]
    cases hg : i.groups.get? name with
    | none => rfl
    | some g =>
      have hvalue : g ∈ i.groups.values :=
        List.mem_map_of_mem (SortedMap.get?_eq_some_iff.mp hg)
      have hrejects := List.all_eq_true.mp hnone g hvalue
      rw [Option.map_some, Group.tell, Option.isNone_iff_eq_none.mp hrejects]
      rfl

/-- The fields that are ignored may be left out. -/
theorem foldl_effective (i : Instance) (fields : List (String × String)) :
    (i.effective fields).foldl (fun i field => (i.applyField field).1) i =
      fields.foldl (fun i field => (i.applyField field).1) i := by
  induction fields generalizing i with
  | nil => rfl
  | cons field rest ih =>
    rw [effective, List.foldl_cons]
    split
    · next hignored => rw [applyField_of_ignores hignored, ih]
    · rw [List.foldl_cons, ih]

end Fields

/-- In any state that calls bring an instance to, a field for which an error is reported leaves
everything as it is, unless it is read as chunk sizes by prefix that some group refuses. Then it
leaves everything but the groups, none of which comes or goes: those that refuse stay as they are,
and the others take the prefixes and track what they tracked, and read the same in bulk if no call
registered an object twice. So a configuration comes to the same without the fields that are refused
at their turn and that no group takes. -/
theorem refused_fields_change_little {controls : List Control} (h : i.ReachedBy controls) :
    (∀ field switch past, let outcome := (i.configure [field]).run switch past
      (∃ event ∈ outcome.events, event.reportsError = true) →
      ((∀ prefixes, Setting.ofField field.1 field.2 ≠ .ok (.prefixes prefixes)) →
        outcome.value = i) ∧
      ∀ prefixes, Setting.ofField field.1 field.2 = .ok (.prefixes prefixes) →
        outcome.value = { i with groups := outcome.value.groups } ∧
        outcome.value.groups.keys = i.groups.keys ∧
        (∃ name g refusal, i.groups.get? name = some g ∧
          g.withPrefixes prefixes = .error refusal) ∧
        ∀ name before, i.groups.get? name = some before → ∃ after,
          outcome.value.groups.get? name = some after ∧ Bears prefixes before after ∧
            ((∀ control ∈ controls, control.Distinct) → before.SameInBulk after)) ∧
    ∀ fields switch past, ((i.configure fields).run switch past).value =
      ((i.configure (i.effective fields)).run switch past).value := by
  constructor
  · intro field switch past outcome herror
    have hvalue : outcome.value = (i.applyField field).1 := i.value_configure [field] switch past
    have hrefuses := (i.refuses_iff field switch past).mpr herror
    rw [hvalue]
    unfold applyField
    rcases cause_of_refuses hrefuses with ⟨event, hsetting⟩ | ⟨prefixes, hsetting, hrefused⟩
    · rw [hsetting]
      exact ⟨fun _ => rfl, fun prefixes hprefixes => by cases hprefixes⟩
    · rw [hsetting]
      refine ⟨fun hother => absurd rfl (hother prefixes), ?_⟩
      rintro _ ⟨⟩
      change (i.withPrefixes prefixes) = { i with groups := (i.withPrefixes prefixes).groups } ∧ _
      rw [withPrefixes_of_refused hrefused]
      refine ⟨rfl, SortedMap.keys_map _ _, exists_refusal hrefused, fun name before hbefore => ?_⟩
      have hfiled := h.every Group.filed_invariant fun _ _ => trivial
      have hbears := bears_tell (hfiled name before hbefore) prefixes
      refine ⟨before.tell (.prefixes prefixes), ?_, hbears, fun hdistinct => ?_⟩
      · exact (SortedMap.get?_map _ _ _).trans (congrArg _ hbefore)
      · have hsound := h.every Group.sound_invariant fun control hcontrol =>
          (hdistinct control hcontrol).vids_nodup
        exact hbears.sameInBulk (hsound name before hbefore)
  · intro fields switch past
    rw [value_configure, value_configure, foldl_effective]

/-- Two ports of one group with different counters under prefixes, and a port of another group. -/
def unevenPorts : List Control :=
  let both := "SAI_PORT_STAT_IF_IN_OCTETS,SAI_PORT_STAT_ETHER_STATS_JABBERS"
  [.configure [("BULK_CHUNK_SIZE_PER_PREFIX", "SAI_PORT_STAT_ETHER:1")],
    .add (.virtual .port 1) 0x101 [("PORT_COUNTER_ID_LIST", both)],
    .add (.virtual .port 2) 0x102 [("PORT_COUNTER_ID_LIST", "SAI_PORT_STAT_IF_IN_OCTETS")],
    .add (.virtual .port 3) 0x103 [("PORT_DEBUG_COUNTER_ID_LIST", both)]]

/-- Where two groups have ports, a field without a name that is known changes nothing, and prefixes
that the one refuses leave it as it is while the other takes them and reads the same in bulk. -/
theorem refused_fields_change_little_two_groups :
    let switch : Switch := .unchanging (StatsGroup.rowFails (.object 0x104))
    let i := ((Dialogue.carry Control.perform (initial "PORTS" .standard) unevenPorts).run
      switch []).value
    ((i.configure [("POLL", "1")]).run switch []).value = i ∧
      (∃ name g refusal, i.groups.get? name = some g ∧ g.withPrefixes ∅ = .error refusal) ∧
      ∀ before, i.groups.get? "Port Debug Counter" = some before → ∃ after,
        ((i.configure [("BULK_CHUNK_SIZE_PER_PREFIX", "")]).run switch []).value.groups.get?
          "Port Debug Counter" = some after ∧ Bears ∅ before after ∧ before.SameInBulk after := by
  intro switch i
  have hreached : i.ReachedBy unevenPorts :=
    ReachedBy.carry (.initial "PORTS" .standard) unevenPorts switch []
  obtain ⟨hfields, -⟩ := refused_fields_change_little hreached
  obtain ⟨hunknown, -⟩ := hfields ("POLL", "1") switch [] (by decide +kernel)
  obtain ⟨-, hprefixes⟩ :=
    hfields ("BULK_CHUNK_SIZE_PER_PREFIX", "") switch [] (by decide +kernel)
  obtain ⟨-, -, hrefusal, hgroups⟩ := hprefixes ∅ (by decide +kernel)
  have hname : Setting.ofField "POLL" "1" = .error (.unknownField "POLL") := by decide +kernel
  refine ⟨hunknown fun prefixes hread => ?_, hrefusal, fun before hbefore => ?_⟩
  · rw [hname] at hread
    cases hread
  · obtain ⟨after, hafter, hbears, hbulk⟩ := hgroups "Port Debug Counter" before hbefore
    exact ⟨after, hafter, hbears, hbulk (by decide)⟩

/-- Prefixes for which an error is reported come into force in a group that takes them. -/
theorem refused_prefixes_taken_by_another_group :
    ¬ ∀ (controls : List Control) (i : Instance), i.ReachedBy controls →
      ∀ (field : String × String) (switch : Switch) (past : List Event),
        (∃ event ∈ ((i.configure [field]).run switch past).events, event.reportsError = true) →
        ((i.configure [field]).run switch past).value = i := by
  intro h
  let switch : Switch := .unchanging (StatsGroup.rowFails (.object 0x104))
  have hreached := ReachedBy.carry (.initial "PORTS" .standard) unevenPorts switch []
  have hsame := h _ _ hreached ("BULK_CHUNK_SIZE_PER_PREFIX", "") switch [] (by decide +kernel)
  revert hsame
  decide +kernel

end Instance

end CounterPolling
