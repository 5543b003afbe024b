import CounterPolling.Proofs.Group.Trials

/-!
# What is found out about counters

With a driver that never changes, what a group knows after a registration is a function of what
it knew, of the capability list and of the outcomes of its tries. A counter is tried at most
once, so asking again finds out nothing new. Main statements: `valueWith_refresh`, which gives
the function, and `Discovery.refreshed_refreshed`.
-/

namespace CounterPolling

namespace Driver

/-- The capability list of a kind of object on the switch of an object, if it can be had. -/
def capabilityList? (driver : Driver) (kind : ObjectKind) (object : ObjectId) :
    Option (List Capability) :=
  match driver (.capabilities (driver (.switchOf object)) kind 0) with
  | .ok list => some list
  | .error (.tooSmall required) =>
    (driver (.capabilities (driver (.switchOf object)) kind required)).toOption
  | .error _ => none

/-- Whether a counter of an object can be read, and cleared too in the mode that clears. -/
def passesProbe (driver : Driver) (kind : ObjectKind) (object : ObjectId) (mode : ReadMode)
    (id : Int) : Bool :=
  (driver (.read kind object [id])).isOk &&
    (mode == .read || (driver (.clear kind object [id])).isOk)

/-- The capability list that a group goes by, if it asks for one and one can be had. -/
def offered? (driver : Driver) (spec : GroupSpec) (listed : ObjectKind) (object : ObjectId) :
    Option (List Capability) :=
  if spec.usesCapabilities then driver.capabilityList? listed object else none

/-- Whether a group goes by a capability list. -/
def offersList (driver : Driver) (spec : GroupSpec) (listed : ObjectKind) (object : ObjectId) :
    Bool :=
  (driver.offered? spec listed object).isSome

/-- Whether a counter is supported in a mode: as the capability list tells, and as a probe tells
for a group that goes by none. -/
def supports (driver : Driver) (spec : GroupSpec) (listed : ObjectKind) (object : ObjectId)
    (mode : ReadMode) (id : Int) : Bool :=
  match driver.offered? spec listed object with
  | some list => list.any fun line => line.allows mode && line.counter == id
  | none => driver.passesProbe spec.kind object mode id

/-- The driver tells the same of all objects: the capability list, and which counters pass a
probe. -/
structure SupportsAlike (driver : Driver) (kind listed : ObjectKind) : Prop where
  lists : ∀ object object',
    driver.capabilityList? listed object = driver.capabilityList? listed object'
  probes : ∀ object object' mode id,
    driver.passesProbe kind object mode id = driver.passesProbe kind object' mode id

end Driver

/-- The driver that follows rules on bulk reads tells the same of all objects. -/
theorem BulkRules.supportsAlike_driver (rules : BulkRules) [DecidablePred rules.Refuses]
    [∀ key, DecidablePred (rules.Readable key)] (kind listed : ObjectKind) :
    rules.driver.SupportsAlike kind listed where
  lists _ _ := rfl
  probes _ _ _ _ := rfl

/-- The names of the counters that a command asks for. -/
def GroupCommand.names : GroupCommand → List String
  | add _ _ names _ | addMany _ _ names _ => names
  | _ => []

variable {family : CounterFamily} {driver : Driver}

namespace Discovery

variable {d : Discovery family} {outcome : CounterId family → Bool}
  {ids requested : List (CounterId family)}

/-- What is known is told by the members of the two sets and by the two flags. -/
theorem ext_has {d d' : Discovery family}
    (hsupported : ∀ id, SortedSet.has d.supported id = true ↔ SortedSet.has d'.supported id = true)
    (htried : ∀ id, SortedSet.has d.tried id = true ↔ SortedSet.has d'.tried id = true)
    (hlisted : d.listed = d'.listed) (hunlisted : d.unlisted = d'.unlisted) : d = d' := by
  cases d
  cases d'
  simp only [mk.injEq]
  exact ⟨SortedSet.ext_has hsupported, SortedSet.ext_has htried, hlisted, hunlisted⟩

/-- Tries the counters that were not tried before, with outcomes that are given. -/
def tryAll (outcome : CounterId family → Bool) (d : Discovery family)
    (ids : List (CounterId family)) : Discovery family :=
  ids.foldl (fun d id => if SortedSet.has d.tried id then d else d.record id (outcome id)) d

/-- Trying counters in turn is trying them with the outcomes that the driver gives. -/
theorem valueWith_carry_tryOnce (attempt : CounterId family → Dialogue Bool)
    (d : Discovery family) (ids : List (CounterId family)) :
    (Dialogue.carry (tryOnce attempt) d ids).valueWith driver =
      d.tryAll (fun id => (attempt id).valueWith driver) ids := by
  induction ids generalizing d with
  | nil => rfl
  | cons id rest ih =>
    rw [Dialogue.carry, Dialogue.valueWith_bind, ih, tryAll, tryAll, List.foldl_cons]
    congr 1
    unfold tryOnce
    split
    · rfl
    · rw [Dialogue.valueWith_bind]
      rfl

@[simp]
theorem listed_tryAll : (d.tryAll outcome ids).listed = d.listed := by
  refine foldl_keeps Discovery.listed (fun d id => ?_) ids d
  split <;> rfl

@[simp]
theorem unlisted_tryAll : (d.tryAll outcome ids).unlisted = d.unlisted := by
  refine foldl_keeps Discovery.unlisted (fun d id => ?_) ids d
  split <;> rfl

@[simp]
theorem has_tried_tryAll {id : CounterId family} :
    SortedSet.has (d.tryAll outcome ids).tried id = true ↔
      id ∈ ids ∨ SortedSet.has d.tried id = true := by
  unfold tryAll
  induction ids generalizing d with
  | nil => simp
  | cons first rest ih =>
    rw [List.foldl_cons, ih, List.mem_cons]
    split
    · next hfirst =>
      constructor
      · exact fun h => h.imp_left .inr
      · rintro ((rfl | h) | h)
        · exact .inr hfirst
        · exact .inl h
        · exact .inr h
    · simp only [record, SortedSet.has_add]
      tauto

/-- A counter is supported after tries if it was before, or passed a try just now. -/
@[simp]
theorem has_supported_tryAll {id : CounterId family} :
    SortedSet.has (d.tryAll outcome ids).supported id = true ↔
      SortedSet.has d.supported id = true ∨
        (¬ SortedSet.has d.tried id = true ∧ id ∈ ids ∧ outcome id = true) := by
  unfold tryAll
  induction ids generalizing d with
  | nil => simp
  | cons first rest ih =>
    rw [List.foldl_cons, ih, List.mem_cons]
    split
    · next hfirst =>
      constructor
      · rintro (h | ⟨htried, hmem, houtcome⟩)
        · exact .inl h
        · exact .inr ⟨htried, .inr hmem, houtcome⟩
      · rintro (h | ⟨htried, rfl | hmem, houtcome⟩)
        · exact .inl h
        · exact absurd hfirst htried
        · exact .inr ⟨htried, hmem, houtcome⟩
    · next hfirst =>
      have hsupported : SortedSet.has (d.record first (outcome first)).supported id = true ↔
          SortedSet.has d.supported id = true ∨ (first = id ∧ outcome first = true) := by
        cases houtcome : outcome first with
        | true => simp only [record, if_true, SortedSet.has_add, and_true, or_comm]
        | false => simp [record]
      rw [hsupported]
      simp only [record, SortedSet.has_add, not_or]
      by_cases hid : first = id
      · subst hid
        simp [hfirst]
      · simp [hid, Ne.symm hid]

/-- Counters that were all tried before are not tried again. -/
theorem tryAll_eq_self (h : ∀ id ∈ ids, SortedSet.has d.tried id = true) :
    d.tryAll outcome ids = d := by
  unfold tryAll
  induction ids with
  | nil => rfl
  | cons first rest ih =>
    obtain ⟨hfirst, hrest⟩ := List.forall_mem_cons.mp h
    rw [List.foldl_cons, if_pos hfirst, ih hrest]

/-- A counter is supported once a list was learnt if it was before, or if the list allows it. -/
theorem has_supported_learn {mode : ReadMode} {list : List Capability} {id : CounterId family} :
    SortedSet.has (d.learn mode list).supported id = true ↔
      SortedSet.has d.supported id = true ∨
        (list.any fun line => line.allows mode && line.counter == id.raw) = true := by
  rw [learn, SortedSet.has_addAll, or_comm]
  apply or_congr_right
  simp only [List.mem_filterMap, List.mem_filter, List.any_eq_true, Bool.and_eq_true, beq_iff_eq]
  constructor
  · rintro ⟨line, ⟨hline, hallows⟩, hraw⟩
    exact ⟨line, hline, hallows, (CounterId.raw_of_ofRaw? hraw).symm⟩
  · rintro ⟨line, hline, hallows, hraw⟩
    exact ⟨line, ⟨hline, hallows⟩, by rw [hraw, CounterId.ofRaw?_raw]⟩

/-- What is known after a registration, given the capability list, if there is one, and the
outcomes of tries. -/
def refreshed (spec : GroupSpec) (mode : ReadMode) (list? : Option (List Capability))
    (outcome : CounterId family → Bool) (requested : List (CounterId family))
    (known : Discovery family) : Discovery family :=
  let d := known.onRegistration spec
  if d.listed then d
  else if spec.usesCapabilities && !d.unlisted then
    match list? with
    | some list => d.learn mode list
    | none => tryAll outcome { d with unlisted := true } requested
  else tryAll outcome d requested

/-- The outcome of asking a driver that never changes for a capability list. -/
theorem toOption_valueWith_readCapabilities (driver : Driver) (kind : ObjectKind)
    (object : ObjectId) :
    ((readCapabilities (driver (.switchOf object)) kind).valueWith driver).toOption =
      driver.capabilityList? kind object := by
  unfold readCapabilities Driver.capabilityList?
  rw [Dialogue.valueWith_bind, Dialogue.valueWith_question]
  cases driver (.capabilities (driver (.switchOf object)) kind 0) with
  | ok list => rfl
  | error error => cases error <;> rfl

/-- With a driver that never changes, finding out is a function of what the driver answers. -/
theorem valueWith_refresh (settings : GroupSettings) (object : ObjectId) (mode : ReadMode)
    (attempt : CounterId family → Dialogue Bool) (requested : List (CounterId family))
    (known : Discovery family) :
    (refresh settings object mode attempt requested known).valueWith driver =
      known.refreshed settings.spec mode (driver.capabilityList? family.kind object)
        (fun id => (attempt id).valueWith driver) requested := by
  unfold refresh refreshed
  dsimp only
  split
  · rfl
  · split
    · rw [Dialogue.valueWith_bind, Dialogue.valueWith_question, Dialogue.valueWith_bind,
        ← toOption_valueWith_readCapabilities]
      cases (readCapabilities (driver (.switchOf object)) family.kind).valueWith driver with
      | ok list => rfl
      | error error =>
        dsimp only [Except.toOption]
        rw [Dialogue.valueWith_bind, valueWith_carry_tryOnce]
    · exact valueWith_carry_tryOnce attempt _ requested

/-- A group that finds out anew starts from the counters that it keeps. -/
theorem refreshed_of_rediscovers {spec : GroupSpec} (h : spec.rediscovers = true)
    (mode : ReadMode) (list? : Option (List Capability)) (outcome : CounterId family → Bool)
    (requested : List (CounterId family)) (known : Discovery family) :
    known.refreshed spec mode list? outcome requested =
      let d : Discovery family :=
        ⟨if spec.keepsSupported then known.supported else ∅, ∅, false, false⟩
      if spec.usesCapabilities then
        match list? with
        | some list => d.learn mode list
        | none => tryAll outcome { d with unlisted := true } requested
      else tryAll outcome d requested := by
  simp only [refreshed, onRegistration, if_pos h, initial, Bool.false_eq_true, if_false,
    Bool.not_false, Bool.and_true]

/-- Finding out twice with the same answers is finding out once. -/
theorem refreshed_refreshed (spec : GroupSpec) (mode : ReadMode)
    (list? : Option (List Capability)) (outcome : CounterId family → Bool)
    (requested : List (CounterId family)) (known : Discovery family) :
    (known.refreshed spec mode list? outcome requested).refreshed spec mode list? outcome
      requested = known.refreshed spec mode list? outcome requested := by
  have htried : ∀ d : Discovery family,
      (d.tryAll outcome requested).tryAll outcome requested = d.tryAll outcome requested :=
    fun d => tryAll_eq_self fun id hid => has_tried_tryAll.mpr (.inl hid)
  by_cases hrediscovers : spec.rediscovers = true
  · -- the second time starts from counters that the first time finds supported anyway
    simp only [refreshed_of_rediscovers hrediscovers]
    by_cases hkeeps : spec.keepsSupported = true
    · simp only [if_pos hkeeps]
      split
      · cases list? with
        | some list =>
          refine ext_has (fun id => ?_) (fun id => Iff.rfl) rfl rfl
          simp only [has_supported_learn, or_assoc, or_self]
        | none =>
          refine ext_has (fun id => ?_) (fun id => ?_) ?_ ?_
          · simp only [has_supported_tryAll, or_assoc, or_self]
          · simp only [has_tried_tryAll]
          · simp only [listed_tryAll]
          · simp only [unlisted_tryAll]
      · refine ext_has (fun id => ?_) (fun id => ?_) ?_ ?_
        · simp only [has_supported_tryAll, or_assoc, or_self]
        · simp only [has_tried_tryAll]
        · simp only [listed_tryAll]
        · simp only [unlisted_tryAll]
    · simp only [if_neg hkeeps]
  · -- what was tried, or read off a list, is not asked for again
    have hon : ∀ d : Discovery family, d.onRegistration spec = d :=
      fun d => if_neg hrediscovers
    unfold refreshed
    simp only [hon]
    by_cases hlisted : known.listed = true
    · simp only [if_pos hlisted]
    · by_cases hask : (spec.usesCapabilities && !known.unlisted) = true
      · simp only [if_neg hlisted, if_pos hask]
        cases list? with
        | some list => simp only [learn, if_true]
        | none =>
          simp only [listed_tryAll, if_neg hlisted, unlisted_tryAll, Bool.not_true,
            Bool.and_false, Bool.false_eq_true, if_false]
          exact htried _
      · simp only [if_neg hlisted, if_neg hask, listed_tryAll, unlisted_tryAll]
        exact htried _

/-- Nothing more is found out about a counter: the list was had, or the counter was tried. -/
def Settled (d : Discovery family) (id : CounterId family) : Prop :=
  d.listed = true ∨ SortedSet.has d.tried id = true

/-- What is known was found out in the one way that is open: by the capability list if there is
one, and otherwise by tries. -/
structure Follows (d : Discovery family) (listed : Bool) : Prop where
  listed_of : d.listed = true → listed = true
  unlisted : listed = true → d.unlisted = false
  untried : listed = true → ∀ id, ¬ SortedSet.has d.tried id = true

theorem follows_initial (listed : Bool) : (initial : Discovery family).Follows listed where
  listed_of h := absurd h Bool.false_ne_true
  unlisted _ := rfl
  untried _ _ h := absurd h (by simp [initial, SortedSet.has])

theorem mem_select {id : CounterId family} :
    id ∈ d.select requested ↔ id ∈ requested ∧ SortedSet.has d.supported id = true := by
  rw [select, SortedSet.mem_toList, SortedSet.has_ofList, List.mem_filter]

end Discovery

/-- The mode in force for the mode of an object's own is the one for the mode it asks for. -/
theorem GroupSettings.modeFor_objectMode (settings : GroupSettings) (asked : Option ReadMode) :
    settings.modeFor (settings.objectMode asked) = settings.modeFor asked := by
  simp only [modeFor, objectMode, Option.filter_filter, Bool.and_self]

namespace StatsGroup

variable {g : StatsGroup family}

/-- The outcome of trying a counter with a driver that never changes. -/
theorem valueWith_attempt (g : StatsGroup family) (rid : ObjectId) (mode : ReadMode)
    (id : CounterId family) :
    (g.attempt rid mode id).valueWith driver = driver.passesProbe g.kind rid mode id.raw := by
  unfold attempt Driver.passesProbe
  rw [Dialogue.valueWith_bind, Dialogue.valueWith_question]
  cases driver (.read g.kind rid [id.raw]) with
  | error error => rfl
  | ok values =>
    cases mode with
    | read => rfl
    | readAndClear =>
      dsimp only
      rw [Dialogue.valueWith_bind, Dialogue.valueWith_question]
      cases driver (.clear g.kind rid [id.raw]) <;> rfl

/-- What a group knows after it found out about some counters with an object as the example. -/
def learnt (g : StatsGroup family) (driver : Driver) (object : ObjectId) (mode : ReadMode)
    (names : List String) : Discovery family :=
  g.discovery.refreshed g.settings.spec mode (driver.capabilityList? family.kind object)
    (fun id => driver.passesProbe g.kind object mode id.raw) (family.requested names)

/-- Any object may be the example if the driver tells the same of all. -/
theorem learnt_congr (g : StatsGroup family)
    (h : driver.SupportsAlike g.kind family.kind) (object object' : ObjectId)
    (mode : ReadMode) (names : List String) :
    g.learnt driver object mode names = g.learnt driver object' mode names := by
  unfold learnt
  rw [h.lists object object']
  congr 1
  funext id
  exact h.probes object object' mode id.raw

theorem valueWith_discover (g : StatsGroup family) (rid : ObjectId) (names : List String)
    (mode : ReadMode) :
    (g.discover rid names mode).valueWith driver =
      ({ g with discovery := g.learnt driver rid mode names },
        (g.learnt driver rid mode names).select (family.requested names)) := by
  have hrequested : (readRequested family names).valueWith driver = family.requested names := by
    unfold readRequested
    rw [Dialogue.valueWith_bind, Dialogue.valueWith_pure]
  rw [discover_eq, Dialogue.valueWith_bind, Dialogue.valueWith_bind, Dialogue.valueWith_pure,
    hrequested, Discovery.valueWith_refresh]
  simp only [valueWith_attempt]
  rfl

/-- A command that registers no object finds out nothing. -/
theorem valueWith_decideOn_of_nil {command : GroupCommand} (h : command.objects = []) :
    (g.decideOn command).valueWith driver = ⟨g.discovery, [], []⟩ := by
  cases command with
  | add vid rid names asked => cases h
  | addMany vids rids names asked =>
    rw [decideOn]
    unfold decideAddMany
    split
    · rw [Dialogue.valueWith_bind, Dialogue.valueWith_pure]
    · next hlength =>
      split
      · rfl
      · next first rest =>
        rw [GroupCommand.objects, if_pos (not_not.mp hlength)] at h
        have hvids : vids = [] := by simpa using List.zip_eq_nil_iff.mp h
        rw [hvids] at hlength
        exact absurd (not_not.mp hlength).symm (by simp)
  | _ => rfl

/-- A registration takes its first object as the example, and selects among the counters asked
for. -/
theorem decideOn_learnt (driver : Driver) {command : GroupCommand}
    {object : ObjectId × ObjectId} {others : List (ObjectId × ObjectId)}
    (h : command.objects = object :: others) :
    ((g.decideOn command).valueWith driver).discovery =
        g.learnt driver object.2 (g.settings.modeFor command.asked) command.names ∧
      ((g.decideOn command).valueWith driver).supported =
        (g.learnt driver object.2 (g.settings.modeFor command.asked) command.names).select
          (family.requested command.names) := by
  cases command with
  | add vid rid names asked =>
    cases h
    simp only [decideOn, decideAdd, Dialogue.valueWith_bind, valueWith_discover,
      GroupSettings.modeFor_objectMode, GroupCommand.asked, GroupCommand.names]
    split
    · next hnone =>
      simp only [Dialogue.valueWith_bind, Dialogue.valueWith_pure]
      exact ⟨trivial, (List.isEmpty_iff.mp hnone).symm⟩
    · simp only [Dialogue.valueWith_bind, Dialogue.valueWith_pure, and_self]
  | addMany vids rids names asked =>
    rw [GroupCommand.objects] at h
    split at h
    · next hlength =>
      obtain ⟨vid, vids, rfl⟩ : ∃ vid rest, vids = vid :: rest :=
        List.exists_cons_of_ne_nil (by rintro rfl; cases h)
      obtain ⟨rid, rids, rfl⟩ : ∃ rid rest, rids = rid :: rest :=
        List.exists_cons_of_ne_nil (by rintro rfl; cases h)
      rw [List.zip_cons_cons] at h
      cases h
      simp only [decideOn, decideAddMany, if_neg (not_not.mpr hlength), Dialogue.valueWith_bind,
        valueWith_discover, GroupSettings.modeFor_objectMode, GroupCommand.asked,
        GroupCommand.names]
      split
      · next hnone =>
        simp only [Dialogue.valueWith_bind, Dialogue.valueWith_pure]
        exact ⟨trivial, (List.isEmpty_iff.mp hnone).symm⟩
      · simp only [Dialogue.valueWith_bind, Dialogue.valueWith_pure, and_self]
    · cases h
  | _ => cases h

section Learnt

variable {object : ObjectId} {mode : ReadMode} {names : List String}
  (h : (g.discovery.onRegistration g.settings.spec).Follows
    (driver.offered? g.settings.spec family.kind object).isSome)

include h

/-- With a capability list that is had already, or can be had, there is nothing to try. -/
theorem learnt_of_offered {list : List Capability}
    (hlist : driver.offered? g.settings.spec family.kind object = some list) :
    g.learnt driver object mode names =
      let d := g.discovery.onRegistration g.settings.spec
      if d.listed then d else d.learn mode list := by
  rw [hlist] at h
  have hunlisted := h.unlisted rfl
  unfold Driver.offered? at hlist
  split at hlist
  · next huses => simp [learnt, Discovery.refreshed, huses, hunlisted, hlist]
  · cases hlist

/-- Without a capability list the counters asked for are tried. -/
theorem learnt_of_not_offered
    (hlist : driver.offered? g.settings.spec family.kind object = none) :
    ∃ unlisted, g.learnt driver object mode names =
      Discovery.tryAll (fun id => driver.passesProbe g.kind object mode id.raw)
        { g.discovery.onRegistration g.settings.spec with unlisted := unlisted }
        (family.requested names) := by
  rw [hlist] at h
  have hlisted : ¬ (g.discovery.onRegistration g.settings.spec).listed = true :=
    fun hon => absurd (h.listed_of hon) Bool.false_ne_true
  unfold learnt Discovery.refreshed
  dsimp only
  rw [if_neg hlisted]
  unfold Driver.offered? at hlist
  split at hlist
  · rw [hlist]
    split
    · exact ⟨true, rfl⟩
    · exact ⟨_, rfl⟩
  · next huses =>
    rw [if_neg (by simp [huses])]
    exact ⟨_, rfl⟩

theorem follows_learnt :
    (g.learnt driver object mode names).Follows
      (driver.offered? g.settings.spec family.kind object).isSome := by
  cases hlist : driver.offered? g.settings.spec family.kind object with
  | some list =>
    rw [learnt_of_offered h hlist]
    rw [hlist] at h
    dsimp only
    split
    · exact h
    · exact ⟨fun _ => rfl, h.unlisted, h.untried⟩
  | none =>
    obtain ⟨unlisted, heq⟩ : ∃ unlisted, g.learnt driver object mode names = _ :=
      learnt_of_not_offered h hlist
    rw [hlist] at h
    refine ⟨fun hon => ?_, fun hnever => ?_, fun hnever => ?_⟩
    · rw [heq, Discovery.listed_tryAll] at hon
      exact h.listed_of hon
    · exact absurd hnever Bool.false_ne_true
    · exact absurd hnever Bool.false_ne_true

/-- A registration settles the counters that it asks for, and all if there is a list. -/
theorem settled_learnt {id : CounterId family} :
    (g.learnt driver object mode names).Settled id ↔
      (g.discovery.onRegistration g.settings.spec).Settled id ∨
        ((driver.offered? g.settings.spec family.kind object).isSome = true ∨
          id ∈ family.requested names) := by
  unfold Discovery.Settled
  cases hlist : driver.offered? g.settings.spec family.kind object with
  | some list =>
    rw [learnt_of_offered h hlist]
    refine iff_of_true (.inl ?_) (.inr (.inl rfl))
    dsimp only
    split
    · next hlisted => exact hlisted
    · rfl
  | none =>
    obtain ⟨unlisted, heq⟩ : ∃ unlisted, g.learnt driver object mode names = _ :=
      learnt_of_not_offered h hlist
    rw [heq, Discovery.listed_tryAll, Discovery.has_tried_tryAll]
    simp only [Option.isSome_none, Bool.false_eq_true, false_or]
    tauto

/-- A registration finds out, in its mode, about the counters that it settles first. -/
theorem has_supported_learnt {id : CounterId family} :
    SortedSet.has (g.learnt driver object mode names).supported id = true ↔
      SortedSet.has (g.discovery.onRegistration g.settings.spec).supported id = true ∨
        (¬ (g.discovery.onRegistration g.settings.spec).Settled id ∧
          ((driver.offered? g.settings.spec family.kind object).isSome = true ∨
            id ∈ family.requested names) ∧
          driver.supports g.settings.spec family.kind object mode id.raw = true) := by
  unfold Discovery.Settled Driver.supports
  cases hlist : driver.offered? g.settings.spec family.kind object with
  | some list =>
    rw [learnt_of_offered h hlist]
    rw [hlist] at h
    have huntried := h.untried rfl id
    dsimp only
    split
    · next hlisted => simp only [hlisted, true_or, not_true_eq_false, false_and, or_false]
    · next hlisted =>
      rw [Discovery.has_supported_learn]
      apply or_congr_right
      exact ⟨fun hlist => ⟨not_or.mpr ⟨hlisted, huntried⟩, .inl rfl, hlist⟩, fun hnew => hnew.2.2⟩
  | none =>
    obtain ⟨unlisted, heq⟩ : ∃ unlisted, g.learnt driver object mode names = _ :=
      learnt_of_not_offered h hlist
    rw [hlist] at h
    have hlisted : ¬ (g.discovery.onRegistration g.settings.spec).listed = true :=
      fun hon => absurd (h.listed_of hon) Bool.false_ne_true
    rw [heq, Discovery.has_supported_tryAll]
    simp only [hlisted, false_or, Option.isSome_none, Bool.false_eq_true]
    rfl

end Learnt

end StatsGroup

end CounterPolling
