import CounterPolling.Proofs.Group.Discovery

/-!
# What is going to be found out

With a driver that never changes it is settled in advance which counters a group is going to find
supported once it asks for them. Asking for other counters first, in whatever number, does not
change it: a capability list that is had tells what it would have told, and a counter that was not
tried yet is tried with the same outcome. Main statements: `Discovery.has_supported_advanced`
and `Discovery.promises_refreshed`.
-/

namespace CounterPolling

variable {family : CounterFamily} {driver : Driver}

namespace Discovery

variable {spec : GroupSpec} {mode : ReadMode} {list? : Option (List Capability)}
  {outcome : CounterId family → Bool} {requested : List (CounterId family)}
  {d known : Discovery family} {id : CounterId family}

/-- The capability list that is asked for and had. -/
def source (spec : GroupSpec) (list? : Option (List Capability)) (d : Discovery family) :
    Option (List Capability) :=
  if spec.usesCapabilities && !d.unlisted then list? else none

/-- What is known after counters were asked for, given what is still taken for granted. -/
def advanced (spec : GroupSpec) (mode : ReadMode) (list? : Option (List Capability))
    (outcome : CounterId family → Bool) (requested : List (CounterId family))
    (d : Discovery family) : Discovery family :=
  if d.listed then d
  else
    match d.source spec list? with
    | some list => d.learn mode list
    | none => tryAll outcome { d with unlisted := d.unlisted || spec.usesCapabilities } requested

/-- Finding out goes by the list if there is one, and by tries otherwise. -/
theorem refreshed_eq (spec : GroupSpec) (mode : ReadMode) (list? : Option (List Capability))
    (outcome : CounterId family → Bool) (requested : List (CounterId family))
    (known : Discovery family) :
    known.refreshed spec mode list? outcome requested =
      (known.onRegistration spec).advanced spec mode list? outcome requested := by
  unfold refreshed advanced source
  generalize known.onRegistration spec = d
  obtain ⟨supported, tried, listed, unlisted⟩ := d
  cases listed with
  | true => rfl
  | false => cases spec.usesCapabilities <;> cases unlisted <;> cases list? <;> rfl

/-- A counter that is not supported yet is going to be: the list that will be had allows it, or it
will pass a try. -/
def Awaits (spec : GroupSpec) (mode : ReadMode) (list? : Option (List Capability))
    (outcome : CounterId family → Bool) (d : Discovery family) (id : CounterId family) : Prop :=
  match d.source spec list? with
  | some list => (list.any fun line => line.allows mode && line.counter == id.raw) = true
  | none => ¬ SortedSet.has d.tried id = true ∧ outcome id = true

/-- A counter is supported once it is asked for: it is so already, or no list was had and it is
going to be. -/
def Promises (spec : GroupSpec) (mode : ReadMode) (list? : Option (List Capability))
    (outcome : CounterId family → Bool) (d : Discovery family) (id : CounterId family) : Prop :=
  SortedSet.has d.supported id = true ∨
    ¬ d.listed = true ∧ d.Awaits spec mode list? outcome id

/-- A counter that was asked for is supported if that was promised. Others may be, but none that was
not promised, and none ceases to be. -/
theorem has_supported_advanced :
    (id ∈ requested → (SortedSet.has
        (d.advanced spec mode list? outcome requested).supported id = true ↔
      d.Promises spec mode list? outcome id)) ∧
    (SortedSet.has d.supported id = true →
      SortedSet.has (d.advanced spec mode list? outcome requested).supported id = true) ∧
    (SortedSet.has (d.advanced spec mode list? outcome requested).supported id = true →
      d.Promises spec mode list? outcome id) := by
  unfold Promises Awaits advanced
  by_cases hlisted : d.listed = true
  · rw [if_pos hlisted]
    tauto
  · rw [if_neg hlisted]
    cases d.source spec list? with
    | some list =>
      dsimp only
      rw [has_supported_learn]
      tauto
    | none =>
      dsimp only
      rw [has_supported_tryAll]
      tauto

/-- Asking for any counters leaves what is promised of each. -/
theorem promises_advanced :
    (d.advanced spec mode list? outcome requested).Promises spec mode list? outcome id ↔
      d.Promises spec mode list? outcome id := by
  unfold advanced
  by_cases hlisted : d.listed = true
  · rw [if_pos hlisted]
  · rw [if_neg hlisted]
    cases hsource : d.source spec list? with
    | some list =>
      have hlearnt : (d.learn mode list).listed = true := rfl
      dsimp only
      rw [Promises, has_supported_learn, Promises, Awaits, Awaits, hsource]
      tauto
    | none =>
      have hnone : (tryAll outcome { d with unlisted := d.unlisted || spec.usesCapabilities }
          requested).source spec list? = none := by
        rw [source, unlisted_tryAll]
        cases spec.usesCapabilities <;> simp
      dsimp only
      rw [Promises, Awaits, hnone, has_supported_tryAll, has_tried_tryAll, listed_tryAll, Promises,
        Awaits, hsource]
      tauto

/-- What is promised with a registration is promised with every later one. -/
theorem promises_refreshed :
    ((known.refreshed spec mode list? outcome requested).onRegistration spec).Promises spec mode
        list? outcome id ↔
      (known.onRegistration spec).Promises spec mode list? outcome id := by
  rw [refreshed_eq]
  by_cases hrediscovers : spec.rediscovers = true
  · generalize hafter : (known.onRegistration spec).advanced spec mode list? outcome requested =
      after
    have hkept : SortedSet.has (known.onRegistration spec).supported id = true →
        SortedSet.has after.supported id = true := by
      rw [← hafter]
      exact has_supported_advanced.2.1
    have hfound : SortedSet.has after.supported id = true →
        (known.onRegistration spec).Promises spec mode list? outcome id := by
      rw [← hafter]
      exact has_supported_advanced.2.2
    -- of what was found out only supported counters are left, if anything is
    by_cases hkeeps : spec.keepsSupported = true
    · simp only [onRegistration, if_pos hrediscovers, if_pos hkeeps] at hkept hfound ⊢
      constructor
      · rintro (hsupported | hawaits)
        · exact hfound hsupported
        · exact .inr hawaits
      · rintro (hsupported | hawaits)
        · exact .inl (hkept hsupported)
        · exact .inr hawaits
    · simp only [onRegistration, if_pos hrediscovers, if_neg hkeeps]
  · have hon : ∀ d : Discovery family, d.onRegistration spec = d := fun d => if_neg hrediscovers
    rw [hon, hon]
    exact promises_advanced

end Discovery

namespace StatsGroup

variable {g g' : StatsGroup family} {object : ObjectId} {mode : ReadMode} {names : List String}
  {id : CounterId family}

/-- The group is going to find a counter supported if a registration asks for it. -/
def Promises (g : StatsGroup family) (driver : Driver) (object : ObjectId) (mode : ReadMode)
    (id : CounterId family) : Prop :=
  (g.discovery.onRegistration g.settings.spec).Promises g.settings.spec mode
    (driver.capabilityList? family.kind object)
    (fun id => driver.passesProbe g.kind object mode id.raw) id

/-- The counters that a registration finds supported. -/
def chosen (g : StatsGroup family) (driver : Driver) (object : ObjectId) (mode : ReadMode)
    (names : List String) : List (CounterId family) :=
  (g.learnt driver object mode names).select (family.requested names)

theorem mem_chosen :
    id ∈ g.chosen driver object mode names ↔
      id ∈ family.requested names ∧ g.Promises driver object mode id := by
  unfold chosen learnt
  rw [Discovery.mem_select, Discovery.refreshed_eq]
  exact and_congr_right fun hid => Discovery.has_supported_advanced.1 hid

/-- A group that has found out about some counters promises what it promised before. -/
theorem promises_learnt (hsettings : g'.settings = g.settings)
    (hdiscovery : g'.discovery = g.learnt driver object mode names) :
    g'.Promises driver object mode id ↔ g.Promises driver object mode id := by
  unfold Promises kind
  rw [hsettings, hdiscovery]
  exact Discovery.promises_refreshed

/-- What is promised does not depend on the object if the driver tells the same of all. -/
theorem promises_congr (h : driver.SupportsAlike g.kind family.kind) (object object' : ObjectId) :
    g.Promises driver object mode id ↔ g.Promises driver object' mode id := by
  have hprobes : (fun id : CounterId family => driver.passesProbe g.kind object mode id.raw) =
      fun id => driver.passesProbe g.kind object' mode id.raw := by
    funext id
    exact h.probes object object' mode id.raw
  unfold Promises
  rw [h.lists object object', hprobes]

/-- Lists of names that ask for the same counters come to the same ones where the same is
promised. -/
theorem chosen_eq {names' : List String}
    (hpromises : ∀ id, g'.Promises driver object mode id ↔ g.Promises driver object mode id)
    (hnames : ∀ id, id ∈ family.requested names' ↔ id ∈ family.requested names) :
    g'.chosen driver object mode names' = g.chosen driver object mode names := by
  refine (CounterId.ascending_toList _).ext (CounterId.ascending_toList _) fun id => ?_
  change id ∈ g'.chosen driver object mode names' ↔ id ∈ g.chosen driver object mode names
  rw [mem_chosen, mem_chosen, hnames, hpromises]

end StatsGroup

end CounterPolling
