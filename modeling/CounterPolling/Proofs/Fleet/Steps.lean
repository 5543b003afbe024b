import CounterPolling.Proofs.Fleet.Moves
import CounterPolling.Proofs.Instance.Listing

/-!
# The steps of a call

A call under a name is a few steps, each under the lock of the fleet or of one poller. It looks the
poller up, or makes it, and keeps the handle; it carries out what it is for on the poller of the
handle; and if it only takes away, it gives up the name in case the poller there may end, and stops
that poller. Made without a pause the steps come to the call. Main statements:
`Fleet.proceed_eq_call`, and `Fleet.Standing.advance`, which says all that a step can do.
-/

namespace CounterPolling

/-- How far a call has come. -/
inductive CallStage
  /-- Nothing was done yet. -/
  | begun
  /-- The poller was looked up, and its handle is held. -/
  | holding (handle : Nat)
  /-- What the call is for was done, and the poller under the name may have to go. -/
  | leaving
  /-- The name was given up, and the poller is still to be stopped. -/
  | stopping (handle : Nat)
  /-- All was done. -/
  | finished
  deriving DecidableEq

namespace Fleet

variable {fleet : Fleet} {name : String} {handle : Nat} {p p' : Poller} {vid : ObjectId}
  {control : Control}

/-- Makes the next step of a call under a name. -/
def advance (fleet : Fleet) (name : String) (control : Control) :
    CallStage → Dialogue (Fleet × CallStage)
  | .begun => do
    if control.dismisses then
      match fleet.lookup name with
      | some handle => return (fleet, .holding handle)
      | none =>
        report name .unknownInstance
        return (fleet, .finished)
    else
      let (fleet, handle) ← fleet.lookupOrOpen name
      return (fleet, .holding handle)
  | .holding handle => do
    let fleet ← fleet.perform handle control
    return (fleet, if control.dismisses then .leaving else .finished)
  | .leaving =>
    match fleet.release name with
    | (fleet, some handle) => return (fleet, .stopping handle)
    | (fleet, none) => return (fleet, .finished)
  | .stopping handle => do
    report name .closed
    return (fleet.stop handle, .finished)
  | .finished => return (fleet, .finished)

/-- Makes a number of steps of a call without a pause. -/
def proceed (name : String) (control : Control) :
    Nat → Fleet × CallStage → Dialogue (Fleet × CallStage)
  | 0, place => return place
  | n + 1, place => do proceed name control n (← place.1.advance name control place.2)

/-- A call has at most four steps, and made without a pause they come to the call. -/
theorem proceed_eq_call (fleet : Fleet) (name : String) (control : Control) :
    proceed name control 4 (fleet, .begun) =
      (fun after => (after, .finished)) <$> fleet.call name control := by
  unfold call
  split
  · next hdismisses =>
    unfold Fleet.dismiss
    simp only [proceed, advance, hdismisses, if_true]
    cases fleet.lookup name with
    | none => rfl
    | some handle =>
      simp only [pure_bind, bind_assoc, map_bind]
      refine bind_congr fun performed => ?_
      unfold close
      obtain ⟨released, _ | stopped⟩ := performed.release name <;> rfl
  · next hserves =>
    unfold Fleet.serve
    simp only [proceed, advance, hserves, Bool.false_eq_true, if_false, bind_assoc, pure_bind,
      map_bind]
    refine bind_congr fun opened => ?_
    rw [map_eq_pure_bind]

section Tracks

/-- The instance under a name lists an object. -/
def Tracks (fleet : Fleet) (name : String) (vid : ObjectId) : Prop :=
  ∃ p, fleet.named? name = some p ∧ p.inst.Lists vid

instance (fleet : Fleet) (name : String) (vid : ObjectId) : Decidable (fleet.Tracks name vid) :=
  inferInstanceAs (Decidable (∃ p ∈ fleet.named? name, p.inst.Lists vid))

theorem not_tracks_of_free (h : fleet.lookup name = none) : ¬ fleet.Tracks name vid := by
  rintro ⟨p, hp, -⟩
  rw [named?_of_free h] at hp
  cases hp

theorem tracks_iff_of_lookup (hlookup : fleet.lookup name = some handle)
    (hp : fleet.poller? handle = some p) : fleet.Tracks name vid ↔ p.inst.Lists vid := by
  rw [Tracks, named?_of_lookup hlookup, hp]
  refine ⟨?_, fun hlists => ⟨p, rfl, hlists⟩⟩
  rintro ⟨_, ⟨⟩, hlists⟩
  exact hlists

/-- A poller that lists the object exactly if the one before did may be put in its place. -/
theorem tracks_set (hp : fleet.poller? handle = some p)
    (h : p'.inst.Lists vid ↔ p.inst.Lists vid) :
    (fleet.set handle p').Tracks name vid ↔ fleet.Tracks name vid := by
  have hvalid : handle < fleet.pollers.length := (List.getElem?_eq_some_iff.mp hp).1
  by_cases hlookup : fleet.lookup name = some handle
  · have hkept : (fleet.set handle p').lookup name = some handle := hlookup
    rw [tracks_iff_of_lookup hkept (poller?_set_self hvalid), tracks_iff_of_lookup hlookup hp, h]
  · rw [Tracks, named?_set_of_ne hlookup, Tracks]

/-- No poller is dropped or forgets what it lists when it is stopped. -/
theorem tracks_stop : (fleet.stop handle).Tracks name vid ↔ fleet.Tracks name vid := by
  unfold stop
  cases hp : fleet.poller? handle with
  | none => rfl
  | some p => exact tracks_set hp (by rw [p.inst_stop])

theorem lookup_stop : (fleet.stop handle).lookup name = fleet.lookup name := by
  unfold stop
  split <;> rfl

end Tracks

section Standing

/-- A name stands for a poller that is there, if for any, and groups are rightly filed. -/
structure Standing (fleet : Fleet) (name : String) : Prop where
  valid : ∀ handle, fleet.lookup name = some handle → handle < fleet.pollers.length
  filed : ∀ handle p, fleet.poller? handle = some p → p.inst.Every Group.Filed

theorem Orderly.standing (h : fleet.Orderly) (name : String) : fleet.Standing name :=
  ⟨h.valid name, h.filed⟩

theorem Standing.exists_poller (h : fleet.Standing name)
    (hlookup : fleet.lookup name = some handle) : ∃ p, fleet.poller? handle = some p :=
  ⟨_, List.getElem?_eq_getElem (h.valid handle hlookup)⟩

theorem Standing.set (h : fleet.Standing name) (hp : p.inst.Every Group.Filed) :
    (fleet.set handle p).Standing name where
  valid found hfound := by
    rw [Fleet.set, List.length_set]
    exact h.valid found hfound
  filed := forall_poller?_set h.filed hp handle

theorem Standing.opened (h : fleet.Standing name) : (fleet.opened name).Standing name where
  valid found hfound := by
    rw [lookup_opened_self] at hfound
    cases hfound
    rw [Fleet.opened, List.length_append]
    exact Nat.lt_succ_self _
  filed := filed_opened h.filed name

theorem Standing.stop (h : fleet.Standing name) (handle : Nat) :
    (fleet.stop handle).Standing name := by
  unfold Fleet.stop
  cases hp : fleet.poller? handle with
  | none => exact h
  | some p => exact h.set (by rw [p.inst_stop]; exact h.filed handle p hp)

/-- A fleet once the name was given up. -/
def forgotten (fleet : Fleet) (name : String) : Fleet :=
  { fleet with handles := fleet.handles.erase name }

theorem lookup_forgotten : (fleet.forgotten name).lookup name = none :=
  SortedMap.get?_erase_self _ _

theorem Standing.forgotten (h : fleet.Standing name) : (fleet.forgotten name).Standing name where
  valid handle hfound := by
    rw [lookup_forgotten] at hfound
    cases hfound
  filed := h.filed

end Standing

section Advance

/-- What carrying out a call may make of an instance, as far as one object is concerned. -/
structure MayMake (vid : ObjectId) (control : Control) (i i' : Instance) : Prop where
  filed : i'.Every Group.Filed
  lists_iff : control.Spares vid → vid ∉ control.vids → (i'.Lists vid ↔ i.Lists vid)

theorem mayMake_perform {i : Instance} (h : i.Every Group.Filed) (vid : ObjectId)
    (control : Control) : (control.perform i).Always (MayMake vid control i) := by
  have hfiled := h.perform Group.filed_invariant control trivial
  by_cases hconcerns : control.Spares vid ∧ vid ∉ control.vids
  · exact (hfiled.and (h.lists_perform hconcerns.1 hconcerns.2)).mono fun after hafter =>
      ⟨hafter.1, fun _ _ => hafter.2⟩
  · exact hfiled.mono fun after hafter =>
      ⟨hafter, fun hspares hfresh => absurd ⟨hspares, hfresh⟩ hconcerns⟩

/-- All that a step of a call can do. -/
inductive Advance (vid : ObjectId) (name : String) (control : Control) (fleet : Fleet) :
    CallStage → Fleet → CallStage → Prop
  | found {handle : Nat} : fleet.lookup name = some handle →
    Advance vid name control fleet .begun fleet (.holding handle)
  | opened : fleet.lookup name = none → control.dismisses = false →
    Advance vid name control fleet .begun (fleet.opened name) (.holding fleet.pollers.length)
  | unknown : fleet.lookup name = none → control.dismisses = true →
    Advance vid name control fleet .begun fleet .finished
  | performed {handle : Nat} {p p' : Poller} : fleet.poller? handle = some p →
    MayMake vid control p.inst p'.inst → Advance vid name control fleet (.holding handle)
      (fleet.set handle p') (if control.dismisses then .leaving else .finished)
  | missing {handle : Nat} : fleet.poller? handle = none →
    Advance vid name control fleet (.holding handle) fleet
      (if control.dismisses then .leaving else .finished)
  | kept : Advance vid name control fleet .leaving fleet .finished
  | released {handle : Nat} {p : Poller} : fleet.lookup name = some handle →
    fleet.poller? handle = some p → p.inst.mayEnd = true →
    Advance vid name control fleet .leaving (fleet.forgotten name) (.stopping handle)
  | stopped {handle : Nat} :
    Advance vid name control fleet (.stopping handle) (fleet.stop handle) .finished
  | finished : Advance vid name control fleet .finished fleet .finished

/-- In every branch a step does one of these things. -/
theorem Standing.advance (h : fleet.Standing name) (vid : ObjectId) (control : Control)
    (stage : CallStage) : (fleet.advance name control stage).Always fun place =>
      Advance vid name control fleet stage place.1 place.2 := by
  cases stage with
  | begun =>
    rw [Fleet.advance]
    cases hdismisses : control.dismisses with
    | true =>
      rw [if_pos rfl]
      cases hlookup : fleet.lookup name with
      | none => exact Dialogue.always_bind_of_forall fun _ => .unknown hlookup hdismisses
      | some handle => exact .found hlookup
    | false =>
      rw [if_neg Bool.false_ne_true]
      unfold lookupOrOpen
      cases hlookup : fleet.lookup name with
      | none =>
        rw [bind_assoc]
        exact Dialogue.always_bind_of_forall fun _ => .opened hlookup hdismisses
      | some handle => exact .found hlookup
  | holding handle =>
    rw [Fleet.advance]
    cases hp : fleet.poller? handle with
    | none =>
      rw [Fleet.perform, modify, hp]
      exact .missing hp
    | some p =>
      have hmade : (p.perform control).Always fun p' => MayMake vid control p.inst p'.inst :=
        (mayMake_perform (h.filed handle p hp) vid control).bind fun _ hafter => hafter
      refine (modify_always hp hmade).bind ?_
      rintro after ⟨p', hmade, rfl⟩
      exact .performed hp hmade
  | leaving =>
    rw [Fleet.advance, release]
    cases hlookup : fleet.lookup name with
    | none => exact .kept
    | some handle =>
      obtain ⟨p, hp⟩ := h.exists_poller hlookup
      dsimp only
      rw [hp, Option.map_some]
      cases hends : p.inst.mayEnd with
      | false => exact .kept
      | true => exact .released hlookup hp hends
  | stopping handle => exact Dialogue.always_bind_of_forall fun _ => .stopped
  | finished => exact .finished

variable {after : Fleet} {stage stage' : CallStage}

theorem Advance.standing (h : Advance vid name control fleet stage after stage')
    (hfleet : fleet.Standing name) : after.Standing name := by
  cases h with
  | opened => exact hfleet.opened
  | performed _ hmade => exact hfleet.set hmade.filed
  | released => exact hfleet.forgotten
  | stopped => exact hfleet.stop _
  | _ => exact hfleet

/-- No handle goes bad. -/
theorem Advance.length_le (h : Advance vid name control fleet stage after stage') :
    fleet.pollers.length ≤ after.pollers.length := by
  cases h with
  | opened =>
    rw [Fleet.opened, List.length_append]
    exact Nat.le_add_right _ _
  | performed => exact (List.length_set).ge
  | stopped => exact (length_pollers_stop _ _).ge
  | _ => exact Nat.le_refl _

/-- The first step of a call that may need a new poller ends with the handle that the name stands
for. -/
theorem Advance.of_begun (h : Advance vid name control fleet .begun after stage)
    (hkeeps : control.dismisses = false) :
    ∃ handle, stage = .holding handle ∧ after.lookup name = some handle := by
  cases h with
  | found hlookup => exact ⟨_, rfl, hlookup⟩
  | opened => exact ⟨_, rfl, lookup_opened_self fleet name⟩
  | unknown _ hdismisses =>
    rw [hkeeps] at hdismisses
    cases hdismisses

/-- What is carried out on the poller of a handle concerns a name only if it stands for that
poller. -/
theorem Advance.of_holding (h : Advance vid name control fleet (.holding handle) after stage) :
    stage = (if control.dismisses then .leaving else .finished) ∧
      after.lookup name = fleet.lookup name ∧
      (fleet.lookup name ≠ some handle → after.named? name = fleet.named? name) := by
  cases h with
  | performed => exact ⟨rfl, rfl, named?_set_of_ne⟩
  | missing => exact ⟨rfl, rfl, fun _ => rfl⟩

theorem Advance.of_finished (h : Advance vid name control fleet .finished after stage) :
    after = fleet ∧ stage = .finished := by
  cases h
  exact ⟨rfl, rfl⟩

/-- A name that stands for a poller goes on to do so, or is given up because the poller may end; a
name that is free comes to stand for a new poller only. -/
theorem Advance.lookup_cases (h : Advance vid name control fleet stage after stage') :
    after.lookup name = fleet.lookup name ∨
      (after.lookup name = none ∧ ∃ handle p, fleet.lookup name = some handle ∧
        fleet.poller? handle = some p ∧ p.inst.mayEnd = true ∧ stage = .leaving) ∨
      fleet.lookup name = none ∧ after.lookup name = some fleet.pollers.length := by
  cases h with
  | opened hfree => exact .inr (.inr ⟨hfree, lookup_opened_self fleet name⟩)
  | released hlookup hp hends =>
    exact .inr (.inl ⟨lookup_forgotten, _, _, hlookup, hp, hends, rfl⟩)
  | stopped => exact .inl lookup_stop
  | _ => exact .inl rfl

/-- Only what a registration of the object itself does can change whether it is tracked: the name of
a poller that lists it is not given up, and a new poller lists nothing. -/
theorem Advance.tracks_iff (h : Advance vid name control fleet stage after stage')
    (hspares : control.Spares vid) (hfresh : vid ∉ control.vids) :
    after.Tracks name vid ↔ fleet.Tracks name vid := by
  cases h with
  | opened hfree =>
    refine iff_of_false ?_ (not_tracks_of_free hfree)
    rw [tracks_iff_of_lookup (lookup_opened_self fleet name) (poller?_opened_self fleet name)]
    exact Instance.not_lists_initial name fleet.profile
  | performed hp hmade => exact tracks_set hp (hmade.lists_iff hspares hfresh)
  | released hlookup hp hends =>
    refine iff_of_false (not_tracks_of_free lookup_forgotten) ?_
    rw [tracks_iff_of_lookup hlookup hp]
    intro hlists
    rw [hlists.mayEnd_eq_false] at hends
    cases hends
  | stopped => exact tracks_stop
  | _ => rfl

end Advance

end Fleet

end CounterPolling
