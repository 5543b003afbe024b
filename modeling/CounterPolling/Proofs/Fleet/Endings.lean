import CounterPolling.Proofs.Fleet.Moves
import CounterPolling.Proofs.Instance.Emptiness

/-!
# Instances that may end and still have a name

A removal gives up the name of an instance that may end, and nothing else does. So a fleet keeps no
such instance unless another call lets one come about, and only one can: a registration under the
name of a retired instance, if all that it tracks are interfaces that the call registers anew. Main
statement: `Fleet.lively_unless_registration_strands`.
-/

namespace CounterPolling

/-- The objects that a move registers, and under which name. -/
def FleetMove.registration? : FleetMove → Option (String × Control)
  | .add name vid rid fields => some (name, .add vid rid fields)
  | .addMany name kind vids rids fields => some (name, .addMany kind vids rids fields)
  | _ => none

/-- A registration strands an instance: it was not empty before, and may end after. -/
def FleetStep.Strands (step : FleetStep) (name : String) (control : Control) : Prop :=
  step.move.registration? = some (name, control) ∧
    ∃ p p', step.before.named? name = some p ∧ step.after.named? name = some p' ∧
      p.inst.isEmpty = false ∧ p'.inst.mayEnd = true

/-- A retired instance without plugins that tracks no other objects than interfaces among these. -/
def Instance.HoldsOnly (objects : List ObjectId) (i : Instance) : Prop :=
  i.retired = true ∧ ∀ name g, i.groups.get? name = some g → g.runsPlugins = false ∧
    (g.tracksAny = true → ∃ meter, g = .meterBuckets meter ∧ ∀ vid ∈ meter.vids, vid ∈ objects)

theorem Instance.holdsOnly_of_not_anchored {i : Instance} {objects : List ObjectId}
    (hretired : i.retired = true) (h : ¬ i.Anchored objects) : i.HoldsOnly objects := by
  refine ⟨hretired, fun name g hg => ⟨?_, fun htracks => ?_⟩⟩
  · refine Bool.eq_false_iff.mpr fun hplugins => ?_
    exact h ⟨name, g, hg, .inr hplugins⟩
  · exact Group.exists_meterBuckets htracks fun hanchored => h ⟨name, g, hg, .inl hanchored⟩

theorem Instance.mayEnd_iff {i : Instance} :
    i.mayEnd = true ↔ i.retired = true ∧ i.isEmpty = true := by
  rw [mayEnd, Bool.and_eq_true]

namespace Fleet

variable {fleet : Fleet} {name : String}

/-- No instance that has a name may end. -/
def Lively (fleet : Fleet) : Prop :=
  ∀ name p, fleet.named? name = some p → p.inst.mayEnd = false

/-- What a move keeps: a fleet stays lively unless a registration strands an instance, and that
takes an instance which holds interfaces of the registration only. -/
structure Keeps (step : FleetStep) : Prop where
  lively : step.before.Lively → (∀ name control, ¬ step.Strands name control) → step.after.Lively
  stranded : ∀ name control, step.Strands name control →
    ∃ p, step.before.named? name = some p ∧ p.inst.HoldsOnly control.vids

section Step

variable {before after : Fleet} {move : FleetMove} {R : Instance → Instance → Prop}

theorem keeps_of_no_registration (hmove : move.registration? = none)
    (hlively : before.Lively → after.Lively) : Keeps ⟨before, move, after⟩ where
  lively hbefore _ := hlively hbefore
  stranded name control hstrands := by
    have hsome := hstrands.1
    rw [hmove] at hsome
    cases hsome

/-- A fleet stays lively if the call that was served makes no busy instance one that may end. -/
theorem Served.lively (hserved : Served R name before after) (hbefore : before.Lively)
    (hretired : ∀ i i', R i i' → i'.retired = i.retired)
    (hkept : ∀ p p', before.named? name = some p → after.named? name = some p' →
      R p.inst p'.inst → p.inst.isEmpty = false → p'.inst.mayEnd = false) : after.Lively := by
  intro other q hq
  by_cases hother : other = name
  · subst hother
    obtain ⟨p, p', hreaches, hp', hR⟩ := hserved.named
    obtain rfl : p' = q := Option.some.inj (hp'.symm.trans hq)
    -- only an instance that was retired before can end now, and a new one was not
    cases hwas : p.inst.retired with
    | false => rw [Instance.mayEnd, hretired _ _ hR, hwas, Bool.false_and]
    | true =>
      rcases hreaches with hp | ⟨-, rfl⟩
      · have hbusy : p.inst.isEmpty = false := by
          have halive := hbefore other p hp
          rwa [Instance.mayEnd, hwas, Bool.true_and] at halive
        exact hkept p p' hp hp' hR hbusy
      · cases hwas
  · exact hbefore other q ((hserved.others other hother).symm.trans hq)

/-- A registration that was served keeps what is to be kept. -/
theorem Served.keeps {control : Control} (hmove : move.registration? = some (name, control))
    (hserved : Served (fun i i' => i'.retired = i.retired ∧
      (i.Anchored control.vids → i'.Anchored control.vids)) name before after) :
    Keeps ⟨before, move, after⟩ where
  lively hbefore hno := by
    refine hserved.lively hbefore (fun _ _ hR => hR.1) fun p p' hp hp' _ hbusy => ?_
    refine Bool.eq_false_iff.mpr fun hends => ?_
    exact hno name control ⟨hmove, p, p', hp, hp', hbusy, hends⟩
  stranded other control' hstrands := by
    obtain ⟨hother, p, p', hp, hp', -, hends⟩ := hstrands
    obtain ⟨rfl, rfl⟩ := Prod.mk.inj (Option.some.inj (hmove.symm.trans hother))
    obtain ⟨hretired, hempty⟩ := Instance.mayEnd_iff.mp hends
    obtain ⟨q, q', hreaches, hq', hretired', hanchored⟩ := hserved.named
    obtain rfl : q' = p' := Option.some.inj (hq'.symm.trans hp')
    rcases hreaches with hq | ⟨hnone, -⟩
    · obtain rfl : q = p := Option.some.inj (hq.symm.trans hp)
      refine ⟨q, hp, Instance.holdsOnly_of_not_anchored (hretired' ▸ hretired) fun h => ?_⟩
      have hbusy := (hanchored h).isEmpty_eq_false
      rw [hempty] at hbusy
      cases hbusy
    · have hp : before.named? name = some p := hp
      rw [named?_of_free hnone] at hp
      cases hp

/-- Every move keeps what is to be kept, and the order of the fleet. -/
theorem Orderly.make (h : fleet.Orderly) (move : FleetMove) :
    (fleet.make move).Always fun after => after.Orderly ∧ Keeps ⟨fleet, move, after⟩ := by
  have hregistration : ∀ name control, move.registration? = some (name, control) →
      control.registers = true → fleet.make move = fleet.serve name control →
      (fleet.make move).Always fun after => after.Orderly ∧ Keeps ⟨fleet, move, after⟩ := by
    intro name control hmove hcontrol heq
    rw [heq]
    refine (h.serve (fun i _ => i.registration_keeps hcontrol) name).mono fun after hserved => ?_
    exact ⟨hserved.orderly, hserved.keeps hmove⟩
  have hremoval : ∀ name control, move.registration? = none →
      fleet.make move = fleet.dismiss name control →
      (fleet.make move).Always fun after => after.Orderly ∧ Keeps ⟨fleet, move, after⟩ := by
    intro name control hmove heq
    rw [heq]
    refine (h.dismiss name control).mono fun after hdismissed => ?_
    refine ⟨hdismissed.orderly, keeps_of_no_registration hmove fun hlively other p hp => ?_⟩
    by_cases hother : other = name
    · exact hdismissed.named p (hother ▸ hp)
    · exact hlively other p ((hdismissed.others other hother).symm.trans hp)
  cases move with
  | configure name fields =>
    refine (h.serve (fun i hi => i.configure_keeps hi fields) name).mono fun after hserved => ?_
    refine ⟨hserved.orderly, keeps_of_no_registration rfl fun hlively => ?_⟩
    refine hserved.lively hlively (fun _ _ hR => hR.1) fun p p' _ _ hR hbusy => ?_
    rw [Instance.mayEnd, hR.2 hbusy, Bool.and_false]
  | add name vid rid fields => exact hregistration name _ rfl rfl rfl
  | addMany name kind vids rids fields => exact hregistration name _ rfl rfl rfl
  | remove name vid => exact hremoval name _ rfl rfl
  | retire name => exact hremoval name _ rfl rfl
  | shutdown =>
    refine ⟨h.stopAll, keeps_of_no_registration rfl fun _ name p hp => ?_⟩
    rw [named?, lookup_stopAll] at hp
    cases hp
  | wake handle wakening =>
    refine (h.wake handle wakening).mono ?_
    rintro after ⟨horderly, hnamed⟩
    refine ⟨horderly, keeps_of_no_registration rfl fun hlively name p' hp' => ?_⟩
    obtain ⟨p, hp, hends⟩ := hnamed name p' hp'
    exact hends.trans (hlively name p hp)

end Step

section Course

variable {switch : Switch} {moves : List FleetMove} {past : List Event} {step : FleetStep}

/-- Each step of a course keeps what is to be kept. -/
theorem Orderly.keeps_of_mem_course (h : fleet.Orderly)
    (hstep : step ∈ course switch moves fleet past) :
    step.after.Orderly ∧ Keeps step := by
  induction moves generalizing fleet past with
  | nil => cases hstep
  | cons move rest ih =>
    have hmade := (h.make move).value switch past
    rcases List.mem_cons.mp hstep with rfl | hrest
    · exact hmade
    · exact ih hmade.1 hrest

/-- Without a stranding a fleet that is lively stays so. -/
theorem Orderly.lively_of_mem_course (h : fleet.Orderly) (hlively : fleet.Lively)
    (hno : ∀ step ∈ course switch moves fleet past, ∀ name control, ¬ step.Strands name control)
    (hstep : step ∈ course switch moves fleet past) : step.after.Lively := by
  -- over the moves; the order of the fleet goes along, since what a move keeps rests on it
  induction moves generalizing fleet past with
  | nil => cases hstep
  | cons move rest ih =>
    obtain ⟨horderly, hkeeps⟩ := (h.make move).value switch past
    have hafter := hkeeps.lively hlively (hno _ List.mem_cons_self)
    rcases List.mem_cons.mp hstep with rfl | hrest
    · exact hafter
    · exact ih horderly hafter (fun step hmem => hno step (List.mem_cons_of_mem _ hmem)) hrest

/-- A fleet is lively at all times exactly if no registration strands an instance. One that does
found there a retired instance with nothing but interfaces of the registration itself. A poller
that has left its name is stopped, whatever happened. -/
theorem lively_unless_registration_strands (profile : Profile) (switch : Switch)
    (moves : List FleetMove) (past : List Event) :
    let steps := course switch moves (initial profile) past
    ((∀ step ∈ steps, step.after.Lively) ↔
      ∀ step ∈ steps, ∀ name control, ¬ step.Strands name control) ∧
    (∀ step ∈ steps, ∀ name control, step.Strands name control →
      ∃ p, step.before.named? name = some p ∧ p.inst.HoldsOnly control.vids) ∧
    ∀ step ∈ steps, ∀ handle p, step.after.poller? handle = some p →
      step.after.Left handle → p.hasThread = false := by
  intro steps
  have horderly := orderly_initial profile
  have hlively : (initial profile).Lively := fun name p hp => by cases hp
  refine ⟨⟨fun hall step hstep name control hstrands => ?_, fun hno step hstep => ?_⟩, ?_, ?_⟩
  · obtain ⟨-, p, p', -, hp', -, hends⟩ := hstrands
    rw [hall step hstep name p' hp'] at hends
    cases hends
  · exact horderly.lively_of_mem_course hlively hno hstep
  · exact fun step hstep => (horderly.keeps_of_mem_course hstep).2.stranded
  · exact fun step hstep => (horderly.keeps_of_mem_course hstep).1.stopped

/-- A retired instance keeps its name, empty, once its only interface fails to be read anew. -/
theorem retired_instance_outlives_its_interface :
    ¬ ∀ (profile : Profile) (switch : Switch) (moves : List FleetMove) (past : List Event),
      ∀ step ∈ course switch moves (initial profile) past, step.after.Lively ∧
        ∀ handle p, step.after.poller? handle = some p → step.after.Left handle →
          p.hasThread = false := by
  intro h
  let switch : Switch := .unchanging (MeterGroup.twoBuckets (.bucket 0x21000000000000 0x102 1))
  let fields := [("DASH_METER_COUNTER_ID_LIST", "SAI_METER_BUCKET_ENTRY_STAT_OUTBOUND_BYTES")]
  let moves : List FleetMove := [.add "ENIS" 0xc8000000000001 0x101 fields, .retire "ENIS",
    .add "ENIS" 0xc8000000000001 0x102 fields]
  have hends : ∃ step ∈ course switch moves (initial .standard) [],
      (step.after.named? "ENIS").any (fun p => p.inst.mayEnd) = true := by decide +kernel
  obtain ⟨step, hstep, hends⟩ := hends
  obtain ⟨p, hp, hends⟩ := Option.any_eq_true _ _ |>.mp hends
  rw [(h .standard switch moves [] step hstep).1 "ENIS" p hp] at hends
  cases hends

end Course

end Fleet

end CounterPolling
