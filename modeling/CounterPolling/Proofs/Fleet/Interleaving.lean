import Mathlib.Tactic.ByContra
import CounterPolling.Proofs.Fleet.Isolation
import CounterPolling.Proofs.Fleet.Steps

/-!
# Calls that overlap

Several clients make calls under one name at the same time, and the steps of their calls may come in
any order, with threads of pollers going on in between. A registration has two steps: it looks the
poller up, and later registers the object with that poller. In between another client may find that
the poller may end and give the name up; the object is then registered with a poller that nobody
finds any more. Main statement: `Traffic.registration_lasts_unless_torn_down`, by which no other way
of overlapping loses a registration.
-/

namespace CounterPolling

/-- A call of a client, and how far it has come. -/
structure OpenCall where
  control : Control
  stage : CallStage
  deriving DecidableEq

/-- A fleet, and the calls that clients make under one name. -/
structure Traffic where
  fleet : Fleet
  calls : List OpenCall

/-- Who goes on. -/
inductive Turn
  /-- A client makes the next step of its call. -/
  | client (k : Nat)
  /-- The thread of a poller goes on. -/
  | thread (handle : Nat) (wakening : Wakening)
  deriving DecidableEq

/-- One turn of a run, with the traffic before and after it. -/
structure TrafficStep where
  before : Traffic
  turn : Turn
  after : Traffic

namespace Traffic

/-- Clients that are about to make their calls. -/
def start (fleet : Fleet) (controls : List Control) : Traffic :=
  ⟨fleet, controls.map fun control => ⟨control, .begun⟩⟩

/-- How far the call of a client has come. -/
def stage? (traffic : Traffic) (k : Nat) : Option CallStage :=
  (traffic.calls[k]?).map OpenCall.stage

/-- Lets one go on. -/
def take (name : String) (traffic : Traffic) : Turn → Dialogue Traffic
  | .client k =>
    match traffic.calls[k]? with
    | some call => do
      let (fleet, stage) ← traffic.fleet.advance name call.control call.stage
      return ⟨fleet, traffic.calls.set k ⟨call.control, stage⟩⟩
    | none => return traffic
  | .thread handle wakening => do
    return { traffic with fleet := ← traffic.fleet.modify handle (Poller.wake wakening) }

/-- The traffic after a number of turns. -/
def afterTurns (switch : Switch) (name : String) (turns : List Turn) (traffic : Traffic)
    (past : List Event) : Traffic :=
  ((Dialogue.carry (take name) traffic turns).run switch past).value

/-- The steps of a number of turns. -/
def course (switch : Switch) (name : String) : List Turn → Traffic → List Event → List TrafficStep
  | [], _, _ => []
  | turn :: rest, traffic, past =>
    let outcome := (traffic.take name turn).run switch past
    ⟨traffic, turn, outcome.value⟩ ::
      course switch name rest outcome.value (past ++ outcome.events)

end Traffic

namespace TrafficStep

/-- When a client carries out what its call is for, the poller that it looked up lists an object
afterwards. -/
def Tracked (k : Nat) (vid : ObjectId) (step : TrafficStep) : Prop :=
  step.turn = .client k →
    match step.before.stage? k with
    | some (.holding handle) => ∃ p ∈ step.after.fleet.poller? handle, p.inst.Lists vid
    | _ => True

/-- The name is given up between the two steps of a registration: it stood for the poller that was
looked up, and does not any more. -/
def TearsDown (name : String) (k : Nat) (step : TrafficStep) : Prop :=
  ∃ handle ∈ step.before.fleet.lookup name, step.before.stage? k = some (.holding handle) ∧
    step.after.fleet.lookup name ≠ some handle

/-- A registration of the object by another client drops it. -/
def Drops (name : String) (vid : ObjectId) (k : Nat) (step : TrafficStep) : Prop :=
  ∃ j call, j ≠ k ∧ step.turn = .client j ∧ step.before.calls[j]? = some call ∧
    vid ∈ call.control.vids ∧ step.before.fleet.Tracks name vid ∧
    ¬ step.after.fleet.Tracks name vid

/-- Another client goes on while one holds the handle of a poller. -/
def Interrupts (k : Nat) (step : TrafficStep) : Prop :=
  match step.before.stage? k, step.turn with
  | some (.holding _), .client j => j ≠ k
  | _, _ => False

instance (k : Nat) (vid : ObjectId) (step : TrafficStep) : Decidable (step.Tracked k vid) := by
  unfold Tracked
  split <;> infer_instance

instance (name : String) (k : Nat) (step : TrafficStep) : Decidable (step.TearsDown name k) := by
  unfold TearsDown
  infer_instance

instance (k : Nat) (step : TrafficStep) : Decidable (step.Interrupts k) := by
  unfold Interrupts
  split <;> infer_instance

end TrafficStep

namespace Traffic

variable {switch : Switch} {name : String} {vid : ObjectId} {k : Nat} {traffic after : Traffic}
  {turn : Turn} {turns : List Turn} {past : List Event} {controls : List Control}
  {control : Control}

section Turned

/-- All that a turn can do. -/
inductive Turned (vid : ObjectId) (name : String) (traffic : Traffic) : Turn → Traffic → Prop
  | client {k : Nat} {call : OpenCall} {fleet : Fleet} {stage : CallStage} :
    traffic.calls[k]? = some call →
    Fleet.Advance vid name call.control traffic.fleet call.stage fleet stage →
    Turned vid name traffic (.client k) ⟨fleet, traffic.calls.set k ⟨call.control, stage⟩⟩
  | nobody {k : Nat} : traffic.calls[k]? = none → Turned vid name traffic (.client k) traffic
  | thread {handle : Nat} {wakening : Wakening} {p p' : Poller} :
    traffic.fleet.poller? handle = some p → p'.inst.groups = p.inst.groups →
    Turned vid name traffic (.thread handle wakening)
      { traffic with fleet := traffic.fleet.set handle p' }
  | asleep {handle : Nat} {wakening : Wakening} : traffic.fleet.poller? handle = none →
    Turned vid name traffic (.thread handle wakening) traffic

/-- In every branch a turn does one of these things. -/
theorem turned_take (h : traffic.fleet.Standing name) (vid : ObjectId) (turn : Turn) :
    (traffic.take name turn).Always (Turned vid name traffic turn) := by
  cases turn with
  | client k =>
    rw [take]
    cases hcall : traffic.calls[k]? with
    | none => exact .nobody hcall
    | some call =>
      exact (h.advance vid call.control call.stage).bind fun place hplace => .client hcall hplace
  | thread handle wakening =>
    rw [take]
    cases hp : traffic.fleet.poller? handle with
    | none =>
      rw [Fleet.modify, hp]
      exact .asleep hp
    | some p =>
      refine (Fleet.modify_always hp (p.wake_always wakening)).bind ?_
      rintro fleet ⟨p', ⟨-, hgroups, -⟩, rfl⟩
      exact .thread hp hgroups

theorem Turned.standing (h : Turned vid name traffic turn after)
    (htraffic : traffic.fleet.Standing name) : after.fleet.Standing name := by
  cases h with
  | client _ hadvance => exact hadvance.standing htraffic
  | thread hp hgroups =>
    refine htraffic.set fun group g hg => ?_
    rw [hgroups] at hg
    exact htraffic.filed _ _ hp group g hg
  | _ => exact htraffic

/-- No handle goes bad. -/
theorem Turned.length_le (h : Turned vid name traffic turn after) :
    traffic.fleet.pollers.length ≤ after.fleet.pollers.length := by
  cases h with
  | client _ hadvance => exact hadvance.length_le
  | thread => exact (List.length_set).ge
  | _ => exact Nat.le_refl _

/-- Clients go on with the calls that they began. -/
theorem Turned.controls_eq (h : Turned vid name traffic turn after) :
    after.calls.map OpenCall.control = traffic.calls.map OpenCall.control := by
  cases h with
  | @client k call fleet stage hcall _ =>
    refine List.ext_getElem? fun j => ?_
    rw [List.getElem?_map, List.getElem?_map]
    by_cases hj : k = j
    · subst hj
      rw [List.getElem?_set_self (List.getElem?_eq_some_iff.mp hcall).1, hcall]
      rfl
    · rw [List.getElem?_set_ne hj]
  | _ => rfl

/-- Only a client itself goes on with its call. -/
theorem Turned.stage?_of_ne (h : Turned vid name traffic turn after) (hturn : turn ≠ .client k) :
    after.stage? k = traffic.stage? k := by
  cases h with
  | @client j call fleet stage hcall _ =>
    have hne : j ≠ k := fun heq => hturn (congrArg Turn.client heq)
    rw [stage?, List.getElem?_set_ne hne, stage?]
  | _ => rfl

/-- A client that goes on makes the next step of its call. -/
theorem Turned.exists_advance (h : Turned vid name traffic (.client k) after)
    {stage : CallStage} (hstage : traffic.stage? k = some stage) : ∃ call stage',
      traffic.calls[k]? = some call ∧ call.stage = stage ∧ after.stage? k = some stage' ∧
        Fleet.Advance vid name call.control traffic.fleet stage after.fleet stage' := by
  obtain ⟨call, hcall, rfl⟩ := Option.map_eq_some_iff.mp hstage
  cases h with
  | nobody hnone =>
    rw [hcall] at hnone
    cases hnone
  | @client _ call' fleet stage' hcall' hadvance =>
    obtain rfl : call' = call := Option.some.inj (hcall'.symm.trans hcall)
    refine ⟨call', stage', hcall, rfl, ?_, hadvance⟩
    rw [stage?, List.getElem?_set_self (List.getElem?_eq_some_iff.mp hcall).1]
    rfl

/-- What a name stands for changes in two ways only: a client that is leaving gives it up because
the poller may end, or a free name comes to stand for a new poller. -/
theorem Turned.lookup_cases (h : Turned vid name traffic turn after) :
    after.fleet.lookup name = traffic.fleet.lookup name ∨
      (after.fleet.lookup name = none ∧ ∃ j handle p, turn = .client j ∧
        traffic.stage? j = some .leaving ∧ traffic.fleet.lookup name = some handle ∧
        traffic.fleet.poller? handle = some p ∧ p.inst.mayEnd = true) ∨
      traffic.fleet.lookup name = none ∧
        after.fleet.lookup name = some traffic.fleet.pollers.length := by
  cases h with
  | @client j call fleet stage hcall hadvance =>
    rcases hadvance.lookup_cases with
      hsame | ⟨hnone, handle, p, hlookup, hp, hends, hleaving⟩ | hnew
    · exact .inl hsame
    · refine .inr (.inl ⟨hnone, j, handle, p, rfl, ?_, hlookup, hp, hends⟩)
      rw [stage?, hcall, Option.map_some, hleaving]
    · exact .inr (.inr hnew)
  | _ => exact .inl rfl

/-- Only a client that registers the object itself can change whether it is tracked. -/
theorem Turned.tracks_iff (h : Turned vid name traffic turn after)
    (hspares : ∀ call ∈ traffic.calls, call.control.Spares vid)
    (hfresh : ∀ j call, turn = .client j → traffic.calls[j]? = some call →
      vid ∉ call.control.vids) :
    after.fleet.Tracks name vid ↔ traffic.fleet.Tracks name vid := by
  cases h with
  | @client j call fleet stage hcall hadvance =>
    exact hadvance.tracks_iff (hspares call (List.mem_of_getElem? hcall)) (hfresh j call rfl hcall)
  | thread hp hgroups => exact Fleet.tracks_set hp (Instance.lists_congr hgroups)
  | _ => rfl

end Turned

section Serves

/-- The name stands for a poller, if for any, and clients make certain calls. -/
structure Serves (traffic : Traffic) (name : String) (controls : List Control) : Prop where
  standing : traffic.fleet.Standing name
  controls_eq : traffic.calls.map OpenCall.control = controls

theorem serves_start {fleet : Fleet} (h : fleet.Standing name) (controls : List Control) :
    (start fleet controls).Serves name controls := by
  refine ⟨h, ?_⟩
  rw [start, List.map_map]
  exact List.map_id _

theorem Serves.turned (h : traffic.Serves name controls)
    (hturned : Turned vid name traffic turn after) : after.Serves name controls :=
  ⟨hturned.standing h.standing, hturned.controls_eq.trans h.controls_eq⟩

theorem Serves.getElem? (h : traffic.Serves name controls) {call : OpenCall}
    (hcall : traffic.calls[k]? = some call) : controls[k]? = some call.control := by
  rw [← h.controls_eq, List.getElem?_map, hcall, Option.map_some]

/-- One client makes a call that may need a new poller, and none takes an object away. -/
structure Sparing (vid : ObjectId) (k : Nat) (controls : List Control) : Prop where
  dismisses_eq : ∀ control, controls[k]? = some control → control.dismisses = false
  spares : ∀ control ∈ controls, control.Spares vid

theorem Sparing.dismisses_call (h : Sparing vid k controls) (hserves : traffic.Serves name controls)
    {call : OpenCall} (hcall : traffic.calls[k]? = some call) : call.control.dismisses = false :=
  h.dismisses_eq _ (hserves.getElem? hcall)

theorem Sparing.spares_calls (h : Sparing vid k controls) (hserves : traffic.Serves name controls) :
    ∀ call ∈ traffic.calls, call.control.Spares vid := by
  intro call hcall
  refine h.spares _ ?_
  rw [← hserves.controls_eq]
  exact List.mem_map_of_mem hcall

/-- Each step of a run is a turn of clients that make these calls. -/
theorem Serves.mem_course (h : traffic.Serves name controls) (vid : ObjectId) {step : TrafficStep}
    (hstep : step ∈ course switch name turns traffic past) :
    step.before.Serves name controls ∧ Turned vid name step.before step.turn step.after := by
  induction turns generalizing traffic past with
  | nil => cases hstep
  | cons turn rest ih =>
    have hturned := (turned_take h.standing vid turn).value switch past
    rcases List.mem_cons.mp hstep with rfl | hrest
    · exact ⟨h, hturned⟩
    · exact ih (h.turned hturned) hrest

theorem afterTurns_cons (switch : Switch) (name : String) (turn : Turn) (turns : List Turn)
    (traffic : Traffic) (past : List Event) :
    afterTurns switch name (turn :: turns) traffic past =
      afterTurns switch name turns ((traffic.take name turn).run switch past).value
        (past ++ ((traffic.take name turn).run switch past).events) :=
  Dialogue.value_run_bind switch (traffic.take name turn) _ past

/-- What every step of a run keeps holds after the run. -/
theorem afterTurns_induct {I : Traffic → Prop}
    (hstep : ∀ step ∈ course switch name turns traffic past, I step.before → I step.after)
    (h : I traffic) : I (afterTurns switch name turns traffic past) := by
  induction turns generalizing traffic past with
  | nil => exact h
  | cons turn rest ih =>
    obtain ⟨hfirst, hrest⟩ := List.forall_mem_cons.mp hstep
    rw [afterTurns_cons]
    exact ih hrest (hfirst h)

end Serves

section Safe

/-- Nothing is lost yet: a client that holds a handle finds the poller under the name, and once its
call is finished the object is tracked there. -/
inductive Safe (name : String) (vid : ObjectId) (k : Nat) (traffic : Traffic) : Prop
  | begun : traffic.stage? k = some .begun → Safe name vid k traffic
  | holding {handle : Nat} : traffic.stage? k = some (.holding handle) →
    traffic.fleet.lookup name = some handle → Safe name vid k traffic
  | finished : traffic.stage? k = some .finished → traffic.fleet.Tracks name vid →
    Safe name vid k traffic

/-- A registration that makes its next step stays safe. -/
theorem Safe.goOn (h : traffic.Safe name vid k) (hclients : Sparing vid k controls)
    (hserves : traffic.Serves name controls) (hturned : Turned vid name traffic (.client k) after)
    (htracked : (TrafficStep.mk traffic (.client k) after).Tracked k vid) :
    after.Safe name vid k := by
  cases h with
  | begun hstage =>
    obtain ⟨call, stage, hcall, -, hstage', hadvance⟩ := hturned.exists_advance hstage
    obtain ⟨handle, rfl, hlookup⟩ :=
      hadvance.of_begun (hclients.dismisses_call hserves hcall)
    exact .holding hstage' hlookup
  | @holding handle hstage hlookup =>
    obtain ⟨call, stage, hcall, -, hstage', hadvance⟩ := hturned.exists_advance hstage
    obtain ⟨rfl, hkept, -⟩ := hadvance.of_holding
    rw [hclients.dismisses_call hserves hcall] at hstage'
    have hlists := htracked rfl
    simp only [hstage] at hlists
    obtain ⟨p, hp, hlists⟩ := hlists
    exact .finished hstage' ((Fleet.tracks_iff_of_lookup (hkept.trans hlookup) hp).mpr hlists)
  | finished hstage htracks =>
    obtain ⟨call, stage, hcall, -, hstage', hadvance⟩ := hturned.exists_advance hstage
    obtain ⟨hfleet, rfl⟩ := hadvance.of_finished
    exact .finished hstage' (hfleet ▸ htracks)

/-- A registration stays safe in a turn that neither tears it down nor drops its object. -/
theorem Safe.turned (h : traffic.Safe name vid k) (hclients : Sparing vid k controls)
    (hserves : traffic.Serves name controls) (hturned : Turned vid name traffic turn after)
    (htracked : (TrafficStep.mk traffic turn after).Tracked k vid)
    (hstays : ¬ (TrafficStep.mk traffic turn after).TearsDown name k)
    (hkept : ¬ (TrafficStep.mk traffic turn after).Drops name vid k) : after.Safe name vid k := by
  by_cases hturn : turn = .client k
  · subst hturn
    exact h.goOn hclients hserves hturned htracked
  · have hsame := hturned.stage?_of_ne hturn
    cases h with
    | begun hstage => exact .begun (hsame.trans hstage)
    | @holding handle hstage hlookup =>
      refine .holding (hsame.trans hstage) ?_
      by_contra hgone
      exact hstays ⟨handle, hlookup, hstage, hgone⟩
    | finished hstage htracks =>
      refine .finished (hsame.trans hstage) ?_
      by_contra hlost
      refine hlost ((hturned.tracks_iff (hclients.spares_calls hserves) ?_).mpr htracks)
      rintro j call rfl hcall hvid
      have hother : j ≠ k := fun heq => hturn (congrArg Turn.client heq)
      exact hkept ⟨j, call, hother, rfl, hcall, hvid, htracks, hlost⟩

end Safe

section Lost

/-- A registration is lost: a client holds the handle of a poller that no name will stand for any
more, or is finished, and the object is not tracked. -/
inductive Lost (name : String) (vid : ObjectId) (k : Nat) (traffic : Traffic) : Prop
  | holding {handle : Nat} : traffic.stage? k = some (.holding handle) →
    handle < traffic.fleet.pollers.length → traffic.fleet.lookup name ≠ some handle →
    ¬ traffic.fleet.Tracks name vid → Lost name vid k traffic
  | finished : traffic.stage? k = some .finished → ¬ traffic.fleet.Tracks name vid →
    Lost name vid k traffic

/-- No other client than one registers an object. -/
def Alone (vid : ObjectId) (k : Nat) (controls : List Control) : Prop :=
  ∀ control ∈ controls.eraseIdx k, vid ∉ control.vids

instance (vid : ObjectId) (k : Nat) (controls : List Control) :
    Decidable (Alone vid k controls) :=
  inferInstanceAs (Decidable (∀ control ∈ controls.eraseIdx k, vid ∉ control.vids))

theorem Alone.fresh (h : Alone vid k controls) {j : Nat} (hother : j ≠ k)
    (hcontrol : controls[j]? = some control) : vid ∉ control.vids :=
  h control (List.mem_eraseIdx_iff_getElem?.mpr ⟨j, hother, hcontrol⟩)

/-- What is lost stays lost, unless another client registers the object. -/
theorem Lost.turned (h : traffic.Lost name vid k) (hclients : Sparing vid k controls)
    (halone : Alone vid k controls) (hserves : traffic.Serves name controls)
    (hturned : Turned vid name traffic turn after) : after.Lost name vid k := by
  by_cases hturn : turn = .client k
  · subst hturn
    cases h with
    | holding hstage _ hgone hlost =>
      obtain ⟨call, stage, hcall, -, hstage', hadvance⟩ := hturned.exists_advance hstage
      obtain ⟨rfl, -, hnamed⟩ := hadvance.of_holding
      rw [hclients.dismisses_call hserves hcall] at hstage'
      refine .finished hstage' ?_
      rwa [Fleet.Tracks, hnamed hgone]
    | finished hstage hlost =>
      obtain ⟨call, stage, hcall, -, hstage', hadvance⟩ := hturned.exists_advance hstage
      obtain ⟨hfleet, rfl⟩ := hadvance.of_finished
      exact .finished hstage' (hfleet ▸ hlost)
  · have hsame := hturned.stage?_of_ne hturn
    have htracks : after.fleet.Tracks name vid ↔ traffic.fleet.Tracks name vid := by
      refine hturned.tracks_iff (hclients.spares_calls hserves) ?_
      rintro j call rfl hcall
      have hother : j ≠ k := fun heq => hturn (congrArg Turn.client heq)
      exact halone.fresh hother (hserves.getElem? hcall)
    cases h with
    | @holding handle hstage hvalid hgone hlost =>
      refine .holding (hsame.trans hstage) (hvalid.trans_le hturned.length_le) ?_
        (htracks.not.mpr hlost)
      -- a name that comes to stand for a poller again stands for a new one
      rcases hturned.lookup_cases with hkept | ⟨hnone, -⟩ | ⟨-, hnew⟩
      · rwa [hkept]
      · rw [hnone]
        exact (Option.some_ne_none handle).symm
      · rw [hnew, ne_eq, Option.some_inj]
        omega
    | finished hstage hlost => exact .finished (hsame.trans hstage) (htracks.not.mpr hlost)

/-- Who tears a registration down is another client that is leaving, and finds that the poller may
end. -/
theorem Turned.of_tearsDown (hturned : Turned vid name traffic turn after)
    (h : (TrafficStep.mk traffic turn after).TearsDown name k) :
    after.fleet.lookup name = none ∧ ∃ j p, j ≠ k ∧ turn = .client j ∧
      traffic.stage? j = some .leaving ∧ traffic.fleet.named? name = some p ∧
      p.inst.mayEnd = true := by
  obtain ⟨handle, hlookup, hstage, hgone⟩ := h
  have hlookup : traffic.fleet.lookup name = some handle := hlookup
  rcases hturned.lookup_cases with
    hsame | ⟨hnone, j, found, p, rfl, hleaving, hfound, hp, hends⟩ | hnew
  · exact absurd (hsame.trans hlookup) hgone
  · refine ⟨hnone, j, p, ?_, rfl, hleaving, ?_, hends⟩
    · rintro rfl
      rw [show traffic.stage? j = some (.holding handle) from hstage] at hleaving
      cases hleaving
    · rw [Fleet.named?_of_lookup hfound]
      exact hp
  · rw [hnew.1] at hlookup
    cases hlookup

/-- Once it is torn down, a registration is lost. -/
theorem Serves.lost_of_tearsDown (hserves : traffic.Serves name controls)
    (hturned : Turned vid name traffic turn after)
    (h : (TrafficStep.mk traffic turn after).TearsDown name k) : after.Lost name vid k := by
  obtain ⟨hnone, j, p, hother, rfl, -⟩ := hturned.of_tearsDown h
  obtain ⟨handle, hlookup, hstage, hgone⟩ := h
  have hne : Turn.client j ≠ .client k := fun heq => hother (Turn.client.inj heq)
  refine .holding ((hturned.stage?_of_ne hne).trans hstage) ?_ hgone
    (Fleet.not_tracks_of_free hnone)
  exact (hserves.standing.valid handle hlookup).trans_le hturned.length_le

/-- A registration that is torn down during a run is lost after it. -/
theorem Serves.lost_afterTurns (hserves : traffic.Serves name controls)
    (hclients : Sparing vid k controls) (halone : Alone vid k controls) {step : TrafficStep}
    (hstep : step ∈ course switch name turns traffic past)
    (h : step.TearsDown name k) : (afterTurns switch name turns traffic past).Lost name vid k := by
  induction turns generalizing traffic past with
  | nil => cases hstep
  | cons turn rest ih =>
    have hturned := (turned_take hserves.standing vid turn).value switch past
    have hafter := hserves.turned hturned
    rw [afterTurns_cons]
    rcases List.mem_cons.mp hstep with rfl | hrest
    · refine afterTurns_induct (fun later hlater hlost => ?_) (hserves.lost_of_tearsDown hturned h)
      obtain ⟨hbefore, hlaterTurned⟩ := hafter.mem_course vid hlater
      exact hlost.turned hclients halone hbefore hlaterTurned
    · exact ih hafter hrest

end Lost

section Runs

/-- Clients make calls under one name at the same time, and one of them registers an object, which
its poller lists then. The others configure, register, retire and remove, but do not remove the
object. Once the call of the client is finished, whatever else goes on, the object is tracked under
the name unless the registration was torn down or another client that registers the object again
dropped it. If no other client registers the object, it is tracked exactly if the registration was
not torn down, and so it is if no other client interrupted it, as in any sequential order of the
calls. Who tears it down is always another client that is leaving and finds an instance that may
end. -/
theorem registration_lasts_unless_torn_down (profile : Profile) (switch : Switch)
    (moves : List FleetMove) (past past' : List Event) (name : String) (controls : List Control)
    (turns : List Turn) (k : Nat) (vid : ObjectId) (hcontrol : controls[k]? = some control)
    (hvid : vid ∈ control.vids) (hspares : ∀ control ∈ controls, control.Spares vid) :
    let fleet := Fleet.afterMoves switch moves (.initial profile) past
    let steps := course switch name turns (start fleet controls) past'
    let after := afterTurns switch name turns (start fleet controls) past'
    after.stage? k = some .finished → (∀ step ∈ steps, step.Tracked k vid) →
    (¬ after.fleet.Tracks name vid → (∃ step ∈ steps, step.TearsDown name k) ∨
      ∃ step ∈ steps, step.Drops name vid k) ∧
    (Alone vid k controls →
      (after.fleet.Tracks name vid ↔ ∀ step ∈ steps, ¬ step.TearsDown name k) ∧
      ((∀ step ∈ steps, ¬ step.Interrupts k) → after.fleet.Tracks name vid)) ∧
    ∀ step ∈ steps, step.TearsDown name k → ∃ j p, j ≠ k ∧ step.turn = .client j ∧
      step.before.stage? j = some .leaving ∧ step.before.fleet.named? name = some p ∧
      p.inst.mayEnd = true := by
  intro fleet steps after hfinished htracked
  have hserves : (start fleet controls).Serves name controls :=
    serves_start (((Fleet.orderly_initial profile).afterMoves switch moves past).standing name) _
  have hclients : Sparing vid k controls := by
    refine ⟨fun found hfound => ?_, hspares⟩
    obtain rfl : found = control := Option.some.inj (hfound.symm.trans hcontrol)
    cases found with
    | remove => cases hvid
    | retire => cases hvid
    | _ => rfl
  have hbegun : (start fleet controls).stage? k = some .begun := by
    rw [stage?, start, List.getElem?_map, hcontrol]
    rfl
  have hsafe : (∀ step ∈ steps, ¬ step.TearsDown name k) →
      (∀ step ∈ steps, ¬ step.Drops name vid k) → after.fleet.Tracks name vid := by
    intro hstays hkept
    have hend : after.Safe name vid k := by
      refine afterTurns_induct (fun step hstep h => ?_) (.begun hbegun)
      obtain ⟨hbefore, hturned⟩ := hserves.mem_course vid hstep
      exact h.turned hclients hbefore hturned (htracked step hstep) (hstays step hstep)
        (hkept step hstep)
    cases hend with
    | begun hstage =>
      rw [hfinished] at hstage
      cases hstage
    | holding hstage =>
      rw [hfinished] at hstage
      cases hstage
    | finished _ htracks => exact htracks
  have htorn : ∀ step ∈ steps, step.TearsDown name k → ∃ j p, j ≠ k ∧ step.turn = .client j ∧
      step.before.stage? j = some .leaving ∧ step.before.fleet.named? name = some p ∧
      p.inst.mayEnd = true :=
    fun step hstep h => ((hserves.mem_course vid hstep).2.of_tearsDown h).2
  refine ⟨fun hlost => ?_, fun halone => ?_, htorn⟩
  · by_contra hneither
    simp only [not_or, not_exists, not_and] at hneither
    exact hlost (hsafe hneither.1 hneither.2)
  · have hkept : ∀ step ∈ steps, ¬ step.Drops name vid k := by
      rintro step hstep ⟨j, call, hother, -, hcall, hnamed, -⟩
      exact halone.fresh hother ((hserves.mem_course vid hstep).1.getElem? hcall) hnamed
    refine ⟨⟨fun htracks step hstep h => ?_, fun hstays => hsafe hstays hkept⟩,
      fun hundisturbed => ?_⟩
    · cases hserves.lost_afterTurns hclients halone hstep h with
      | holding hstage =>
        rw [hfinished] at hstage
        cases hstage
      | finished _ hlost => exact hlost htracks
    · refine hsafe (fun step hstep h => ?_) hkept
      obtain ⟨j, -, hother, hturn, -⟩ := htorn step hstep h
      obtain ⟨handle, -, hstage, -⟩ := h
      refine hundisturbed step hstep ?_
      simp only [TrafficStep.Interrupts, hstage, hturn]
      exact hother

/-- A port is registered while another client retires the instance and a third one removes another
port; when they look whether the instance may end, the port is there. -/
theorem registration_lasts_unless_torn_down_three_clients :
    let fields := [("PORT_COUNTER_ID_LIST", "SAI_PORT_STAT_IF_IN_OCTETS")]
    let port : ObjectId := .virtual .port 1
    let other : ObjectId := .virtual .port 2
    let switch : Switch := .unchanging (StatsGroup.rowFails (.object 0x103))
    let controls : List Control := [.add port 0x101 fields, .retire, .remove other]
    let turns : List Turn := [.client 0, .client 1, .client 1, .client 2, .client 0, .client 2,
      .client 1, .thread 0 .roused, .client 2]
    let begun := start (Fleet.afterMoves switch [] (.initial .standard) []) controls
    let steps := course switch "PORTS" turns begun []
    let after := afterTurns switch "PORTS" turns begun []
    after.stage? 0 = some .finished ∧ (∀ step ∈ steps, step.Tracked 0 port) ∧
      (∃ step ∈ steps, step.Interrupts 0) ∧ after.fleet.Tracks "PORTS" port := by
  intro fields port other switch controls turns begun steps after
  have hfinished : after.stage? 0 = some .finished := by decide +kernel
  have htracked : ∀ step ∈ steps, step.Tracked 0 port := by decide +kernel
  obtain ⟨-, halone, -⟩ := registration_lasts_unless_torn_down .standard switch [] [] [] "PORTS"
    controls turns 0 port rfl (by decide) (by decide) hfinished htracked
  obtain ⟨hiff, -⟩ := halone (by decide)
  exact ⟨hfinished, htracked, by decide +kernel, hiff.mpr (by decide +kernel)⟩

/-- A registration is lost to a client that retires the instance in between and finds it empty. In
a sequential order it is lost to a client that registers the same interface again when its buckets
cannot be read, and once the instance was retired it goes with the next removal. -/
theorem registration_lost_to_another_client :
    (¬ ∀ (switch : Switch) (name : String) (controls : List Control) (turns : List Turn) (k : Nat)
      (vid : ObjectId), (∀ control ∈ controls, control.Spares vid) → Alone vid k controls →
      let steps := course switch name turns (start (.initial .standard) controls) []
      let after := afterTurns switch name turns (start (.initial .standard) controls) []
      (∀ call ∈ after.calls, call.stage = .finished) → (∀ step ∈ steps, step.Tracked k vid) →
        after.fleet.Tracks name vid) ∧
    ¬ ∀ (switch : Switch) (name : String) (controls : List Control) (turns : List Turn) (k : Nat)
      (vid : ObjectId), (∀ control ∈ controls, control.Spares vid) →
      let steps := course switch name turns (start (.initial .standard) controls) []
      let after := afterTurns switch name turns (start (.initial .standard) controls) []
      (∀ step ∈ steps, ∀ j < controls.length, ¬ step.Interrupts j) →
      (∀ call ∈ after.calls, call.stage = .finished) → (∀ step ∈ steps, step.Tracked k vid) →
        after.fleet.Tracks name vid := by
  constructor
  · intro h
    let port : ObjectId := .virtual .port 1
    let switch : Switch := .unchanging (StatsGroup.rowFails (.object 0x103))
    let controls : List Control :=
      [.add port 0x101 [("PORT_COUNTER_ID_LIST", "SAI_PORT_STAT_IF_IN_OCTETS")], .retire]
    let turns : List Turn := [.client 0, .client 1, .client 1, .client 1, .client 1, .client 0]
    have hlasts := h switch "PORTS" controls turns 0 port (by decide) (by decide)
      (by decide +kernel) (by decide +kernel)
    revert hlasts
    decide +kernel
  · intro h
    let eni : ObjectId := 0xc8000000000001
    let switch : Switch := .unchanging (MeterGroup.twoBuckets (.bucket 0x21000000000000 0x102 1))
    let fields := [("DASH_METER_COUNTER_ID_LIST", "SAI_METER_BUCKET_ENTRY_STAT_OUTBOUND_BYTES")]
    let controls : List Control :=
      [.add eni 0x101 fields, .retire, .add eni 0x102 fields, .remove 0xc8000000000002]
    let turns : List Turn := [.client 0, .client 0, .client 1, .client 1, .client 1, .client 2,
      .client 2, .client 3, .client 3, .client 3, .client 3]
    have hlasts := h switch "ENIS" controls turns 0 eni (by decide) (by decide +kernel)
      (by decide +kernel) (by decide +kernel)
    revert hlasts
    decide +kernel

end Runs

end Traffic

end CounterPolling
