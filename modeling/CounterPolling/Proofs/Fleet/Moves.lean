import CounterPolling.Fleet.Basic
import CounterPolling.Proofs.Instance.Calls
import CounterPolling.Proofs.Instance.Configuration

/-!
# Moves of a fleet

A fleet goes on by calls, each of which concerns the poller under one name or all of them, and by
threads that go on. Names stand for pollers apart from each other, and a poller without a name is
stopped. Main statements: `Fleet.Orderly.serve`, `Fleet.Orderly.dismiss` and
`Fleet.Orderly.stopAll`.
-/

namespace CounterPolling

/-- Something that happens to a fleet: a call, or the thread of a poller that goes on. -/
inductive FleetMove
  | configure (name : String) (fields : List (String × String))
  | add (name : String) (vid rid : ObjectId) (fields : List (String × String))
  | addMany (name : String) (kind : ObjectKind) (vids rids : List ObjectId)
    (fields : List (String × String))
  | remove (name : String) (vid : ObjectId)
  | retire (name : String)
  | shutdown
  | wake (handle : Nat) (wakening : Wakening)
  deriving DecidableEq

/-- A call only takes away, so that it makes no instance and one may end after it. -/
def Control.dismisses : Control → Bool
  | .remove _ | .retire => true
  | _ => false

/-- One move of a history, with the fleet before and after it. -/
structure FleetStep where
  before : Fleet
  move : FleetMove
  after : Fleet

/-- A poller that was stopped has no thread. -/
theorem Poller.hasThread_stop (p : Poller) : p.stop.hasThread = false := by
  unfold stop
  split
  · rfl
  · next hnone => exact Bool.eq_false_iff.mpr hnone

theorem Poller.inst_stop (p : Poller) : p.stop.inst = p.inst := by
  unfold stop
  split <;> rfl

/-- A thread that goes on is still there, and leaves groups as they are. -/
theorem Poller.wake_always (wakening : Wakening) (p : Poller) :
    (p.wake wakening).Always fun after => after.hasThread = p.hasThread ∧
      after.inst.groups = p.inst.groups ∧ after.inst.retired = p.inst.retired := by
  have hpass : ∀ i : Instance, (Phase.nextPass p.stopping i).Always fun after =>
      after.2.groups = i.groups ∧ after.2.retired = i.retired := by
    intro i
    unfold Phase.nextPass
    split
    · exact ⟨rfl, rfl⟩
    · split
      · refine Dialogue.Always.bind ?_ fun after hafter => hafter
        refine Dialogue.always_bind_of_forall fun _ => ?_
        refine Dialogue.always_bind_of_forall fun _ => ?_
        exact Dialogue.always_bind_of_forall fun _ => ⟨rfl, rfl⟩
      · exact ⟨rfl, rfl⟩
  unfold wake
  cases hthread : p.thread with
  | none => exact ⟨rfl, rfl, rfl⟩
  | some phase =>
    have hstep : (phase.step p.stopping wakening p.inst).Always fun after =>
        after.2.groups = p.inst.groups ∧ after.2.retired = p.inst.retired := by
      cases phase with
      | waiting => exact hpass p.inst
      | sleeping interval =>
        rw [Phase.step]
        split
        · exact ⟨rfl, rfl⟩
        · exact hpass p.inst
      | ended => exact ⟨rfl, rfl⟩
    refine hstep.bind fun after hafter => ⟨?_, hafter⟩
    rw [hasThread, hasThread, hthread]
    rfl

namespace Fleet

variable {fleet after : Fleet} {name other : String} {handle : Nat} {p : Poller}

/-- Makes a move. -/
def make (fleet : Fleet) : FleetMove → Dialogue Fleet
  | .configure name fields => fleet.serve name (.configure fields)
  | .add name vid rid fields => fleet.serve name (.add vid rid fields)
  | .addMany name kind vids rids fields => fleet.serve name (.addMany kind vids rids fields)
  | .remove name vid => fleet.dismiss name (.remove vid)
  | .retire name => fleet.dismiss name .retire
  | .shutdown => return fleet.stopAll
  | .wake handle wakening => fleet.modify handle (Poller.wake wakening)

/-- Carries out a call under a name. -/
def call (fleet : Fleet) (name : String) (control : Control) : Dialogue Fleet :=
  if control.dismisses then fleet.dismiss name control else fleet.serve name control

/-- The steps of a list of moves against a switch, after a history of earlier events. -/
def course (switch : Switch) : List FleetMove → Fleet → List Event → List FleetStep
  | [], _, _ => []
  | move :: rest, fleet, past =>
    let outcome := (fleet.make move).run switch past
    ⟨fleet, move, outcome.value⟩ :: course switch rest outcome.value (past ++ outcome.events)

/-- A poller has left the names. -/
def Left (fleet : Fleet) (handle : Nat) : Prop :=
  ∀ name, fleet.lookup name ≠ some handle

/-- Names stand for pollers apart from each other, and pollers that have left are stopped. -/
structure Orderly (fleet : Fleet) : Prop where
  valid : ∀ name handle, fleet.lookup name = some handle → handle < fleet.pollers.length
  apart : ∀ name other handle, fleet.lookup name = some handle →
    fleet.lookup other = some handle → name = other
  stopped : ∀ handle p, fleet.poller? handle = some p → fleet.Left handle → p.hasThread = false
  filed : ∀ handle p, fleet.poller? handle = some p → p.inst.Every Group.Filed

theorem orderly_initial (profile : Profile) : (initial profile).Orderly where
  valid _ _ h := by cases h
  apart _ _ _ h := by cases h
  stopped _ _ h := by cases h
  filed _ _ h := by cases h

section Set

/-- There is nothing under a free name. -/
theorem named?_of_free (h : fleet.lookup name = none) : fleet.named? name = none := by
  rw [named?, h]
  rfl

/-- A name in use stands for the poller at its handle. -/
theorem named?_of_lookup (h : fleet.lookup name = some handle) :
    fleet.named? name = fleet.poller? handle := by
  rw [named?, h]
  rfl

theorem poller?_set_self (hvalid : handle < fleet.pollers.length) :
    (fleet.set handle p).poller? handle = some p := by
  rw [poller?, set, List.getElem?_set_self hvalid]

theorem poller?_set_of_ne {handle' : Nat} (h : handle ≠ handle') :
    (fleet.set handle p).poller? handle' = fleet.poller? handle' := by
  rw [poller?, set, List.getElem?_set_ne h]
  rfl

theorem named?_set_self (h : fleet.lookup name = some handle)
    (hvalid : handle < fleet.pollers.length) : (fleet.set handle p).named? name = some p := by
  have hlookup : (fleet.set handle p).lookup name = some handle := h
  rw [named?_of_lookup hlookup, poller?_set_self hvalid]

theorem named?_set_of_ne (h : fleet.lookup name ≠ some handle) :
    (fleet.set handle p).named? name = fleet.named? name := by
  have hlookup : (fleet.set handle p).lookup name = fleet.lookup name := rfl
  rw [named?, hlookup, named?]
  cases hfound : fleet.lookup name with
  | none => rfl
  | some handle' =>
    have hne : handle ≠ handle' := by
      rintro rfl
      exact h hfound
    rw [Option.bind_some, Option.bind_some, poller?_set_of_ne hne]

/-- What holds of every poller and of one more holds of all once that one is put in a place. -/
theorem forall_poller?_set {P : Poller → Prop} (h : ∀ found q, fleet.poller? found = some q → P q)
    (hp : P p) (handle : Nat) : ∀ found q, (fleet.set handle p).poller? found = some q → P q := by
  intro found q hq
  by_cases heq : handle = found
  · subst heq
    have hvalid : handle < (fleet.set handle p).pollers.length :=
      (List.getElem?_eq_some_iff.mp hq).1
    rw [set, List.length_set] at hvalid
    rw [poller?_set_self hvalid] at hq
    cases hq
    exact hp
  · rw [poller?_set_of_ne heq] at hq
    exact h found q hq

/-- A poller may be put in the place of a handle, with its thread only if a name stands for it. -/
theorem Orderly.set (h : fleet.Orderly) (hvalid : handle < fleet.pollers.length)
    (hthread : fleet.Left handle → p.hasThread = false) (hfiled : p.inst.Every Group.Filed) :
    (fleet.set handle p).Orderly where
  valid name handle' hlookup := by
    rw [Fleet.set, List.length_set]
    exact h.valid name handle' hlookup
  apart := h.apart
  stopped handle' q hq hleft := by
    by_cases heq : handle = handle'
    · subst heq
      rw [poller?_set_self hvalid] at hq
      cases hq
      exact hthread hleft
    · rw [poller?_set_of_ne heq] at hq
      exact h.stopped handle' q hq hleft
  filed := forall_poller?_set h.filed hfiled handle

/-- A named poller has a handle. -/
theorem Orderly.exists_named (h : fleet.Orderly) (hlookup : fleet.lookup name = some handle) :
    ∃ p, fleet.poller? handle = some p ∧ fleet.named? name = some p := by
  have hvalid := h.valid name handle hlookup
  refine ⟨fleet.pollers[handle], List.getElem?_eq_getElem hvalid, ?_⟩
  rw [named?_of_lookup hlookup]
  exact List.getElem?_eq_getElem hvalid

end Set

section Calls

/-- The poller that a call under a name reaches: the one at work there, or a new one. -/
def Reaches (fleet : Fleet) (name : String) (p : Poller) : Prop :=
  fleet.named? name = some p ∨
    fleet.lookup name = none ∧ p = (Poller.initial name fleet.profile).start

/-- What a call that is served does: it changes the instance that it reaches, which keeps the name,
and no other. -/
structure Served (R : Instance → Instance → Prop) (name : String) (before after : Fleet) :
    Prop where
  orderly : after.Orderly
  named : ∃ p p', before.Reaches name p ∧ after.named? name = some p' ∧ R p.inst p'.inst
  others : ∀ other, other ≠ name → after.named? other = before.named? other

/-- What a removal does: the instance under the name keeps it only if it may not end, and no other
instance is touched. -/
structure Dismissed (name : String) (before after : Fleet) : Prop where
  orderly : after.Orderly
  named : ∀ p, after.named? name = some p → p.inst.mayEnd = false
  others : ∀ other, other ≠ name → after.named? other = before.named? other

/-- Changing the poller of a handle changes it in every branch, and nothing else. -/
theorem modify_always {P : Poller → Prop} {change : Poller → Dialogue Poller}
    (hp : fleet.poller? handle = some p) (hchange : (change p).Always P) :
    (fleet.modify handle change).Always fun after => ∃ p', P p' ∧ after = fleet.set handle p' := by
  unfold modify
  rw [hp]
  exact hchange.bind fun p' hp' => ⟨p', hp', rfl⟩

/-- A call is carried out on the poller of a handle that stands under a name. -/
theorem Orderly.perform (h : fleet.Orderly) (hlookup : fleet.lookup name = some handle)
    (hp : fleet.poller? handle = some p) {control : Control} {R : Instance → Instance → Prop}
    (hR : (control.perform p.inst).Always (R p.inst)) :
    (fleet.perform handle control).Always fun after => after.Orderly ∧
      (∃ p', after.named? name = some p' ∧ R p.inst p'.inst) ∧
      ∀ other, other ≠ name → after.named? other = fleet.named? other := by
  have hvalid := h.valid name handle hlookup
  have hfiled := (h.filed handle p hp).perform Group.filed_invariant control trivial
  have hperformed : (p.perform control).Always fun p' =>
      p'.inst.Every Group.Filed ∧ R p.inst p'.inst :=
    (hfiled.and hR).bind fun _ hafter => hafter
  refine (modify_always hp hperformed).mono ?_
  rintro after ⟨p', ⟨hfiled', hRp⟩, rfl⟩
  refine ⟨h.set hvalid (fun hleft => absurd hlookup (hleft name)) hfiled',
    ⟨p', named?_set_self hlookup hvalid, hRp⟩, fun other hother => ?_⟩
  exact named?_set_of_ne fun hsame => hother (h.apart other name handle hsame hlookup)

/-- The fleet with a new poller under a name that was free. -/
def opened (fleet : Fleet) (name : String) : Fleet :=
  { fleet with
    pollers := fleet.pollers ++ [(Poller.initial name fleet.profile).start]
    handles := fleet.handles.insert name fleet.pollers.length }

theorem poller?_opened_self (fleet : Fleet) (name : String) :
    (fleet.opened name).poller? fleet.pollers.length =
      some (Poller.initial name fleet.profile).start :=
  List.getElem?_concat_length

theorem poller?_opened_of_lt (h : handle < fleet.pollers.length) :
    (fleet.opened name).poller? handle = fleet.poller? handle :=
  List.getElem?_append_left h

theorem lookup_opened_self (fleet : Fleet) (name : String) :
    (fleet.opened name).lookup name = some fleet.pollers.length :=
  SortedMap.get?_insert_self _ _ _

theorem lookup_opened_of_ne (h : other ≠ name) :
    (fleet.opened name).lookup other = fleet.lookup other :=
  SortedMap.get?_insert_of_ne _ _ h.symm

/-- A handle of the fleet with a new poller is the new one or was there. -/
theorem poller?_opened_cases (hp : (fleet.opened name).poller? handle = some p) :
    handle = fleet.pollers.length ∧ p = (Poller.initial name fleet.profile).start ∨
      handle < fleet.pollers.length ∧ fleet.poller? handle = some p := by
  rcases Nat.lt_trichotomy handle fleet.pollers.length with hlt | rfl | hgt
  · exact .inr ⟨hlt, (poller?_opened_of_lt hlt).symm.trans hp⟩
  · rw [poller?_opened_self] at hp
    exact .inl ⟨rfl, (Option.some.inj hp).symm⟩
  · have hnone : (fleet.opened name).poller? handle = none := by
      refine List.getElem?_eq_none ?_
      rw [opened, List.length_append]
      exact hgt
    rw [hnone] at hp
    cases hp

/-- A name of the fleet with a new poller stands for the new one or stood before. -/
theorem lookup_opened_cases (h : (fleet.opened name).lookup other = some handle) :
    other = name ∧ handle = fleet.pollers.length ∨ fleet.lookup other = some handle := by
  by_cases hother : other = name
  · subst hother
    rw [lookup_opened_self] at h
    exact .inl ⟨rfl, (Option.some.inj h).symm⟩
  · rw [lookup_opened_of_ne hother] at h
    exact .inr h

/-- A new poller has no groups yet, let alone one that is wrongly filed. -/
theorem filed_opened (h : ∀ found q, fleet.poller? found = some q → q.inst.Every Group.Filed)
    (name : String) :
    ∀ found q, (fleet.opened name).poller? found = some q → q.inst.Every Group.Filed := by
  intro found q hq
  rcases poller?_opened_cases hq with ⟨-, rfl⟩ | ⟨-, hfound⟩
  · intro group g hg
    cases hg
  · exact h found q hfound

theorem Orderly.opened (h : fleet.Orderly) (hfree : fleet.lookup name = none) :
    (fleet.opened name).Orderly where
  valid other handle hlookup := by
    have hlength : (fleet.opened name).pollers.length = fleet.pollers.length + 1 :=
      List.length_append
    rcases lookup_opened_cases hlookup with ⟨-, rfl⟩ | hfound
    · omega
    · have hvalid := h.valid other handle hfound
      omega
  apart other another handle hlookup hlookup' := by
    rcases lookup_opened_cases hlookup with ⟨rfl, rfl⟩ | hfound <;>
      rcases lookup_opened_cases hlookup' with ⟨rfl, hnew⟩ | hfound'
    · rfl
    · exact absurd (h.valid another _ hfound') (Nat.lt_irrefl _)
    · subst hnew
      exact absurd (h.valid other _ hfound) (Nat.lt_irrefl _)
    · exact h.apart other another handle hfound hfound'
  stopped handle p hp hleft := by
    rcases poller?_opened_cases hp with ⟨rfl, -⟩ | ⟨hlt, hfound⟩
    · exact absurd (lookup_opened_self fleet name) (hleft name)
    · refine h.stopped handle p hfound fun other hlookup => hleft other ?_
      have hother : other ≠ name := by
        rintro rfl
        rw [hfree] at hlookup
        cases hlookup
      rw [lookup_opened_of_ne hother, hlookup]
  filed := filed_opened h.filed name

theorem Orderly.named?_opened_of_ne (h : fleet.Orderly) (hother : other ≠ name) :
    (fleet.opened name).named? other = fleet.named? other := by
  rw [named?, lookup_opened_of_ne hother, named?]
  cases hlookup : fleet.lookup other with
  | none => rfl
  | some handle => exact poller?_opened_of_lt (h.valid other handle hlookup)

/-- A call that may need a new poller changes the instance that it reaches. -/
theorem Orderly.serve (h : fleet.Orderly) {control : Control} {R : Instance → Instance → Prop}
    (hR : ∀ i : Instance, i.Every Group.Filed → (control.perform i).Always (R i))
    (name : String) : (fleet.serve name control).Always (Served R name fleet) := by
  unfold Fleet.serve lookupOrOpen
  cases hlookup : fleet.lookup name with
  | some handle =>
    obtain ⟨p, hp, hnamed⟩ := h.exists_named hlookup
    refine (h.perform hlookup hp (hR p.inst (h.filed handle p hp))).mono ?_
    rintro after ⟨horderly, ⟨p', hnamed', hRp⟩, hothers⟩
    exact ⟨horderly, ⟨p, p', .inl hnamed, hnamed', hRp⟩, hothers⟩
  | none =>
    have hopened := h.opened hlookup
    have hp := poller?_opened_self fleet name
    rw [bind_assoc]
    refine Dialogue.always_bind_of_forall fun _ => ?_
    refine (hopened.perform (lookup_opened_self fleet name) hp
      (hR _ (hopened.filed _ _ hp))).mono ?_
    rintro after ⟨horderly, ⟨p', hnamed', hRp⟩, hothers⟩
    refine ⟨horderly, ⟨_, p', .inr ⟨hlookup, rfl⟩, hnamed', hRp⟩, fun other hother => ?_⟩
    exact (hothers other hother).trans (h.named?_opened_of_ne hother)

end Calls

section Endings

/-- A poller after a handle was stopped is the one before, without its thread if it had none or
is the one that was stopped. -/
theorem exists_of_poller?_stop {stopped : Nat} (hp : (fleet.stop stopped).poller? handle = some p) :
    ∃ q, fleet.poller? handle = some q ∧ p.inst = q.inst ∧
      (handle = stopped ∨ q.hasThread = false → p.hasThread = false) := by
  unfold stop at hp
  cases hstopped : fleet.poller? stopped with
  | none =>
    rw [hstopped] at hp
    refine ⟨p, hp, rfl, ?_⟩
    rintro (rfl | hthread)
    · rw [hstopped] at hp
      cases hp
    · exact hthread
  | some q =>
    rw [hstopped] at hp
    by_cases heq : stopped = handle
    · subst heq
      have hvalid : stopped < fleet.pollers.length := (List.getElem?_eq_some_iff.mp hstopped).1
      rw [poller?_set_self hvalid] at hp
      cases hp
      exact ⟨q, hstopped, q.inst_stop, fun _ => q.hasThread_stop⟩
    · rw [poller?_set_of_ne heq] at hp
      refine ⟨p, hp, rfl, ?_⟩
      rintro (rfl | hthread)
      · exact absurd rfl heq
      · exact hthread

theorem length_pollers_stop (fleet : Fleet) (handle : Nat) :
    (fleet.stop handle).pollers.length = fleet.pollers.length := by
  unfold stop
  split
  · exact List.length_set
  · rfl

theorem poller?_stop_of_ne {stopped : Nat} (h : handle ≠ stopped) :
    (fleet.stop stopped).poller? handle = fleet.poller? handle := by
  unfold stop
  split
  · exact poller?_set_of_ne h.symm
  · rfl

/-- It does not matter for the stop of a poller which names there are. -/
theorem stop_forgetful (fleet : Fleet) (handles : SortedMap String Nat) (handle : Nat) :
    ({ fleet with handles := handles } : Fleet).stop handle =
      { fleet.stop handle with handles := handles } := by
  have hfound : ({ fleet with handles := handles } : Fleet).poller? handle =
      fleet.poller? handle := rfl
  rw [stop, hfound, stop]
  cases fleet.poller? handle <;> rfl

/-- Names may be forgotten as long as the pollers that they stood for are stopped. -/
theorem Orderly.forget (h : fleet.Orderly) {stopped : Fleet} {handles : SortedMap String Nat}
    (hlength : stopped.pollers.length = fleet.pollers.length)
    (hhandles : ∀ name handle, handles.get? name = some handle → fleet.lookup name = some handle)
    (hpollers : ∀ handle p, stopped.poller? handle = some p →
      ∃ q, fleet.poller? handle = some q ∧ p.inst = q.inst ∧
        (q.hasThread = false → p.hasThread = false) ∧
        ∀ name, fleet.lookup name = some handle → p.hasThread = false ∨
          handles.get? name = some handle) :
    ({ stopped with handles := handles } : Fleet).Orderly where
  valid name handle hlookup := hlength ▸ h.valid name handle (hhandles name handle hlookup)
  apart name other handle hlookup hlookup' :=
    h.apart name other handle (hhandles name handle hlookup) (hhandles other handle hlookup')
  stopped handle p hp hleft := by
    obtain ⟨q, hq, -, hkept, hnamed⟩ := hpollers handle p hp
    -- a handle without a name now had none before, or lost it and was stopped on the way
    by_cases hwas : fleet.Left handle
    · exact hkept (h.stopped handle q hq hwas)
    · obtain ⟨name, hlookup⟩ := not_forall.mp hwas
      exact (hnamed name (not_not.mp hlookup)).resolve_right (hleft name)
  filed handle p hp := by
    obtain ⟨q, hq, hinst, -⟩ := hpollers handle p hp
    exact hinst ▸ h.filed handle q hq

/-- Giving up a name and stopping its poller touches no other name. -/
theorem Orderly.giveUp (h : fleet.Orderly) (hlookup : fleet.lookup name = some handle) :
    Dismissed name fleet { fleet.stop handle with handles := fleet.handles.erase name } := by
  have hlookups : ∀ other, other ≠ name →
      (fleet.handles.erase name).get? other = fleet.lookup other :=
    fun other hother => SortedMap.get?_erase_of_ne _ hother.symm
  have herased : (fleet.handles.erase name).get? name = none := SortedMap.get?_erase_self _ _
  refine ⟨h.forget (length_pollers_stop fleet handle) ?_ ?_, ?_, ?_⟩
  · intro other found hfound
    by_cases hother : other = name
    · rw [hother, herased] at hfound
      cases hfound
    · exact (hlookups other hother).symm.trans hfound
  · intro found q hq
    obtain ⟨before, hbefore, hinst, hthread⟩ := exists_of_poller?_stop hq
    refine ⟨before, hbefore, hinst, fun hnone => hthread (.inr hnone), ?_⟩
    intro other hother
    by_cases hsame : other = name
    · rw [hsame, hlookup] at hother
      exact .inl (hthread (.inl (Option.some.inj hother).symm))
    · exact .inr ((hlookups other hsame).trans hother)
  · intro q hq
    rw [named?, lookup, herased] at hq
    cases hq
  · intro other hother
    rw [named?, lookup, hlookups other hother, named?]
    cases hfound : fleet.lookup other with
    | none => rfl
    | some found =>
      have hne : found ≠ handle := by
        rintro rfl
        exact hother (h.apart other name found hfound hlookup)
      exact poller?_stop_of_ne hne

/-- A name is given up, and its poller stopped, exactly if the poller may end. -/
theorem Orderly.close (h : fleet.Orderly) (name : String) :
    (fleet.close name).Always (Dismissed name fleet) := by
  have hkept : (∀ p, fleet.named? name = some p → p.inst.mayEnd = false) →
      Dismissed name fleet fleet := fun hnamed => ⟨h, hnamed, fun _ _ => rfl⟩
  unfold Fleet.close release
  cases hlookup : fleet.lookup name with
  | none =>
    refine hkept fun p hp => ?_
    rw [named?_of_free hlookup] at hp
    cases hp
  | some handle =>
    obtain ⟨p, hp, hnamed⟩ := h.exists_named hlookup
    dsimp only
    rw [hp, Option.map_some]
    cases hends : p.inst.mayEnd with
    | false =>
      refine hkept fun q hq => ?_
      rw [hnamed] at hq
      cases hq
      exact hends
    | true =>
      refine Dialogue.always_bind_of_forall fun _ => ?_
      -- the name goes first and the poller is stopped then; the order makes no difference
      rw [stop_forgetful]
      exact h.giveUp hlookup

/-- A removal takes the instance under its name out of the names if it may end. -/
theorem Orderly.dismiss (h : fleet.Orderly) (name : String) (control : Control) :
    (fleet.dismiss name control).Always (Dismissed name fleet) := by
  unfold Fleet.dismiss
  cases hlookup : fleet.lookup name with
  | none =>
    refine Dialogue.always_bind_of_forall fun _ => ⟨h, fun p hp => ?_, fun _ _ => rfl⟩
    rw [named?_of_free hlookup] at hp
    cases hp
  | some handle =>
    obtain ⟨p, hp, -⟩ := h.exists_named hlookup
    have hany : (control.perform p.inst).Always fun _ => True :=
      Dialogue.always_of_forall (fun _ => trivial) _
    refine (h.perform (R := fun _ _ => True) hlookup hp hany).bind ?_
    rintro after ⟨horderly, -, hothers⟩
    refine (horderly.close name).mono fun ended hended => ⟨hended.orderly, hended.named, ?_⟩
    exact fun other hother => (hended.others other hother).trans (hothers other hother)

theorem length_pollers_stopEach (handles : List Nat) (fleet : Fleet) :
    (handles.foldl stop fleet).pollers.length = fleet.pollers.length := by
  induction handles generalizing fleet with
  | nil => rfl
  | cons handle rest ih => exact (ih _).trans (length_pollers_stop fleet handle)

/-- The same after several were stopped. -/
theorem exists_of_poller?_stopEach {handles : List Nat}
    (hp : (handles.foldl stop fleet).poller? handle = some p) :
    ∃ q, fleet.poller? handle = some q ∧ p.inst = q.inst ∧
      (handle ∈ handles ∨ q.hasThread = false → p.hasThread = false) := by
  induction handles generalizing fleet with
  | nil => exact ⟨p, hp, rfl, fun h => h.resolve_left List.not_mem_nil⟩
  | cons first rest ih =>
    obtain ⟨middle, hmiddle, hinst, hthread⟩ := ih hp
    obtain ⟨q, hq, hinst', hthread'⟩ := exists_of_poller?_stop hmiddle
    refine ⟨q, hq, hinst.trans hinst', ?_⟩
    rintro (hmem | hnone)
    · rcases List.mem_cons.mp hmem with hfirst | hrest
      · exact hthread (.inr (hthread' (.inl hfirst)))
      · exact hthread (.inl hrest)
    · exact hthread (.inr (hthread' (.inr hnone)))

/-- Stopping every poller leaves no names, and no thread without a name. -/
theorem Orderly.stopAll (h : fleet.Orderly) : fleet.stopAll.Orderly := by
  refine h.forget (length_pollers_stopEach fleet.handles.values fleet) ?_ ?_
  · intro name handle hfound
    cases hfound
  · intro handle p hp
    obtain ⟨q, hq, hinst, hthread⟩ := exists_of_poller?_stopEach hp
    refine ⟨q, hq, hinst, fun hnone => hthread (.inr hnone), fun name hlookup => .inl ?_⟩
    have hentry : (name, handle) ∈ fleet.handles.entries := SortedMap.get?_eq_some_iff.mp hlookup
    exact hthread (.inl (List.mem_map.mpr ⟨(name, handle), hentry, rfl⟩))

theorem lookup_stopAll (fleet : Fleet) (name : String) : fleet.stopAll.lookup name = none := rfl

/-- A thread that goes on allows no instance to end that was not allowed to before. -/
theorem Orderly.wake (h : fleet.Orderly) (handle : Nat) (wakening : Wakening) :
    (fleet.modify handle (Poller.wake wakening)).Always fun after => after.Orderly ∧
      ∀ name p', after.named? name = some p' →
        ∃ p, fleet.named? name = some p ∧ p'.inst.mayEnd = p.inst.mayEnd := by
  cases hp : fleet.poller? handle with
  | none =>
    unfold modify
    rw [hp]
    exact ⟨h, fun name p' hp' => ⟨p', hp', rfl⟩⟩
  | some p =>
    have hvalid : handle < fleet.pollers.length := (List.getElem?_eq_some_iff.mp hp).1
    refine (modify_always hp (p.wake_always wakening)).mono ?_
    rintro after ⟨p', ⟨hthread, hgroups, hretired⟩, rfl⟩
    have hends : p'.inst.mayEnd = p.inst.mayEnd := by
      rw [Instance.mayEnd, Instance.isEmpty, hgroups, hretired]
      rfl
    refine ⟨h.set hvalid (fun hleft => hthread.trans (h.stopped handle p hp hleft)) ?_, ?_⟩
    · intro name g hg
      exact h.filed handle p hp name g (hgroups ▸ hg)
    · intro name q hq
      by_cases hlookup : fleet.lookup name = some handle
      · rw [named?_set_self hlookup hvalid] at hq
        cases hq
        refine ⟨p, ?_, hends⟩
        rw [named?, hlookup]
        exact hp
      · rw [named?_set_of_ne hlookup] at hq
        exact ⟨q, hq, rfl⟩

end Endings

end Fleet

end CounterPolling
