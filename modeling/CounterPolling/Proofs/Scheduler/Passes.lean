import CounterPolling.Data.SortedMap.Lookup
import CounterPolling.Proofs.Group.Exclusive
import CounterPolling.Proofs.Scheduler.Roster

/-!
# When a scheduler thread makes a pass

Control calls, starts, stops and the threads themselves may come in any order. Whenever a thread
makes a pass, the instance is enabled, has an interval and tracks an object. Between two passes of a
thread its sleep comes to an end: its time is up, or the thread was roused and no pass makes sense
or the interval is another one. A thread that has seen that it is to end makes no pass any more.
Main statement: `Roster.passes_are_due`.
-/

namespace CounterPolling

/-- An instance that is ready is enabled, has an interval and has a group that tracks an object. -/
theorem Instance.isReady_iff {i : Instance} : i.isReady = true ↔
    i.enabled = true ∧ 0 < i.interval ∧
      ∃ name g, i.groups.get? name = some g ∧ g.tracksAny = true := by
  simp only [isReady, Bool.and_eq_true, decide_eq_true_eq, SortedMap.values, List.any_eq_true,
    List.mem_map, SortedMap.get?_eq_some_iff, and_assoc]
  refine and_congr_right fun _ => and_congr_right fun _ => ?_
  constructor
  · rintro ⟨_, ⟨⟨name, g⟩, hentry, rfl⟩, htracks⟩
    exact ⟨name, g, hentry, htracks⟩
  · rintro ⟨name, g, hentry, htracks⟩
    exact ⟨g, ⟨(name, g), hentry, rfl⟩, htracks⟩

namespace RosterStep

/-- The step is a pass of a thread: the thread goes on, and a pass is counted. -/
def IsPassOf (step : RosterStep) (thread : Nat) : Prop :=
  (∃ wakening, step.move = .wake thread wakening) ∧
    step.after.inst.passes = step.before.inst.passes + 1

/-- The step ends the sleep of a thread that sleeps under an interval: its time is up, or it is
roused and sees that no pass makes sense or that the interval is another one. -/
def EndsSleep (step : RosterStep) (thread interval : Nat) : Prop :=
  step.before.threads[thread]? = some (.sleeping interval) ∧
    (step.move = .wake thread .timeUp ∨ step.move = .wake thread .roused ∧
      (step.before.inst.isReady = false ∨ step.before.inst.interval ≠ interval))

/-- The step is one in which a thread sees that it is to end. -/
def SeesStop (step : RosterStep) (thread : Nat) : Prop :=
  thread < step.before.threads.length ∧ step.before.stopping = true ∧
    ∃ wakening, step.move = .wake thread wakening

end RosterStep

namespace Roster

variable {switch : Switch} {past : List Event} {r : Roster} {thread other : Nat} {phase : Phase}

/-- The step that a move leads to. -/
def stepOf (switch : Switch) (past : List Event) (r : Roster) (move : RosterMove) : RosterStep :=
  let outcome := (r.make move).run switch past
  ⟨r, move, outcome.events, outcome.value⟩

section Step

/-- A thread that goes on makes a pass if one is due, and does nothing else to the instance. -/
theorem stepOf_wake_cases (h : r.threads[thread]? = some phase) (wakening : Wakening)
    (switch : Switch) (past : List Event) :
    let step := stepOf switch past r (.wake thread wakening)
    (phase.Due r.stopping wakening r.inst ∧
      step.after = { r with
        inst := { r.inst with passes := r.inst.passes + 1 }
        threads := r.threads.set thread (.sleeping r.inst.interval) }) ∨
    ∃ next, phase.Idles r.stopping wakening r.inst next ∧ step.events = [] ∧
      step.after = { r with threads := r.threads.set thread next } := by
  dsimp only [stepOf]
  rw [make_wake h]
  rcases phase.step_cases r.stopping wakening r.inst with ⟨hdue, heq⟩ | ⟨next, hidles, heq⟩
  · refine .inl ⟨hdue, ?_⟩
    have hpass := r.inst.pass_always.value switch past
    rw [heq, bind_assoc, Dialogue.value_run_bind, hpass]
    rfl
  · refine .inr ⟨next, hidles, ?_⟩
    rw [heq, pure_bind]
    exact ⟨rfl, rfl⟩

/-- A thread that is not there cannot go on. -/
theorem stepOf_wake_of_none (h : r.threads[thread]? = none) (wakening : Wakening) :
    stepOf switch past r (.wake thread wakening) = ⟨r, .wake thread wakening, [], r⟩ := by
  simp only [stepOf, make, h]
  rfl

/-- What is not a step of a thread leaves it where it stands. -/
theorem threads_stepOf (move : RosterMove) (hmove : ∀ wakening, move ≠ .wake thread wakening)
    (h : r.threads[thread]? = some phase) :
    (stepOf switch past r move).after.threads[thread]? = some phase := by
  have hvalid : thread < r.threads.length := (List.getElem?_eq_some_iff.mp h).1
  cases move with
  | control call =>
    dsimp only [stepOf, make]
    rw [Dialogue.value_run_bind]
    exact h
  | start =>
    change ((if r.current.isSome then r else _) : Roster).threads[thread]? = some phase
    split
    · exact h
    · exact (List.getElem?_append_left hvalid).trans h
  | stop =>
    change ((if r.current.isSome then _ else r) : Roster).threads[thread]? = some phase
    split <;> exact h
  | wake other wakening =>
    have hne : other ≠ thread := fun heq => hmove wakening (heq ▸ rfl)
    cases hother : r.threads[other]? with
    | none =>
      rw [stepOf_wake_of_none hother]
      exact h
    | some standing =>
      rcases stepOf_wake_cases hother wakening switch past with
        ⟨-, hafter⟩ | ⟨next, -, -, hafter⟩ <;>
      · rw [hafter]
        exact (List.getElem?_set_ne hne).trans h

/-- A pass of a thread is one that is due, after which the thread sleeps under the interval. -/
theorem of_isPassOf {move : RosterMove} (h : (stepOf switch past r move).IsPassOf thread) :
    r.stopping = false ∧ r.inst.isReady = true ∧
      (∃ wakening phase, move = .wake thread wakening ∧ r.threads[thread]? = some phase ∧
        phase.Due r.stopping wakening r.inst) ∧
      (stepOf switch past r move).after.threads[thread]? = some (.sleeping r.inst.interval) := by
  obtain ⟨⟨wakening, hmove⟩, hpasses⟩ := h
  obtain rfl : move = .wake thread wakening := hmove
  have hsame : ∀ after : Roster, (stepOf switch past r (.wake thread wakening)).after = after →
      after.inst ≠ r.inst := by
    rintro after rfl heq
    rw [heq] at hpasses
    exact absurd hpasses (Nat.ne_of_lt (Nat.lt_succ_self _))
  cases hphase : r.threads[thread]? with
  | none =>
    rw [stepOf_wake_of_none hphase] at hsame
    exact (hsame r rfl rfl).elim
  | some phase =>
    rcases stepOf_wake_cases hphase wakening switch past with
      ⟨hdue, hafter⟩ | ⟨next, -, -, hafter⟩
    · refine ⟨hdue.not_stopping, hdue.ready, ⟨wakening, phase, rfl, rfl, hdue⟩, ?_⟩
      rw [hafter]
      exact List.getElem?_set_self (List.getElem?_eq_some_iff.mp hphase).1
    · exact (hsame _ hafter rfl).elim

/-- A thread that has ended makes no pass and stays ended. -/
theorem ended_stepOf (h : r.threads[thread]? = some .ended) (move : RosterMove) :
    ¬ (stepOf switch past r move).IsPassOf thread ∧
      (stepOf switch past r move).after.threads[thread]? = some .ended := by
  constructor
  · intro hpass
    obtain ⟨-, -, ⟨wakening, phase, -, hphase, hdue⟩, -⟩ := of_isPassOf hpass
    exact hdue.ne_ended (Option.some.inj (hphase.symm.trans h))
  · by_cases hmove : ∃ wakening, move = .wake thread wakening
    · obtain ⟨wakening, rfl⟩ := hmove
      rcases stepOf_wake_cases h wakening switch past with ⟨hdue, -⟩ | ⟨next, hidles, -, hafter⟩
      · exact absurd rfl hdue.ne_ended
      · rw [hafter, ← hidles.ended (.inl rfl)]
        exact List.getElem?_set_self (List.getElem?_eq_some_iff.mp h).1
    · exact threads_stepOf move (fun wakening heq => hmove ⟨wakening, heq⟩) h

/-- A thread that goes on while it is told to end has ended after. -/
theorem ended_of_seesStop {move : RosterMove} (h : (stepOf switch past r move).SeesStop thread) :
    (stepOf switch past r move).after.threads[thread]? = some .ended := by
  obtain ⟨hvalid, hstopping, wakening, hmove⟩ := h
  obtain rfl : move = .wake thread wakening := hmove
  have hphase : r.threads[thread]? = some r.threads[thread] := List.getElem?_eq_getElem hvalid
  rcases stepOf_wake_cases hphase wakening switch past with ⟨hdue, -⟩ | ⟨next, hidles, -, hafter⟩
  · have hnot := hdue.not_stopping
    rw [show r.stopping = true from hstopping] at hnot
    cases hnot
  · rw [hafter, ← hidles.ended (.inr hstopping)]
    exact List.getElem?_set_self hvalid

/-- A sleeper sleeps on, ends, or its sleep comes to an end in one of the ways it may. -/
theorem sleeping_stepOf {interval : Nat} (h : r.threads[thread]? = some (.sleeping interval))
    (switch : Switch) (past : List Event) (move : RosterMove) :
    (stepOf switch past r move).EndsSleep thread interval ∨
      ¬ (stepOf switch past r move).IsPassOf thread ∧
        ((stepOf switch past r move).after.threads[thread]? = some (.sleeping interval) ∨
          (stepOf switch past r move).after.threads[thread]? = some .ended) := by
  by_cases hmove : ∃ wakening, move = .wake thread wakening
  · obtain ⟨wakening, rfl⟩ := hmove
    have hset : ∀ next, (r.threads.set thread next)[thread]? = some next := fun next =>
      List.getElem?_set_self (List.getElem?_eq_some_iff.mp h).1
    by_cases hends : (stepOf switch past r (.wake thread wakening)).EndsSleep thread interval
    · exact .inl hends
    · have hnot : ¬ (wakening = .timeUp ∨ r.inst.isReady = false ∨ r.inst.interval ≠ interval) := by
        intro hwoken
        refine hends ⟨h, ?_⟩
        cases wakening with
        | timeUp => exact .inl rfl
        | roused => exact .inr ⟨rfl, hwoken.resolve_left (nomatch ·)⟩
      refine .inr ⟨fun hpass => ?_, ?_⟩
      · obtain ⟨-, -, ⟨wakening', phase, hmove, hphase, hdue⟩, -⟩ := of_isPassOf hpass
        obtain rfl : wakening = wakening' := by
          injection hmove
        obtain rfl : phase = .sleeping interval := Option.some.inj (hphase.symm.trans h)
        exact hnot ((hdue.awake interval rfl).imp id .inr)
      · rcases stepOf_wake_cases h wakening switch past with ⟨hdue, -⟩ | ⟨next, hidles, -, hafter⟩
        · exact absurd ((hdue.awake interval rfl).imp id .inr) hnot
        · rw [hafter]
          rcases hidles.sleeping interval rfl with rfl | rfl | hwoken
          · exact .inl (hset _)
          · exact .inr (hset _)
          · exact absurd hwoken hnot
  · have hother : ∀ wakening, move ≠ .wake thread wakening :=
      fun wakening heq => hmove ⟨wakening, heq⟩
    exact .inr ⟨fun hpass => hmove hpass.1, .inl (threads_stepOf move hother h)⟩

end Step

section Course

variable {moves : List RosterMove} {step : RosterStep} {front rest : List RosterStep}

theorem course_cons (move : RosterMove) (moves : List RosterMove) :
    course switch (move :: moves) r past = stepOf switch past r move ::
      course switch moves (stepOf switch past r move).after
        (past ++ (stepOf switch past r move).events) := rfl

/-- What follows a step of a history is a history from where the step ended. -/
theorem course_split (h : course switch moves r past = front ++ step :: rest) :
    (∃ past' before move, step = stepOf switch past' before move) ∧
      ∃ moves' past', rest = course switch moves' step.after past' := by
  induction moves generalizing r past front with
  | nil => exact absurd h.symm (List.append_ne_nil_of_right_ne_nil _ (List.cons_ne_nil _ _))
  | cons move moves ih =>
    rw [course_cons] at h
    cases front with
    | nil =>
      obtain ⟨rfl, rfl⟩ := List.cons.inj h
      exact ⟨⟨past, r, move, rfl⟩, moves, _, rfl⟩
    | cons first front =>
      obtain ⟨-, htail⟩ := List.cons.inj h
      exact ih htail

/-- Once a thread has ended it makes no pass any more. -/
theorem no_pass_of_ended (h : r.threads[thread]? = some .ended)
    (hstep : step ∈ course switch moves r past) : ¬ step.IsPassOf thread := by
  induction moves generalizing r past with
  | nil => cases hstep
  | cons move moves ih =>
    rw [course_cons] at hstep
    obtain ⟨hpass, hended⟩ := ended_stepOf h move
    rcases List.mem_cons.mp hstep with rfl | hrest
    · exact hpass
    · exact ih hended hrest

/-- Before a sleeper makes a pass its sleep comes to an end. -/
theorem exists_endsSleep {interval : Nat} (h : r.threads[thread]? = some (.sleeping interval))
    (hcourse : course switch moves r past = front ++ step :: rest) (hpass : step.IsPassOf thread) :
    ∃ ending ∈ front ++ [step], ending.EndsSleep thread interval := by
  -- the sleeper is followed step by step; if it ends on the way, there is no pass to come
  induction moves generalizing r past front with
  | nil => exact absurd hcourse.symm (List.append_ne_nil_of_right_ne_nil _ (List.cons_ne_nil _ _))
  | cons move moves ih =>
    rw [course_cons] at hcourse
    rcases sleeping_stepOf h switch past move with hends | ⟨hidle, hnext⟩
    · refine ⟨_, ?_, hends⟩
      cases front with
      | nil => exact (List.cons.inj hcourse).1 ▸ List.mem_cons_self
      | cons first front => exact (List.cons.inj hcourse).1 ▸ List.mem_cons_self
    · cases front with
      | nil =>
        obtain ⟨rfl, -⟩ := List.cons.inj hcourse
        exact absurd hpass hidle
      | cons first front =>
        have htail := (List.cons.inj (hcourse.trans (List.cons_append ..))).2
        rcases hnext with hsleeping | hended
        · obtain ⟨ending, hmem, hends⟩ := ih hsleeping htail
          exact ⟨ending, List.mem_cons_of_mem _ hmem, hends⟩
        · have hmem : step ∈ front ++ step :: rest := List.mem_append_right _ List.mem_cons_self
          rw [← htail] at hmem
          exact absurd hpass (no_pass_of_ended hended hmem)

/-- Whatever the order of control calls, starts, stops and steps of threads: a pass of a thread
starts on an instance that is enabled, has an interval and tracks an object, while threads are not
told to end; a thread that goes on without a pass asks nothing, hands nothing out and leaves the
instance as it is; between two passes of a thread its sleep comes to an end; and a thread that has
seen that it is to end makes no pass any more. -/
theorem passes_are_due (name : String) (profile : Profile) (switch : Switch)
    (moves : List RosterMove) (past : List Event) :
    let steps := course switch moves (initial name profile) past
    (∀ step ∈ steps, ∀ thread, step.IsPassOf thread →
      step.before.inst.enabled = true ∧ 0 < step.before.inst.interval ∧
        (∃ group g, step.before.inst.groups.get? group = some g ∧ g.tracksAny = true) ∧
        step.before.stopping = false) ∧
    (∀ step ∈ steps, ∀ thread wakening, step.move = .wake thread wakening →
      ¬ step.IsPassOf thread → step.events = [] ∧ step.after.inst = step.before.inst) ∧
    (∀ front first between second back thread,
      steps = front ++ first :: (between ++ second :: back) →
      first.IsPassOf thread → second.IsPassOf thread →
      ∃ step ∈ between ++ [second], step.EndsSleep thread first.before.inst.interval) ∧
    ∀ front step back thread, steps = front ++ step :: back → step.SeesStop thread →
      ∀ later ∈ back, ¬ later.IsPassOf thread := by
  intro steps
  have hmade : ∀ step ∈ steps, ∃ past r move, step = stepOf switch past r move := by
    intro step hstep
    obtain ⟨front, back, hsplit⟩ := List.append_of_mem hstep
    exact (course_split hsplit).1
  refine ⟨?_, ?_, ?_, ?_⟩
  · intro step hstep thread hpass
    obtain ⟨past, r, move, rfl⟩ := hmade step hstep
    obtain ⟨hstopping, hready, -⟩ := of_isPassOf hpass
    obtain ⟨henabled, hinterval, htracks⟩ := Instance.isReady_iff.mp hready
    exact ⟨henabled, hinterval, htracks, hstopping⟩
  · intro step hstep thread wakening hmove hnot
    obtain ⟨past, r, move, rfl⟩ := hmade step hstep
    obtain rfl : move = .wake thread wakening := hmove
    cases hphase : r.threads[thread]? with
    | none =>
      rw [stepOf_wake_of_none hphase]
      exact ⟨rfl, rfl⟩
    | some phase =>
      rcases stepOf_wake_cases hphase wakening switch past with
        ⟨-, hafter⟩ | ⟨next, -, hevents, hafter⟩
      · refine absurd ⟨⟨wakening, rfl⟩, ?_⟩ hnot
        rw [hafter]
        rfl
      · rw [hafter]
        exact ⟨hevents, rfl⟩
  · intro front first between second back thread hsplit hfirst hsecond
    obtain ⟨⟨past, r, move, rfl⟩, moves', past', hrest⟩ := course_split hsplit
    obtain ⟨-, -, -, hsleeping⟩ := of_isPassOf hfirst
    exact exists_endsSleep hsleeping hrest.symm hsecond
  · intro front step back thread hsplit hsees later hlater
    obtain ⟨⟨past, r, move, rfl⟩, moves', past', rfl⟩ := course_split hsplit
    exact no_pass_of_ended (ended_of_seesStop hsees) hlater

/-- A port is read at once and again when the sleep is over, and no more once polling is off. -/
example :
    let moves : List RosterMove := [.start,
      .control (.configure [("POLL_INTERVAL", "1000"), ("FLEX_COUNTER_STATUS", "enable")]),
      .control (.add (.virtual .port 1) 0x101
        [("PORT_COUNTER_ID_LIST", "SAI_PORT_STAT_IF_IN_OCTETS")]),
      .wake 0 .roused, .wake 0 .roused, .wake 0 .timeUp,
      .control (.configure [("FLEX_COUNTER_STATUS", "disable")]), .wake 0 .timeUp]
    (course (.unchanging (StatsGroup.rowFails (.object 0x102))) moves (initial "PORTS" .standard)
      []).map (fun step => step.after.inst.passes) = [0, 0, 0, 1, 1, 2, 2, 2] := by
  decide +kernel

end Course

end Roster

end CounterPolling
