import CounterPolling.Proofs.Dialogue.Branches
import CounterPolling.Scheduler.Poller

/-!
# All the threads of an instance

The thread of a poller is told to end before it sees so, and a new one may be started meanwhile. A
roster keeps every thread that was ever started for an instance, each at its own place, and lets
control calls, the start, the stop and the steps of any thread happen in any order. What a poller
does is what its roster does, if the thread that is told to end goes on at once. Main statements:
`Phase.step_cases`, what a thread can do when it goes on, and `Roster.Shows.stop`.
-/

namespace CounterPolling

namespace Phase

variable {stopping : Bool} {wakening : Wakening} {i : Instance}

/-- A thread that goes on finds a pass due: it was not told to end, a pass makes sense, and if it
slept, its time is up or the interval is not the one it slept under. -/
structure Due (stopping : Bool) (wakening : Wakening) (i : Instance) (phase : Phase) : Prop where
  ne_ended : phase ≠ .ended
  not_stopping : stopping = false
  ready : i.isReady = true
  awake : ∀ interval, phase = .sleeping interval → wakening = .timeUp ∨ i.interval ≠ interval

/-- Where a thread may stand that goes on without a pass: a sleeper sleeps on, unless it is told to
end, its time is up, no pass makes sense or the interval is another one. -/
structure Idles (stopping : Bool) (wakening : Wakening) (i : Instance) (phase next : Phase) :
    Prop where
  ended : phase = .ended ∨ stopping = true → next = .ended
  sleeping : ∀ interval, phase = .sleeping interval → next = .sleeping interval ∨ next = .ended ∨
    wakening = .timeUp ∨ i.isReady = false ∨ i.interval ≠ interval

/-- A thread that looks for a pass to make ends, makes one, or waits. -/
theorem nextPass_cases (stopping : Bool) (i : Instance) :
    (stopping = true ∧ nextPass stopping i = return (.ended, i)) ∨
    (stopping = false ∧ i.isReady = true ∧
      nextPass stopping i = do return (.sleeping i.interval, ← i.pass)) ∨
    (stopping = false ∧ i.isReady = false ∧ nextPass stopping i = return (.waiting, i)) := by
  unfold nextPass
  cases stopping with
  | true => exact .inl ⟨rfl, rfl⟩
  | false =>
    cases hready : i.isReady with
    | true => exact .inr (.inl ⟨rfl, rfl, rfl⟩)
    | false => exact .inr (.inr ⟨rfl, rfl, rfl⟩)

/-- A thread that goes on makes a pass if one is due, after which it sleeps, and else idles. -/
theorem step_cases (stopping : Bool) (wakening : Wakening) (i : Instance) (phase : Phase) :
    (phase.Due stopping wakening i ∧
      phase.step stopping wakening i = do return (.sleeping i.interval, ← i.pass)) ∨
    ∃ next, phase.Idles stopping wakening i next ∧
      phase.step stopping wakening i = return (next, i) := by
  have hawake : phase ≠ .ended → phase.step stopping wakening i = nextPass stopping i →
      (∀ interval, phase = .sleeping interval →
        stopping = true ∨ wakening = .timeUp ∨ i.isReady = false ∨ i.interval ≠ interval) →
      (phase.Due stopping wakening i ∧
        phase.step stopping wakening i = do return (.sleeping i.interval, ← i.pass)) ∨
      ∃ next, phase.Idles stopping wakening i next ∧
        phase.step stopping wakening i = return (next, i) := by
    intro hne hstep hwoken
    rw [hstep]
    rcases nextPass_cases stopping i with
      ⟨hstop, heq⟩ | ⟨hstop, hready, heq⟩ | ⟨hstop, hready, heq⟩
    · exact .inr ⟨.ended, ⟨fun _ => rfl, fun _ _ => .inr (.inl rfl)⟩, heq⟩
    · refine .inl ⟨⟨hne, hstop, hready, fun interval hphase => ?_⟩, heq⟩
      simpa [hstop, hready] using hwoken interval hphase
    · refine .inr ⟨.waiting, ⟨fun h => ?_, fun _ _ => ?_⟩, heq⟩
      · rcases h with h | h
        · exact absurd h hne
        · rw [hstop] at h
          cases h
      · exact .inr (.inr (.inr (.inl hready)))
  cases phase with
  | waiting => exact hawake (nomatch ·) rfl (fun _ h => nomatch h)
  | sleeping interval =>
    by_cases hsleeps : wakening = .roused ∧ !stopping ∧ i.isReady ∧ i.interval = interval
    · refine .inr ⟨.sleeping interval, ⟨fun h => ?_, fun _ h => .inl h⟩, ?_⟩
      · rcases h with h | h
        · cases h
        · simp [h] at hsleeps
      · rw [step, if_pos hsleeps]
    · refine hawake (nomatch ·) (if_neg hsleeps) ?_
      rintro _ ⟨⟩
      cases stopping with
      | true => exact .inl rfl
      | false =>
        cases wakening with
        | timeUp => exact .inr (.inl rfl)
        | roused =>
          by_cases hready : i.isReady = true
          · exact .inr (.inr (.inr fun hsame => hsleeps ⟨rfl, rfl, hready, hsame⟩))
          · exact .inr (.inr (.inl (Bool.eq_false_iff.mpr hready)))
  | ended =>
    exact .inr ⟨.ended, ⟨fun _ => rfl, fun _ _ => .inr (.inl rfl)⟩, rfl⟩

end Phase

/-- A pass counts, and changes nothing else of the instance. -/
theorem Instance.pass_always (i : Instance) :
    i.pass.Always fun after => after = { i with passes := i.passes + 1 } := by
  unfold pass
  refine Dialogue.always_bind_of_forall fun _ => ?_
  refine Dialogue.always_bind_of_forall fun _ => ?_
  exact Dialogue.always_bind_of_forall fun _ => rfl

/-- An instance with every scheduler thread that was ever started for it. -/
structure Roster where
  /-- The instance. -/
  inst : Instance
  /-- Whether threads are told to end. -/
  stopping : Bool
  /-- The threads in the order they were started. -/
  threads : List Phase
  /-- The thread that was started and not stopped since. -/
  current : Option Nat

/-- Something that happens to an instance and its threads. -/
inductive RosterMove
  /-- A control call is carried out. -/
  | control (call : Control)
  /-- A thread is started, unless there is one. -/
  | start
  /-- The thread is told to end, if there is one. -/
  | stop
  /-- A thread goes on, notified or for no reason or because its time is up. -/
  | wake (thread : Nat) (wakening : Wakening)

/-- One move of a history: what was there before and after it, and what happened in between. -/
structure RosterStep where
  before : Roster
  move : RosterMove
  events : List Event
  after : Roster

namespace Roster

variable {r : Roster} {p : Poller} {thread : Nat} {phase : Phase}

/-- An instance for which no thread was started. -/
def initial (name : String) (profile : Profile) : Roster :=
  ⟨Instance.initial name profile, false, [], none⟩

/-- Makes a move. -/
def make (r : Roster) : RosterMove → Dialogue Roster
  | .control call => do return { r with inst := ← call.perform r.inst }
  | .start =>
    return if r.current.isSome then r
      else { r with
        stopping := false
        threads := r.threads ++ [.waiting]
        current := some r.threads.length }
  | .stop => return if r.current.isSome then { r with stopping := true, current := none } else r
  | .wake thread wakening =>
    match r.threads[thread]? with
    | none => return r
    | some phase => do
      let (phase, inst) ← phase.step r.stopping wakening r.inst
      return { r with inst := inst, threads := r.threads.set thread phase }

/-- The steps of a list of moves against a switch, after a history of earlier events. -/
def course (switch : Switch) : List RosterMove → Roster → List Event → List RosterStep
  | [], _, _ => []
  | move :: rest, r, past =>
    let outcome := (r.make move).run switch past
    ⟨r, move, outcome.events, outcome.value⟩ ::
      course switch rest outcome.value (past ++ outcome.events)

/-- A thread of the roster goes on as it does by itself. -/
theorem make_wake (h : r.threads[thread]? = some phase) (wakening : Wakening) :
    r.make (.wake thread wakening) = do
      let (phase, inst) ← phase.step r.stopping wakening r.inst
      return { r with inst := inst, threads := r.threads.set thread phase } := by
  simp only [make, h]

section Poller

/-- A poller is what is to be seen of a roster: the instance and the thread that was started and not
stopped since. All other threads have ended. -/
structure Shows (r : Roster) (p : Poller) : Prop where
  inst_eq : p.inst = r.inst
  stopping_eq : p.stopping = r.stopping
  thread_eq : p.thread = r.current.bind fun thread => r.threads[thread]?
  valid : ∀ thread, r.current = some thread → thread < r.threads.length
  ended : ∀ thread phase, r.threads[thread]? = some phase → r.current ≠ some thread →
    phase = .ended

theorem shows_initial (name : String) (profile : Profile) :
    (initial name profile).Shows (Poller.initial name profile) where
  inst_eq := rfl
  stopping_eq := rfl
  thread_eq := rfl
  valid _ h := by cases h
  ended _ _ h := by cases h

/-- The thread of the poller is there exactly if one was started and not stopped since. -/
theorem Shows.hasThread_eq (h : r.Shows p) : p.hasThread = r.current.isSome := by
  rw [Poller.hasThread, h.thread_eq]
  cases hcurrent : r.current with
  | none => rfl
  | some thread =>
    rw [Option.bind_some, List.getElem?_eq_getElem (h.valid thread hcurrent)]
    rfl

/-- A control call on the poller is one on its roster. -/
theorem Shows.perform (h : r.Shows p) (call : Control) (switch : Switch) (past : List Event) :
    ((r.make (.control call)).run switch past).value.Shows
      ((p.perform call).run switch past).value := by
  rw [make, Poller.perform, Dialogue.value_run_bind, Dialogue.value_run_bind, h.inst_eq]
  exact ⟨rfl, h.stopping_eq, h.thread_eq, h.valid, h.ended⟩

/-- The start of the poller is the start of its roster. -/
theorem Shows.start (h : r.Shows p) (switch : Switch) (past : List Event) :
    ((r.make .start).run switch past).value.Shows p.start := by
  rw [make, Dialogue.pure_eq_done, Dialogue.run_done, Poller.start, h.hasThread_eq]
  by_cases hcurrent : r.current.isSome = true
  · rwa [if_pos hcurrent, if_pos hcurrent]
  · rw [if_neg hcurrent, if_neg hcurrent]
    have hnone : r.current = none := Option.not_isSome_iff_eq_none.mp hcurrent
    refine ⟨h.inst_eq, rfl, ?_, ?_, ?_⟩
    · rw [Option.bind_some, List.getElem?_concat_length]
    · rintro _ ⟨⟩
      rw [List.length_append]
      exact Nat.lt_succ_self _
    · intro thread phase hphase hother
      have hne : thread ≠ r.threads.length := fun heq => hother (heq ▸ rfl)
      have hlt : thread < r.threads.length := by
        have hvalid := (List.getElem?_eq_some_iff.mp hphase).1
        rw [List.length_append, List.length_singleton] at hvalid
        omega
      rw [List.getElem?_append_left hlt] at hphase
      exact h.ended thread phase hphase (hnone ▸ nofun)

/-- The stop of the poller is the stop of its roster, after which its thread goes on and sees it. -/
theorem Shows.stop (h : r.Shows p) (hcurrent : r.current = some thread) (wakening : Wakening)
    (switch : Switch) (past : List Event) :
    ((do (← r.make .stop).make (.wake thread wakening)).run switch past).value.Shows p.stop := by
  have hvalid := h.valid thread hcurrent
  have hthread : p.hasThread = true := by rw [h.hasThread_eq, hcurrent, Option.isSome_some]
  obtain ⟨phase, hphase⟩ : ∃ phase, r.threads[thread]? = some phase :=
    ⟨_, List.getElem?_eq_getElem hvalid⟩
  have hstopped : r.make .stop = return { r with stopping := true, current := none } := by
    rw [make, hcurrent]
    rfl
  have hends : phase.step true wakening r.inst = return (.ended, r.inst) := by
    rcases phase.step_cases true wakening r.inst with ⟨hdue, -⟩ | ⟨next, hidles, heq⟩
    · cases hdue.not_stopping
    · rw [heq, hidles.ended (.inr rfl)]
  have htold : ({ r with stopping := true, current := none } : Roster).threads[thread]? =
      some phase := hphase
  rw [hstopped, pure_bind, make_wake htold, hends, pure_bind, Poller.stop, if_pos hthread]
  refine ⟨h.inst_eq, rfl, rfl, nofun, fun other phase' hother _ => ?_⟩
  change (r.threads.set thread .ended)[other]? = some phase' at hother
  by_cases hsame : thread = other
  · subst hsame
    rw [List.getElem?_set_self hvalid] at hother
    exact (Option.some.inj hother).symm
  · rw [List.getElem?_set_ne hsame] at hother
    exact h.ended other phase' hother fun heq => hsame (Option.some.inj (hcurrent.symm.trans heq))

/-- The thread of the poller goes on as its thread in the roster does. -/
theorem Shows.wake (h : r.Shows p) (hcurrent : r.current = some thread) (wakening : Wakening)
    (switch : Switch) (past : List Event) :
    ((r.make (.wake thread wakening)).run switch past).value.Shows
      ((p.wake wakening).run switch past).value := by
  have hvalid := h.valid thread hcurrent
  obtain ⟨phase, hphase⟩ : ∃ phase, r.threads[thread]? = some phase :=
    ⟨_, List.getElem?_eq_getElem hvalid⟩
  have hthread : p.thread = some phase := by
    rw [h.thread_eq, hcurrent, Option.bind_some, hphase]
  rw [make_wake hphase, Poller.wake, hthread, Dialogue.value_run_bind, Dialogue.value_run_bind,
    h.inst_eq, h.stopping_eq]
  obtain ⟨⟨next, inst⟩, events⟩ := (phase.step r.stopping wakening r.inst).run switch past
  refine ⟨rfl, rfl, ?_, fun other hother => ?_, fun other phase' hother hne => ?_⟩
  · change some next = r.current.bind fun other => (r.threads.set thread next)[other]?
    rw [hcurrent, Option.bind_some, List.getElem?_set_self hvalid]
  · change other < (r.threads.set thread next).length
    rw [List.length_set]
    exact h.valid other hother
  · change (r.threads.set thread next)[other]? = some phase' at hother
    have hsame : thread ≠ other := fun heq => hne (heq ▸ hcurrent)
    rw [List.getElem?_set_ne hsame] at hother
    exact h.ended other phase' hother hne

end Poller

end Roster

end CounterPolling
