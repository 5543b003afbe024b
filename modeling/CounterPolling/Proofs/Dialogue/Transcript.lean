import CounterPolling.Proofs.Dialogue.Branches

/-!
# What the events of a run say

Which counters were read and which fields were written can be told from the events alone. A
run that serves one call after the other leaves events that fall into blocks, one for each
call, and what holds of the blocks adds up. Main statements: `inTurn_each`, and
`InTurn.flatMap_eq`, by which the reads of the calls settle in turn what is written.
-/

namespace CounterPolling

namespace Event

/-- Counters were read, of one object or of many rows. -/
def isRead : Event → Bool
  | answered (.read ..) _ | answered (.bulkRead ..) _ => true
  | _ => false

/-- The question that was answered. -/
def request? : Event → Option Request
  | answered request _ => some request
  | handedOut _ => none

/-- The fields that were written: the key of the row, the name of the field, and its value. -/
def written : Event → List (String × String × String)
  | handedOut (.row key fields) => fields.map fun field => (key, field)
  | _ => []

/-- The values that an answer delivers for a row of its read: those of an object, if they are
complete, or those of a row of a bulk read, if it was successful. -/
def values? : Event → Nat → Option (List UInt64)
  | answered (.read _ _ ids) (.ok values), 0 =>
    if values.length = ids.length then some values else none
  | answered (.bulkRead _ _ ids _) (.ok fill), row =>
    if fill.status row = some .success then some (fill.counters ids.length row) else none
  | _, _ => none

end Event

/-- The reads of counters among events. -/
def readsOf (events : List Event) : List Event :=
  events.filter Event.isRead

/-- The fields written by events. -/
def fieldsOf (events : List Event) : List (String × String × String) :=
  events.flatMap Event.written

@[simp]
theorem readsOf_append (events later : List Event) :
    readsOf (events ++ later) = readsOf events ++ readsOf later :=
  List.filter_append _ _

@[simp]
theorem fieldsOf_append (events later : List Event) :
    fieldsOf (events ++ later) = fieldsOf events ++ fieldsOf later :=
  List.flatMap_append

@[simp]
theorem readsOf_handedOut (outputs : List Output) :
    readsOf (outputs.map Event.handedOut) = [] := by
  unfold readsOf
  rw [List.filter_eq_nil_iff]
  intro event hevent
  obtain ⟨out, -, rfl⟩ := List.mem_map.mp hevent
  simp [Event.isRead]

variable {α β : Type}

/-- What is paired of two lists stands at one position in both. -/
theorem mem_zip_iff_getElem? {calls : List α} {reads : List β} {call : α} {read : β} :
    (call, read) ∈ calls.zip reads ↔ ∃ n : Nat, calls[n]? = some call ∧ reads[n]? = some read := by
  simp only [List.mem_iff_getElem?, List.getElem?_zip_eq_some]

/-- Events that fall into blocks, one for each call in turn. -/
inductive InTurn (P : α → List Event → Prop) : List α → List Event → Prop
  | nil : InTurn P [] []
  | cons {call : α} {calls : List α} {block events : List Event} :
    P call block → InTurn P calls events → InTurn P (call :: calls) (block ++ events)

namespace InTurn

variable {P : α → List Event → Prop} {calls calls' : List α} {events events' : List Event}

theorem one {call : α} {block : List Event} (h : P call block) : InTurn P [call] block := by
  have hcons := InTurn.cons h (InTurn.nil (P := P))
  rwa [List.append_nil] at hcons

theorem append (h : InTurn P calls events) (h' : InTurn P calls' events') :
    InTurn P (calls ++ calls') (events ++ events') := by
  induction h with
  | nil => exact h'
  | cons hblock _ ih =>
    rw [List.append_assoc]
    exact .cons hblock ih

/-- Blocks that serve calls in one sense serve what these stand for in another one. -/
theorem map {γ : Type} {f : α → γ} {Q : γ → List Event → Prop}
    (hPQ : ∀ call block, P call block → Q (f call) block) (h : InTurn P calls events) :
    InTurn Q (calls.map f) events := by
  induction h with
  | nil => exact .nil
  | cons hblock _ ih => exact .cons (hPQ _ _ hblock) ih

/-- If each block has the one read that its call asks for, the reads are those asked for. -/
theorem requests {request : α → Request}
    (hP : ∀ call block, P call block →
      ∃ event, readsOf block = [event] ∧ event.request? = some (request call))
    (h : InTurn P calls events) :
    (readsOf events).map Event.request? = calls.map fun call => some (request call) := by
  induction h with
  | nil => rfl
  | cons hblock _ ih =>
    obtain ⟨event, hreads, hrequest⟩ := hP _ _ hblock
    rw [readsOf_append, hreads, List.singleton_append, List.map_cons, List.map_cons, ih, hrequest]

/-- If what each block shows is settled by its one read, so is what all of them show. -/
theorem flatMap_eq {γ : Type} {view : Event → List γ} {delivered : α → Event → List γ}
    (hP : ∀ call block, P call block →
      ∃ event, readsOf block = [event] ∧ block.flatMap view = delivered call event)
    (h : InTurn P calls events) :
    events.flatMap view =
      (calls.zip (readsOf events)).flatMap fun entry => delivered entry.1 entry.2 := by
  induction h with
  | nil => rfl
  | cons hblock _ ih =>
    obtain ⟨event, hreads, hview⟩ := hP _ _ hblock
    rw [readsOf_append, hreads, List.singleton_append, List.zip_cons_cons, List.flatMap_cons,
      List.flatMap_append, hview, ih]

/-- An event of the whole is an event of the block of a call, after the blocks before it. -/
theorem exists_block (h : InTurn P calls events) {before after : List Event} {event : Event}
    (hsplit : events = before ++ event :: after) :
    ∃ done call rest front start finish, calls = done ++ call :: rest ∧
      InTurn P done front ∧ before = front ++ start ∧
      P call (start ++ event :: finish) := by
  induction h generalizing before with
  | nil => exact absurd hsplit.symm (by simp)
  | @cons call calls block events hblock hrest ih =>
    rcases List.append_eq_append_iff.mp hsplit with
      ⟨front, hbefore, hevents⟩ | ⟨back, hblock', hafter⟩
    · obtain ⟨done, call', rest, front', start, finish, hcalls, hdone, hfront, hP⟩ := ih hevents
      refine ⟨call :: done, call', rest, block ++ front', start, finish, ?_, .cons hblock hdone,
        ?_, hP⟩
      · rw [hcalls, List.cons_append]
      · rw [hbefore, hfront, List.append_assoc]
    · cases back with
      | nil =>
        have hevents : events = [] ++ event :: after := by simpa using hafter.symm
        obtain ⟨done, call', rest, front', start, finish, hcalls, hdone, hfront, hP⟩ := ih hevents
        refine ⟨call :: done, call', rest, block ++ front', start, finish, ?_,
          .cons hblock hdone, ?_, hP⟩
        · rw [hcalls, List.cons_append]
        · rw [List.append_assoc, ← hfront, hblock']
          simp
      | cons first back =>
        obtain ⟨rfl, hback⟩ := List.cons.inj hafter
        refine ⟨[], call, calls, [], before, back, rfl, .nil, rfl, ?_⟩
        rw [← hblock']
        exact hblock

end InTurn

namespace Dialogue

/-- A dialogue for each member of a list, each of which serves calls in turn, serves all of
them in turn. -/
theorem inTurn_each {P : α → List Event → Prop} {act : β → Dialogue Unit} {calls : β → List α}
    {switch : Switch} {items : List β}
    (h : ∀ item ∈ items, ∀ past, InTurn P (calls item) ((act item).run switch past).events)
    (past : List Event) :
    InTurn P (items.flatMap calls) ((each act items).run switch past).events := by
  induction items generalizing past with
  | nil => exact .nil
  | cons item rest ih =>
    obtain ⟨hitem, hrest⟩ := List.forall_mem_cons.mp h
    rw [each, events_run_bind, List.flatMap_cons]
    exact (hitem past).append (ih hrest _)

/-- A value that is carried through a list follows another one that each member changes, if it
does so step by step as long as nothing bad happens. -/
theorem carry_follows {γ : Type} {R : γ → β → Prop} {change : γ → α → γ} {bad : Event → Prop}
    {step : β → α → Dialogue β} {switch : Switch} {items : List α}
    (hstep : ∀ state value, R state value → ∀ item ∈ items, ∀ past,
      (∀ event ∈ ((step value item).run switch past).events, ¬ bad event) →
      R (change state item) ((step value item).run switch past).value)
    {state : γ} {start : β} (h : R state start) {past : List Event}
    (hgood : ∀ event ∈ ((carry step start items).run switch past).events, ¬ bad event) :
    R (items.foldl change state) ((carry step start items).run switch past).value := by
  induction items generalizing state start past with
  | nil => exact h
  | cons item rest ih =>
    rw [carry, events_run_bind, List.forall_mem_append] at hgood
    obtain ⟨hfirst, hrest⟩ := hgood
    rw [carry, value_run_bind, List.foldl_cons]
    refine ih (fun state value hvalue other hother => ?_) ?_ hrest
    · exact hstep state value hvalue other (List.mem_cons_of_mem _ hother)
    · exact hstep state start h item List.mem_cons_self past hfirst

/-- Handing out something for each member of a list. -/
theorem events_each_output {act : β → Output} (switch : Switch) (items : List β)
    (past : List Event) :
    ((each (fun item => output (act item)) items).run switch past).events =
      (items.map act).map Event.handedOut := by
  induction items generalizing past with
  | nil => rfl
  | cons item rest ih =>
    rw [each, events_run_bind, ih]
    rfl

end Dialogue

end CounterPolling
