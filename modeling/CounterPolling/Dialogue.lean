import CounterPolling.Notice
import CounterPolling.Switch.Driver

/-!
# Dialogues with a switch

What polling does is a dialogue: a tree of questions to the driver, each branching on the
answer, with outputs in between and a value at the end. A dialogue decides nothing about
the answers, so a statement about all of its branches holds of every switch.

A switch is the driver it has after any history. Running a dialogue against a switch
gives the value at the end of the branch that the switch chooses, and the events on the
way, each question together with its answer.
-/

namespace CounterPolling

/-- Something that polling hands out. -/
inductive Output
  /-- A row of the counters table: its key, and values by field. -/
  | row (key : String) (fields : List (String × String))
  /-- The rows written so far are to be committed. -/
  | flush
  /-- A plugin is to run over objects, with arguments. -/
  | plugin (name : String) (objects arguments : List String)
  /-- A line of the log. -/
  | notice (notice : Notice)
  deriving DecidableEq

/-- One thing that happened: a question was answered, or an output was handed out. -/
inductive Event
  | answered (request : Request) (answer : request.Answer)
  | handedOut (output : Output)

/-- A switch over time: the driver it has after what happened before. -/
abbrev Switch : Type := List Event → Driver

namespace Switch

/-- A switch whose driver never changes. -/
def unchanging (driver : Driver) : Switch := fun _ => driver

end Switch

/-- A computation that puts questions to a driver and hands out outputs. -/
inductive Dialogue (α : Type) : Type
  /-- The dialogue is over. -/
  | done (value : α)
  /-- A question, and how to go on with each answer. -/
  | ask (request : Request) (next : request.Answer → Dialogue α)
  /-- An output, and how to go on. -/
  | tell (output : Output) (next : Dialogue α)

namespace Dialogue

variable {α β : Type}

/-- Goes on with the value at the end of every branch. -/
def bind : Dialogue α → (α → Dialogue β) → Dialogue β
  | done value, f => f value
  | ask request next, f => ask request fun answer => bind (next answer) f
  | tell output next, f => tell output (bind next f)

instance : Monad Dialogue where
  pure := done
  bind := bind

@[simp]
theorem pure_eq_done (value : α) : (pure value : Dialogue α) = done value := rfl

@[simp]
theorem done_bind (value : α) (f : α → Dialogue β) : done value >>= f = f value := rfl

@[simp]
theorem ask_bind (request : Request) (next : request.Answer → Dialogue α)
    (f : α → Dialogue β) :
    ask request next >>= f = ask request fun answer => next answer >>= f := rfl

@[simp]
theorem tell_bind (output : Output) (next : Dialogue α) (f : α → Dialogue β) :
    tell output next >>= f = tell output (next >>= f) := rfl

theorem bind_done (dialogue : Dialogue α) : dialogue >>= done = dialogue := by
  induction dialogue with
  | done value => rfl
  | ask request next ih => simp [ih]
  | tell output next ih => simp [ih]

theorem bind_bind {γ : Type} (dialogue : Dialogue α) (f : α → Dialogue β)
    (g : β → Dialogue γ) :
    (dialogue >>= f) >>= g = dialogue >>= fun value => f value >>= g := by
  induction dialogue with
  | done value => rfl
  | ask request next ih => simp [ih]
  | tell output next ih => simp [ih]

instance : LawfulMonad Dialogue :=
  LawfulMonad.mk' Dialogue
    (fun dialogue => bind_done dialogue)
    (fun _ _ => rfl)
    (fun dialogue f g => bind_bind dialogue f g)

/-- Puts one question and ends with its answer. -/
def question (request : Request) : Dialogue request.Answer :=
  ask request done

/-- Hands out one output. -/
def output (out : Output) : Dialogue Unit :=
  tell out (done ())

/-- Reports a notice. -/
def report (notice : Notice) : Dialogue Unit :=
  output (.notice notice)

/-- Runs a dialogue for each member of a list, in order. -/
def each (act : α → Dialogue Unit) : List α → Dialogue Unit
  | [] => done ()
  | a :: rest => do
    act a
    each act rest

/-- Carries a value through a list, one dialogue for each member, in order. -/
def carry (step : β → α → Dialogue β) (start : β) : List α → Dialogue β
  | [] => done start
  | a :: rest => do
    carry step (← step start a) rest

/-- The value at the end of a run, and the events of the run in order. -/
structure Outcome (α : Type) where
  value : α
  events : List Event

/-- Runs a dialogue against a switch, after a history of earlier events. -/
def run (switch : Switch) : Dialogue α → List Event → Outcome α
  | done value, _ => ⟨value, []⟩
  | ask request next, past =>
    let answer := switch past request
    let rest := run switch (next answer) (past ++ [.answered request answer])
    ⟨rest.value, .answered request answer :: rest.events⟩
  | tell output next, past =>
    let rest := run switch next (past ++ [.handedOut output])
    ⟨rest.value, .handedOut output :: rest.events⟩

@[simp]
theorem run_done (switch : Switch) (value : α) (past : List Event) :
    (done value).run switch past = ⟨value, []⟩ := rfl

/-- The run of a sequence is the run of its first part and, after it, that of the second. -/
theorem run_bind (switch : Switch) (dialogue : Dialogue α) (f : α → Dialogue β)
    (past : List Event) :
    (dialogue >>= f).run switch past =
      let first := dialogue.run switch past
      let second := (f first.value).run switch (past ++ first.events)
      ⟨second.value, first.events ++ second.events⟩ := by
  induction dialogue generalizing past with
  | done value => simp
  | ask request next ih => simp [run, ih]
  | tell output next ih => simp [run, ih]

end Dialogue

end CounterPolling
