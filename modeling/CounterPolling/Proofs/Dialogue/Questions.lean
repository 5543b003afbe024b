import CounterPolling.Proofs.Dialogue.Transcript

/-!
# Statements about the questions of a branch

What a dialogue asks may be told together with what it comes to, branch by branch. Outputs do not
count. Main statements: `along_bind`, by which the questions of a sequence are those of its parts in
turn, and `Along.run`, by which a statement about branches holds of runs.
-/

namespace CounterPolling

namespace Event

/-- A question was answered. -/
def isAnswer : Event → Bool
  | answered .. => true
  | handedOut _ => false

end Event

/-- The questions among events, each with its answer. -/
def questionsOf (events : List Event) : List Event :=
  events.filter Event.isAnswer

namespace Dialogue

variable {α β : Type}

/-- A statement holds, at the end of every branch, of the questions of the branch and its value. -/
def Along : Dialogue α → (List Event → α → Prop) → Prop
  | done value, P => P [] value
  | ask request next, P => ∀ answer,
    (next answer).Along fun asked value => P (.answered request answer :: asked) value
  | tell _ next, P => next.Along P

@[simp]
theorem along_pure (P : List Event → α → Prop) (value : α) :
    (pure value : Dialogue α).Along P ↔ P [] value := Iff.rfl

@[simp]
theorem along_question {request : Request} (P : List Event → request.Answer → Prop) :
    (question request).Along P ↔ ∀ answer, P [.answered request answer] answer := Iff.rfl

theorem Along.mono {P Q : List Event → α → Prop} {dialogue : Dialogue α} (h : dialogue.Along P)
    (hPQ : ∀ asked value, P asked value → Q asked value) : dialogue.Along Q := by
  induction dialogue generalizing P Q with
  | done value => exact hPQ [] value h
  | ask request next ih => exact fun answer => ih answer (h answer) fun asked => hPQ _
  | tell output next ih => exact ih h hPQ

/-- Every branch of a sequence asks what a branch of its first part asks, and then what one of its
second part does. -/
@[simp]
theorem along_bind (P : List Event → β → Prop) (dialogue : Dialogue α) (f : α → Dialogue β) :
    (dialogue >>= f).Along P ↔ dialogue.Along fun asked value =>
      (f value).Along fun later result => P (asked ++ later) result := by
  induction dialogue generalizing P with
  | done value => rfl
  | ask request next ih => exact forall_congr' fun answer => ih answer _
  | tell output next ih => exact ih P

@[simp]
theorem along_map (P : List Event → β → Prop) (f : α → β) (dialogue : Dialogue α) :
    (f <$> dialogue).Along P ↔ dialogue.Along fun asked value => P asked (f value) := by
  rw [map_eq_pure_bind, along_bind]
  simp only [along_pure, List.append_nil]

/-- What the first part of a sequence asks and comes to may be used for the second. -/
theorem Along.bind {P : List Event → β → Prop} {Q : List Event → α → Prop}
    {dialogue : Dialogue α} {f : α → Dialogue β} (h : dialogue.Along Q)
    (hf : ∀ asked value, Q asked value →
      (f value).Along fun later result => P (asked ++ later) result) :
    (dialogue >>= f).Along P :=
  (along_bind P dialogue f).mpr (h.mono hf)

/-- A statement about the values of all branches is one that does not look at their questions. -/
theorem Always.along {P : α → Prop} {dialogue : Dialogue α} (h : dialogue.Always P) :
    dialogue.Along fun _ value => P value := by
  induction dialogue with
  | done value => exact h
  | ask request next ih => exact fun answer => ih answer (h answer)
  | tell output next ih => exact ih h

theorem Along.and {P Q : List Event → α → Prop} {dialogue : Dialogue α} (hP : dialogue.Along P)
    (hQ : dialogue.Along Q) : dialogue.Along fun asked value => P asked value ∧ Q asked value := by
  induction dialogue generalizing P Q with
  | done value => exact ⟨hP, hQ⟩
  | ask request next ih => exact fun answer => ih answer (hP answer) (hQ answer)
  | tell output next ih => exact ih hP hQ

/-- What holds of the questions and the value of every branch holds of those of every run. -/
theorem Along.run {P : List Event → α → Prop} {dialogue : Dialogue α} (h : dialogue.Along P)
    (switch : Switch) (past : List Event) :
    P (questionsOf (dialogue.run switch past).events) (dialogue.run switch past).value := by
  induction dialogue generalizing P past with
  | done value => exact h
  | ask request next ih => exact ih _ (h _) _
  | tell output next ih => exact ih h _

/-- Every question that a dialogue asks is of one kind. -/
def AsksOnly (kind : Event → Prop) (dialogue : Dialogue α) : Prop :=
  dialogue.Along fun asked _ => ∀ event ∈ asked, kind event

section AsksOnly

variable {kind : Event → Prop}

theorem asksOnly_pure (value : α) : (pure value : Dialogue α).AsksOnly kind :=
  fun _ hevent => absurd hevent List.not_mem_nil

theorem asksOnly_output (out : Output) : (output out).AsksOnly kind :=
  fun _ hevent => absurd hevent List.not_mem_nil

theorem asksOnly_question {request : Request}
    (h : ∀ answer, kind (.answered request answer)) : (question request).AsksOnly kind := by
  intro answer event hevent
  rw [List.mem_singleton.mp hevent]
  exact h answer

theorem AsksOnly.bind {dialogue : Dialogue α} {f : α → Dialogue β} (h : dialogue.AsksOnly kind)
    (hf : ∀ value, (f value).AsksOnly kind) : (dialogue >>= f).AsksOnly kind := by
  refine Along.bind h fun asked value hasked => (hf value).mono fun later _ hlater => ?_
  exact List.forall_mem_append.mpr ⟨hasked, hlater⟩

theorem asksOnly_each {act : β → Dialogue Unit} (h : ∀ item, (act item).AsksOnly kind)
    (items : List β) : (each act items).AsksOnly kind := by
  induction items with
  | nil => exact asksOnly_pure ()
  | cons item rest ih => exact (h item).bind fun _ => ih

theorem asksOnly_carry {step : β → α → Dialogue β}
    (h : ∀ value item, (step value item).AsksOnly kind) (start : β) (items : List α) :
    (carry step start items).AsksOnly kind := by
  induction items generalizing start with
  | nil => exact asksOnly_pure start
  | cons item rest ih => exact (h start item).bind ih

end AsksOnly

end Dialogue

end CounterPolling
