import CounterPolling.Dialogue

/-!
# Statements about every branch of a dialogue

A statement that holds at the end of every branch holds of every run, whatever the switch
answers. A switch that never changes makes the run independent of what happened before.
Main statements: `Always.value` and `run_unchanging`.
-/

namespace CounterPolling

namespace Dialogue

variable {α β : Type}

/-- A statement holds of the value at the end of every branch. -/
def Always (P : α → Prop) : Dialogue α → Prop
  | done value => P value
  | ask _ next => ∀ answer, Always P (next answer)
  | tell _ next => Always P next

@[simp]
theorem always_pure (P : α → Prop) (value : α) :
    (pure value : Dialogue α).Always P ↔ P value := Iff.rfl

/-- Every branch of a sequence is a branch of the first part with one of the second. -/
@[simp]
theorem always_bind (P : β → Prop) (dialogue : Dialogue α) (f : α → Dialogue β) :
    (dialogue >>= f).Always P ↔ dialogue.Always fun value => (f value).Always P := by
  induction dialogue with
  | done value => rfl
  | ask request next ih => exact forall_congr' ih
  | tell output next ih => exact ih

/-- A statement about a changed value is one about the value before the change. -/
@[simp]
theorem always_map (P : β → Prop) (f : α → β) (dialogue : Dialogue α) :
    (f <$> dialogue).Always P ↔ dialogue.Always fun value => P (f value) := by
  rw [map_eq_pure_bind, always_bind]
  rfl

theorem Always.mono {P Q : α → Prop} {dialogue : Dialogue α} (h : dialogue.Always P)
    (hPQ : ∀ value, P value → Q value) : dialogue.Always Q := by
  induction dialogue with
  | done value => exact hPQ value h
  | ask request next ih => exact fun answer => ih answer (h answer)
  | tell output next ih => exact ih h

theorem Always.and {P Q : α → Prop} {dialogue : Dialogue α} (hP : dialogue.Always P)
    (hQ : dialogue.Always Q) : dialogue.Always fun value => P value ∧ Q value := by
  induction dialogue with
  | done value => exact ⟨hP, hQ⟩
  | ask request next ih => exact fun answer => ih answer (hP answer) (hQ answer)
  | tell output next ih => exact ih hP hQ

theorem always_of_forall {P : α → Prop} (h : ∀ value, P value) (dialogue : Dialogue α) :
    dialogue.Always P := by
  induction dialogue with
  | done value => exact h value
  | ask request next ih => exact ih
  | tell output next ih => exact ih

/-- It is enough to look at the second part of a sequence, whatever the first comes to. -/
theorem always_bind_of_forall {P : β → Prop} {dialogue : Dialogue α} {f : α → Dialogue β}
    (h : ∀ value, (f value).Always P) : (dialogue >>= f).Always P :=
  (always_bind P dialogue f).mpr (always_of_forall h dialogue)

/-- What the first part of a sequence comes to may be used for the second. -/
theorem Always.bind {P : β → Prop} {Q : α → Prop} {dialogue : Dialogue α}
    {f : α → Dialogue β} (h : dialogue.Always Q) (hf : ∀ value, Q value → (f value).Always P) :
    (dialogue >>= f).Always P :=
  (always_bind P dialogue f).mpr (h.mono hf)

/-- What holds at the end of every branch holds of every run. -/
theorem Always.value {P : α → Prop} {dialogue : Dialogue α} (h : dialogue.Always P)
    (switch : Switch) (past : List Event) : P (dialogue.run switch past).value := by
  induction dialogue generalizing past with
  | done value => exact h
  | ask request next ih => exact ih _ (h _) _
  | tell output next ih => exact ih h _

/-- What each step of a list keeps in every branch, the whole list keeps. -/
theorem Always.carry {P : β → Prop} {step : β → α → Dialogue β} {items : List α}
    (hstep : ∀ value, P value → ∀ item ∈ items, (step value item).Always P) {start : β}
    (h : P start) : (carry step start items).Always P := by
  induction items generalizing start with
  | nil => exact h
  | cons item rest ih =>
    have hrest : ∀ value, P value → ∀ other ∈ rest, (step value other).Always P :=
      fun value hvalue other hother => hstep value hvalue other (List.mem_cons_of_mem _ hother)
    exact (hstep start h item List.mem_cons_self).bind fun value hvalue => ih hrest hvalue

/-- A value may be changed before it is carried through a list or after it. -/
theorem carry_map {γ : Type} {step : β → α → Dialogue β} {step' : γ → α → Dialogue γ} {f : β → γ}
    (h : ∀ value item, step' (f value) item = f <$> step value item) (start : β)
    (items : List α) : carry step' (f start) items = f <$> carry step start items := by
  induction items generalizing start with
  | nil => rfl
  | cons item rest ih =>
    rw [carry, carry, h, map_bind, bind_map_left]
    exact bind_congr fun value => ih value

/-- Sequences agree if their second parts do at the end of every branch of the first. -/
theorem Always.bind_congr {P : α → Prop} {dialogue : Dialogue α} (h : dialogue.Always P)
    {f f' : α → Dialogue β} (hf : ∀ value, P value → f value = f' value) :
    dialogue >>= f = dialogue >>= f' := by
  induction dialogue with
  | done value => exact hf value h
  | ask request next ih => exact congrArg (ask request) (funext fun answer => ih answer (h answer))
  | tell output next ih => exact congrArg (tell output) (ih h)

/-- The value of a sequence is the value of its second part, run after its first. -/
theorem value_run_bind (switch : Switch) (dialogue : Dialogue α) (f : α → Dialogue β)
    (past : List Event) :
    ((dialogue >>= f).run switch past).value =
      ((f (dialogue.run switch past).value).run switch
        (past ++ (dialogue.run switch past).events)).value := by
  rw [run_bind]

/-- The value of a changed dialogue is the changed value. -/
theorem value_run_map (switch : Switch) (f : α → β) (dialogue : Dialogue α)
    (past : List Event) :
    ((f <$> dialogue).run switch past).value = f (dialogue.run switch past).value := by
  rw [map_eq_pure_bind, value_run_bind]
  rfl

/-- The events of a sequence are those of its first part and then those of its second. -/
theorem events_run_bind (switch : Switch) (dialogue : Dialogue α) (f : α → Dialogue β)
    (past : List Event) :
    ((dialogue >>= f).run switch past).events =
      (dialogue.run switch past).events ++
        ((f (dialogue.run switch past).value).run switch
          (past ++ (dialogue.run switch past).events)).events := by
  rw [run_bind]

@[simp]
theorem run_question (switch : Switch) (request : Request) (past : List Event) :
    (question request).run switch past =
      ⟨switch past request, [.answered request (switch past request)]⟩ := rfl

/-- Against a switch that never changes it does not matter what happened before. -/
theorem run_unchanging (driver : Driver) (dialogue : Dialogue α) (past : List Event) :
    dialogue.run (.unchanging driver) past = dialogue.run (.unchanging driver) [] := by
  suffices h : ∀ past later : List Event,
      dialogue.run (.unchanging driver) past = dialogue.run (.unchanging driver) later from
    h past []
  induction dialogue with
  | done value => exact fun _ _ => rfl
  | ask request next ih =>
    intro past later
    have hnext := ih (driver request) (past ++ [.answered request (driver request)])
      (later ++ [.answered request (driver request)])
    simp only [run, Switch.unchanging] at hnext ⊢
    rw [hnext]
  | tell output next ih =>
    intro past later
    have hnext := ih (past ++ [.handedOut output]) (later ++ [.handedOut output])
    simp only [run] at hnext ⊢
    rw [hnext]

/-- The value that a dialogue comes to with a driver that never changes. -/
def valueWith (driver : Driver) (dialogue : Dialogue α) : α :=
  (dialogue.run (.unchanging driver) []).value

@[simp]
theorem valueWith_pure (driver : Driver) (value : α) :
    (pure value : Dialogue α).valueWith driver = value := rfl

@[simp]
theorem valueWith_question (driver : Driver) (request : Request) :
    (question request).valueWith driver = driver request := rfl

@[simp]
theorem valueWith_bind (driver : Driver) (dialogue : Dialogue α) (f : α → Dialogue β) :
    (dialogue >>= f).valueWith driver = (f (dialogue.valueWith driver)).valueWith driver := by
  unfold valueWith
  rw [value_run_bind, run_unchanging]

@[simp]
theorem valueWith_map (driver : Driver) (f : α → β) (dialogue : Dialogue α) :
    (f <$> dialogue).valueWith driver = f (dialogue.valueWith driver) :=
  value_run_map _ f dialogue []

end Dialogue

end CounterPolling
