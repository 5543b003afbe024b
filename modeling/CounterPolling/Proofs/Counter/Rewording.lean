import CounterPolling.Counter.Id
import Mathlib.Data.List.Basic
import Mathlib.Data.List.TakeWhile

/-!
# Lists of names that ask for the same counters

In a list of names the order does not matter, nor how often a name stands in it, nor white space
around a name, nor names that are blank or that the family does not know. Main statement:
`Rewords.mem_requested_iff`.
-/

namespace CounterPolling

namespace Text

/-- White space before a text is trimmed. -/
theorem trimChars_append_left {blanks cs : List Char} (h : ∀ c ∈ blanks, isBlank c = true) :
    trimChars (blanks ++ cs) = trimChars cs := by
  unfold trimChars
  rw [List.dropWhile_append_of_pos h]

/-- White space behind a text is trimmed. -/
theorem trimChars_append_right {blanks cs : List Char} (h : ∀ c ∈ blanks, isBlank c = true) :
    trimChars (cs ++ blanks) = trimChars cs := by
  have hblanks : blanks.dropWhile isBlank = [] := List.dropWhile_eq_nil_iff.mpr h
  unfold trimChars
  rw [List.dropWhile_append]
  split
  · next hnone => rw [hblanks, List.isEmpty_iff.mp hnone]
  · have hback : ∀ c ∈ blanks.reverse, isBlank c = true := by
      intro c hc
      exact h c (List.mem_reverse.mp hc)
    rw [List.reverse_append, List.dropWhile_append_of_pos hback]

/-- A text keeps its trimmed form when white space is put around it. -/
theorem trim_pad {before after : String} (name : String)
    (hbefore : ∀ c ∈ before.toList, isBlank c = true)
    (hafter : ∀ c ∈ after.toList, isBlank c = true) :
    trim (before ++ name ++ after) = trim name := by
  rw [trim, String.toList_append, String.toList_append, trimChars_append_right hafter,
    trimChars_append_left hbefore, ← trim]

/-- A blank text is empty once it is trimmed. -/
theorem trim_blank {name : String} (h : ∀ c ∈ name.toList, isBlank c = true) : trim name = "" := by
  have hnil : name.toList.dropWhile isBlank = [] := List.dropWhile_eq_nil_iff.mpr h
  rw [trim, trimChars, hnil]
  rfl

end Text

variable {family : CounterFamily}

/-- A list of names is another one in other words: reordered, with names repeated, with white space
around names, with unknown or blank names added, or several of these, or the other way round. -/
inductive Rewords (family : CounterFamily) : List String → List String → Prop
  | reorder {names names' : List String} : names.Perm names' → Rewords family names names'
  | repeated (name : String) (names : List String) :
    Rewords family (name :: names) (name :: name :: names)
  | pad {before after : String} (name : String) (names : List String) :
    (∀ c ∈ before.toList, Text.isBlank c = true) → (∀ c ∈ after.toList, Text.isBlank c = true) →
    Rewords family (name :: names) ((before ++ name ++ after) :: names)
  | unknown {name : String} (names : List String) :
    (CounterId.ofName? (Text.trim name) : Option (CounterId family)) = none →
    Rewords family names (name :: names)
  | blank {name : String} (names : List String) : (∀ c ∈ name.toList, Text.isBlank c = true) →
    Rewords family names (name :: names)
  | symm {names names' : List String} : Rewords family names names' → Rewords family names' names
  | trans {names names' names'' : List String} : Rewords family names names' →
    Rewords family names' names'' → Rewords family names names''

theorem CounterFamily.mem_requested {names : List String} {id : CounterId family} :
    id ∈ family.requested names ↔
      ∃ name ∈ names, Text.trim name ≠ "" ∧ CounterId.ofName? (Text.trim name) = some id := by
  simp only [requested, givenNames, List.mem_filterMap, List.mem_filter, List.mem_map]
  constructor
  · rintro ⟨_, ⟨⟨name, hname, rfl⟩, hne⟩, hid⟩
    refine ⟨name, hname, ?_, hid⟩
    rintro hblank
    rw [hblank] at hne
    exact Bool.noConfusion hne
  · rintro ⟨name, hname, hne, hid⟩
    exact ⟨_, ⟨⟨name, hname, rfl⟩, by simpa using hne⟩, hid⟩

/-- Lists of names that are the same in other words ask for the same counters. -/
theorem Rewords.mem_requested_iff {names names' : List String} (h : Rewords family names names')
    (id : CounterId family) : id ∈ family.requested names ↔ id ∈ family.requested names' := by
  induction h with
  | reorder hperm =>
    rw [CounterFamily.mem_requested, CounterFamily.mem_requested]
    exact exists_congr fun name => and_congr_left fun _ => hperm.mem_iff
  | repeated name names =>
    rw [CounterFamily.mem_requested, CounterFamily.mem_requested]
    simp only [List.mem_cons, or_self_left]
  | pad name names hbefore hafter =>
    rw [CounterFamily.mem_requested, CounterFamily.mem_requested]
    simp only [List.exists_mem_cons_iff, Text.trim_pad name hbefore hafter]
  | unknown names hunknown =>
    rw [CounterFamily.mem_requested, CounterFamily.mem_requested, List.exists_mem_cons_iff]
    refine (or_iff_right ?_).symm
    rintro ⟨-, hknown⟩
    rw [hunknown] at hknown
    cases hknown
  | blank names hblank =>
    rw [CounterFamily.mem_requested, CounterFamily.mem_requested, List.exists_mem_cons_iff]
    refine (or_iff_right ?_).symm
    exact fun hgiven => hgiven.1 (Text.trim_blank hblank)
  | symm _ ih => exact ih.symm
  | trans _ _ ih ih' => exact ih.trans ih'

end CounterPolling
