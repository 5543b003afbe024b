import CounterPolling.Text.Blank

/-!
# Texts made of separated pieces

Lists are written with a separator between their members. A reader splits at every
separator, trims each piece and drops the pieces that are blank.
-/

namespace CounterPolling.Text

/-- The trimmed pieces of a character list, without those that are blank. -/
def pieceChars (separator : Char) (cs : List Char) : List (List Char) :=
  ((cs.splitOn separator).map trimChars).filter fun piece => !piece.isEmpty

/-- The members of a separated list, trimmed, blank members dropped. -/
def pieces (separator : Char) (s : String) : List String :=
  (pieceChars separator s.toList).map String.ofList

/-- The text before the last occurrence of a character, and the text after it. -/
def splitAtLast (separator : Char) : List Char → Option (List Char × List Char)
  | [] => none
  | c :: cs =>
    match splitAtLast separator cs with
    | some (front, back) => some (c :: front, back)
    | none => if c = separator then some ([], cs) else none

/-- A text that does not hold the separator has no last occurrence of it. -/
theorem splitAtLast_eq_none_iff {separator : Char} {cs : List Char} :
    splitAtLast separator cs = none ↔ separator ∉ cs := by
  induction cs with
  | nil => simp [splitAtLast]
  | cons c cs ih =>
    cases h : splitAtLast separator cs with
    | none =>
      have hs : separator ∉ cs := ih.mp h
      by_cases hc : c = separator
      · simp [splitAtLast, h, hc]
      · simp [splitAtLast, h, hc, hs, Ne.symm hc]
    | some parts =>
      have hs : separator ∈ cs := by
        by_cases hm : separator ∈ cs
        · exact hm
        · exact absurd (ih.mpr hm) (by simp [h])
      simp [splitAtLast, h, hs]

/-- Writing the two parts with the separator between them gives the text back. -/
theorem append_of_splitAtLast {separator : Char} {cs front back : List Char}
    (h : splitAtLast separator cs = some (front, back)) :
    cs = front ++ separator :: back := by
  induction cs generalizing front with
  | nil => simp [splitAtLast] at h
  | cons c cs ih =>
    cases hs : splitAtLast separator cs with
    | some parts =>
      obtain ⟨f, b⟩ := parts
      simp only [splitAtLast, hs, Option.some.injEq, Prod.mk.injEq] at h
      obtain ⟨rfl, rfl⟩ := h
      simp [ih hs]
    | none =>
      by_cases hc : c = separator
      · simp only [splitAtLast, hs, hc, if_true, Option.some.injEq, Prod.mk.injEq] at h
        obtain ⟨rfl, rfl⟩ := h
        simp [hc]
      · simp [splitAtLast, hs, hc] at h

end CounterPolling.Text
