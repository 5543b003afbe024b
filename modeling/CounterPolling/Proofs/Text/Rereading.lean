import CounterPolling.Proofs.Chunking.Items
import CounterPolling.Text.Unsigned

/-!
# Texts that are read back

What is written plainly is read as it was written: pieces without blanks around them and with
separators between, the two parts around a last separator, and decimal numbers. Main statements:
`pieceChars_intercalate`, `splitAtLast_append` and `wordChars?_toDigits`.
-/

namespace CounterPolling.Text

section Trimmed

/-- A text neither begins nor ends with a blank. -/
structure Trimmed (cs : List Char) : Prop where
  head : ∀ c ∈ cs.head?, isBlank c = false
  last : ∀ c ∈ cs.getLast?, isBlank c = false

variable {cs : List Char}

/-- What is left of a text once blanks are dropped at its front begins with none. -/
theorem isBlank_head?_dropWhile {c : Char} (h : c ∈ (cs.dropWhile isBlank).head?) :
    isBlank c = false := by
  have hnot := List.head?_dropWhile_not isBlank cs
  rw [Option.mem_def.mp h] at hnot
  exact hnot

theorem trimmed_trimChars (cs : List Char) : Trimmed (trimChars cs) := by
  unfold trimChars
  constructor
  · intro c hc
    rw [List.head?_reverse] at hc
    -- dropping at the back leaves the front, where blanks were dropped before
    have hsuffix := List.dropWhile_suffix isBlank (l := (cs.dropWhile isBlank).reverse)
    obtain ⟨dropped, heq⟩ := hsuffix
    have hlast : c ∈ (cs.dropWhile isBlank).reverse.getLast? := by
      rw [← heq]
      exact List.mem_getLast?_append_of_mem_getLast? hc
    rw [List.getLast?_reverse] at hlast
    exact isBlank_head?_dropWhile hlast
  · intro c hc
    rw [List.getLast?_reverse] at hc
    exact isBlank_head?_dropWhile hc

/-- There is nothing to drop at the front of a text that does not begin with a blank. -/
theorem dropWhile_isBlank_of_head? (h : ∀ c ∈ cs.head?, isBlank c = false) :
    cs.dropWhile isBlank = cs := by
  cases cs with
  | nil => rfl
  | cons c rest => rw [List.dropWhile_cons_of_neg (by simp [h c rfl])]

theorem Trimmed.trimChars_eq (h : Trimmed cs) : trimChars cs = cs := by
  have hback : ∀ c ∈ cs.reverse.head?, isBlank c = false := by
    rw [List.head?_reverse]
    exact h.last
  rw [trimChars, dropWhile_isBlank_of_head? h.head, dropWhile_isBlank_of_head? hback,
    List.reverse_reverse]

/-- A text between two that are trimmed and not empty is trimmed with them. -/
theorem Trimmed.append {front back : List Char} (hfront : Trimmed front) (hback : Trimmed back)
    (hne : front ≠ []) (hne' : back ≠ []) (middle : List Char) :
    Trimmed (front ++ (middle ++ back)) where
  head := by
    rw [List.head?_append_of_ne_nil _ hne]
    exact hfront.head
  last := by
    rw [← List.append_assoc, List.getLast?_append_of_ne_nil _ hne']
    exact hback.last

end Trimmed

section Pieces

variable {separator : Char} {pieces : List (List Char)}

/-- Pieces that are not empty, trimmed and without the separator are read back. -/
theorem pieceChars_intercalate
    (h : ∀ piece ∈ pieces, piece ≠ [] ∧ Trimmed piece ∧ separator ∉ piece) :
    pieceChars separator ([separator].intercalate pieces) = pieces := by
  by_cases hnone : pieces = []
  · rw [hnone]
    rfl
  · have htrim : pieces.map trimChars = pieces := by
      calc
        pieces.map trimChars = pieces.map id :=
          List.map_congr_left fun piece hpiece => (h piece hpiece).2.1.trimChars_eq
        _ = pieces := List.map_id pieces
    rw [pieceChars, List.splitOn_intercalate separator (fun piece hpiece => (h piece hpiece).2.2)
      hnone, htrim, List.filter_eq_self]
    intro piece hpiece
    simpa using (h piece hpiece).1

/-- A text of pieces holds nothing but the characters of the pieces and the separator. -/
theorem not_mem_intercalate {c : Char} (hc : c ≠ separator) (h : ∀ piece ∈ pieces, c ∉ piece) :
    c ∉ [separator].intercalate pieces := by
  induction pieces with
  | nil => exact List.not_mem_nil
  | cons piece rest ih =>
    obtain ⟨hpiece, hrest⟩ := List.forall_mem_cons.mp h
    cases rest with
    | nil => simpa using hpiece
    | cons second rest =>
      rw [List.intercalate_cons_cons, List.mem_append, List.mem_append, List.mem_singleton]
      rintro ((hmem | hsame) | hlater)
      · exact hpiece hmem
      · exact hc hsame
      · exact ih hrest hlater

/-- What stands between separators stands in the text. -/
theorem mem_of_mem_splitOn {c : Char} {cs piece : List Char}
    (h : piece ∈ cs.splitOn separator) (hc : c ∈ piece) : c ∈ cs := by
  induction cs generalizing piece with
  | nil =>
    rw [List.splitOn_nil, List.mem_singleton] at h
    exact absurd (h ▸ hc) List.not_mem_nil
  | cons first cs ih =>
    rw [List.splitOn_cons_eq_if_modifyHead] at h
    split at h
    · rcases List.mem_cons.mp h with rfl | hrest
      · exact absurd hc List.not_mem_nil
      · exact List.mem_cons_of_mem _ (ih hrest hc)
    · obtain ⟨head, rest, hsplit⟩ := List.exists_cons_of_ne_nil (List.splitOn_ne_nil separator cs)
      rw [hsplit, List.modifyHead_cons] at h
      rcases List.mem_cons.mp h with rfl | hrest
      · rcases List.mem_cons.mp hc with rfl | hlater
        · exact List.mem_cons_self
        · exact List.mem_cons_of_mem _ (ih (hsplit ▸ List.mem_cons_self) hlater)
      · exact List.mem_cons_of_mem _ (ih (hsplit ▸ List.mem_cons_of_mem _ hrest) hc)

/-- The pieces of a text are trimmed, not empty, and made of its characters. -/
theorem of_mem_pieceChars {cs piece : List Char} (h : piece ∈ pieceChars separator cs) :
    piece ≠ [] ∧ Trimmed piece ∧ ∀ c ∈ piece, c ∈ cs := by
  obtain ⟨hmem, hne⟩ := List.mem_filter.mp h
  obtain ⟨whole, hwhole, rfl⟩ := List.mem_map.mp hmem
  exact ⟨by simpa using hne, trimmed_trimChars whole,
    fun c hc => mem_of_mem_splitOn hwhole (mem_of_mem_trimChars hc)⟩

/-- The separator behind which there is none is the last one. -/
theorem splitAtLast_append (front : List Char) {back : List Char} (h : separator ∉ back) :
    splitAtLast separator (front ++ separator :: back) = some (front, back) := by
  induction front with
  | nil => simp [splitAtLast, splitAtLast_eq_none_iff.mpr h]
  | cons c front ih => simp [splitAtLast, ih]

end Pieces

section Numbers

theorem digit?_digitChar : ∀ d < 10, digit? d.digitChar = some d := by
  decide

theorem appendDigits?_append (read : Nat) (cs cs' : List Char) :
    appendDigits? read (cs ++ cs') =
      (appendDigits? read cs).bind fun read => appendDigits? read cs' := by
  induction cs generalizing read with
  | nil => rfl
  | cons c cs ih =>
    rw [List.cons_append, appendDigits?, appendDigits?]
    cases digit? c with
    | none => rfl
    | some d => exact ih _

/-- The decimal digits of a number are read as the number. -/
theorem appendDigits?_toDigits (n : Nat) : appendDigits? 0 (Nat.toDigits 10 n) = some n := by
  induction n using Nat.strongRecOn with
  | ind n ih =>
    rw [Nat.toDigits_eq_if (by omega)]
    split
    · next hlt => simp [appendDigits?, digit?_digitChar n hlt]
    · have hlast : n % 10 < 10 := Nat.mod_lt n (by omega)
      rw [appendDigits?_append, ih (n / 10) (by omega), Option.bind_some, appendDigits?,
        digit?_digitChar _ hlast]
      exact congrArg some (Nat.div_add_mod n 10)

/-- Numbers with the same decimal digits are the same. -/
theorem toDigits_ten_injective : Function.Injective (Nat.toDigits 10) := by
  intro m n h
  have hread := appendDigits?_toDigits m
  rw [h, appendDigits?_toDigits] at hread
  exact (Option.some.inj hread).symm

/-- Digits are no blanks. -/
theorem isBlank_of_isDigit {c : Char} (h : c.isDigit = true) : isBlank c = false := by
  obtain ⟨hlow, hhigh⟩ : 48 ≤ c.toNat ∧ c.toNat ≤ 57 := by
    obtain ⟨hlow, hhigh⟩ := Bool.and_eq_true_iff.mp h
    exact ⟨UInt32.le_iff_toNat_le.mp (of_decide_eq_true hlow),
      UInt32.le_iff_toNat_le.mp (of_decide_eq_true hhigh)⟩
  simp only [isBlank, blankRanges, List.any_cons, List.any_nil, Bool.or_false, Bool.or_eq_false_iff,
    Bool.and_eq_false_iff, decide_eq_false_iff_not]
  omega

theorem isDigit_of_mem_toDigits {c : Char} {n : Nat} (h : c ∈ Nat.toDigits 10 n) :
    c.isDigit = true :=
  Nat.isDigit_of_mem_toDigits (by omega) (by omega) h

theorem trimmed_toDigits (n : Nat) : Trimmed (Nat.toDigits 10 n) where
  head _ hc := isBlank_of_isDigit (isDigit_of_mem_toDigits (List.mem_of_mem_head? hc))
  last _ hc := isBlank_of_isDigit (isDigit_of_mem_toDigits (List.mem_of_mem_getLast? hc))

/-- The decimal digits of a word are read as the word. -/
theorem wordChars?_toDigits {n : Nat} (h : n < wordLimit) :
    wordChars? (Nat.toDigits 10 n) = some n := by
  have hread := appendDigits?_toDigits n
  have hdigit : ∀ c ∈ Nat.toDigits 10 n, c.isDigit = true := fun _ => isDigit_of_mem_toDigits
  obtain ⟨c, cs, hcs⟩ := List.exists_cons_of_ne_nil (Nat.toDigits_ne_nil (n := n) (b := 10))
  rw [hcs] at hread hdigit ⊢
  have hplus : c ≠ '+' := by
    rintro rfl
    exact absurd (hdigit '+' List.mem_cons_self) (by decide)
  have hunsigned : unsigned? (c :: cs) = some n := by
    unfold unsigned?
    split
    · next heq => exact absurd (List.cons.inj heq).1 hplus
    · exact hread
  rw [wordChars?, hunsigned]
  simpa using h

end Numbers

end CounterPolling.Text
