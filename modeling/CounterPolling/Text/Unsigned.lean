/-!
# Unsigned numbers

Intervals, sizes and counts are written in ASCII digits, at least one, with at most one
plus sign before them. A number beyond the range of its word is no number at all. Object ids
are written in hexadecimal digits, lower case, without leading zeros.
-/

namespace CounterPolling.Text

/-- The value of one ASCII digit. -/
def digit? (c : Char) : Option Nat :=
  if '0'.toNat ≤ c.toNat ∧ c.toNat ≤ '9'.toNat then some (c.toNat - '0'.toNat) else none

/-- Reads digits to the right of a number already read. -/
def appendDigits? (read : Nat) : List Char → Option Nat
  | [] => some read
  | c :: cs =>
    match digit? c with
    | some d => appendDigits? (10 * read + d) cs
    | none => none

/-- Reads a number written in digits alone. -/
def digits? : List Char → Option Nat
  | [] => none
  | c :: cs => appendDigits? 0 (c :: cs)

/-- Reads a number that may open with a plus sign. -/
def unsigned? : List Char → Option Nat
  | '+' :: cs => digits? cs
  | cs => digits? cs

/-- Number of values of a 32-bit word. -/
def wordLimit : Nat := 4294967296

/-- Reads a number that fits a 32-bit word. -/
def wordChars? (cs : List Char) : Option Nat :=
  (unsigned? cs).filter fun n => n < wordLimit

/-- Reads a text that is a number of a 32-bit word and nothing else. -/
def word? (s : String) : Option Nat :=
  wordChars? s.toList

/-- What is read as a word is below the limit. -/
theorem lt_of_wordChars? {cs : List Char} {n : Nat} (h : wordChars? cs = some n) :
    n < wordLimit := by
  obtain ⟨_, hn⟩ := Option.filter_eq_some_iff.mp h
  simpa using hn

/-- The hexadecimal digits of a number, the most significant first. -/
def hexadecimal (n : Nat) : String :=
  String.ofList (Nat.toDigits 16 n)

end CounterPolling.Text
