/-!
# Blank characters

Configuration values may carry white space around names and numbers. The blank
characters are those with the Unicode property White_Space, so that an ideographic
space is trimmed like a plain one.
-/

namespace CounterPolling.Text

/-- First and last code points of the runs of characters with property White_Space. -/
def blankRanges : List (Nat × Nat) :=
  [(0x9, 0xd), (0x20, 0x20), (0x85, 0x85), (0xa0, 0xa0), (0x1680, 0x1680),
    (0x2000, 0x200a), (0x2028, 0x2029), (0x202f, 0x202f), (0x205f, 0x205f),
    (0x3000, 0x3000)]

/-- A character is blank when its code point lies in one of the runs. -/
def isBlank (c : Char) : Bool :=
  blankRanges.any fun run => run.1 ≤ c.toNat && c.toNat ≤ run.2

/-- Drops the blank characters at both ends. -/
def trimChars (cs : List Char) : List Char :=
  ((cs.dropWhile isBlank).reverse.dropWhile isBlank).reverse

@[simp]
theorem trimChars_nil : trimChars [] = [] := rfl

/-- A text without its leading and trailing blanks. -/
def trim (s : String) : String :=
  String.ofList (trimChars s.toList)

@[simp]
theorem toList_trim (s : String) : (trim s).toList = trimChars s.toList := by
  simp [trim]

end CounterPolling.Text
