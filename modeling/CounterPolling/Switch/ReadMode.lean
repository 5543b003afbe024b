/-!
# Read modes

A counter is read and kept, or read and set back to zero.
-/

namespace CounterPolling

/-- What reading a counter does to it. -/
inductive ReadMode
  | read
  | readAndClear
  deriving DecidableEq

namespace ReadMode

/-- Counters are kept unless clearing them is asked for. -/
instance : Inhabited ReadMode := ⟨read⟩

/-- Position of the mode in orders and in capability masks. -/
def bit : ReadMode → Nat
  | read => 0
  | readAndClear => 1

/-- The configuration text of a mode. -/
def name : ReadMode → String
  | read => "STATS_MODE_READ"
  | readAndClear => "STATS_MODE_READ_AND_CLEAR"

/-- The mode of a configuration text. -/
def ofName? (s : String) : Option ReadMode :=
  if s = read.name then some read
  else if s = readAndClear.name then some readAndClear
  else none

/-- The mask in which only the bit of the mode is set. -/
def mask : ReadMode → Nat
  | read => 1
  | readAndClear => 2

@[simp]
theorem ofName?_name (mode : ReadMode) : ofName? mode.name = some mode := by
  cases mode <;> decide

instance : Ord ReadMode := ⟨compareOn bit⟩

instance : Std.TransOrd ReadMode := inferInstanceAs (Std.TransCmp (compareOn bit))

instance : Std.LawfulEqOrd ReadMode where
  compare_self := Std.ReflOrd.compare_self (α := Nat)
  eq_of_compare {a b} h := by
    cases a <;> cases b
    case read.read | readAndClear.readAndClear => rfl
    all_goals exact absurd h (by decide)

end ReadMode

end CounterPolling
