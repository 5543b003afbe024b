import CounterPolling.Data.SortedMap

/-!
# Sorted sets

A set that lists its members in ascending order, each once: the keys of a sorted map
whose values say nothing.
-/

namespace CounterPolling

/-- A finite set whose members stand in ascending order. -/
abbrev SortedSet (α : Type) [Ord α] : Type := SortedMap α Unit

namespace SortedSet

variable {α : Type} [Ord α]

/-- The members, ascending. -/
def toList (s : SortedSet α) : List α := s.keys

/-- Whether a value is a member. -/
def has (s : SortedSet α) (a : α) : Bool := s.contains a

variable [Std.TransOrd α]

/-- Adds a member. -/
def add (s : SortedSet α) (a : α) : SortedSet α := s.insert a ()

/-- Adds every value of a list. -/
def addAll (s : SortedSet α) (values : List α) : SortedSet α :=
  values.foldl add s

/-- The set of the values of a list. -/
def ofList (values : List α) : SortedSet α := addAll ∅ values

end SortedSet

end CounterPolling
