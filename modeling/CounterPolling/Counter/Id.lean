import CounterPolling.Counter.Catalog
import CounterPolling.Text.Pieces

/-!
# Ids of counters and attributes

An id is a number that the catalog of its family knows, so an id always has a name, and
an id of one family never stands where one of another is meant. Ids are ordered by
number.
-/

namespace CounterPolling

/-- A known counter or attribute of a family. -/
structure CounterId (family : CounterFamily) where
  /-- The number that the driver knows the counter by. -/
  raw : Int
  /-- The catalog lists the number. -/
  known : (family.nameOf? raw).isSome = true
  deriving DecidableEq

namespace CounterId

variable {family : CounterFamily}

@[ext]
theorem ext_raw {a b : CounterId family} (h : a.raw = b.raw) : a = b := by
  cases a
  cases b
  cases h
  rfl

/-- The name of the counter, which is its field in the counters table. -/
def name (id : CounterId family) : String :=
  (family.nameOf? id.raw).get id.known

/-- The id with a given number, if the family knows it. -/
def ofRaw? (raw : Int) : Option (CounterId family) :=
  if h : (family.nameOf? raw).isSome then some ⟨raw, h⟩ else none

/-- The id with a given name, if the family knows it. -/
def ofName? (name : String) : Option (CounterId family) :=
  (family.rawOf? name).bind ofRaw?

@[simp]
theorem ofRaw?_raw (id : CounterId family) : ofRaw? id.raw = some id := by
  simp [ofRaw?, id.known]

theorem raw_of_ofRaw? {raw : Int} {id : CounterId family} (h : ofRaw? raw = some id) :
    id.raw = raw := by
  unfold ofRaw? at h
  split at h
  · cases h
    rfl
  · cases h

instance : Ord (CounterId family) := ⟨compareOn raw⟩

instance : Std.TransOrd (CounterId family) :=
  inferInstanceAs (Std.TransCmp (compareOn fun id : CounterId family => id.raw))

instance : Std.LawfulEqOrd (CounterId family) where
  compare_self := Std.ReflOrd.compare_self (α := Int)
  eq_of_compare {_ _} h := ext_raw (Std.LawfulEqOrd.eq_of_compare h)

/-- Puts an id into an ascending list. -/
def insertAscending (id : CounterId family) : List (CounterId family) → List (CounterId family)
  | [] => [id]
  | head :: rest =>
    if id.raw ≤ head.raw then id :: head :: rest else head :: insertAscending id rest

/-- The ids of a list in ascending order, repeated ones kept. -/
def sort (ids : List (CounterId family)) : List (CounterId family) :=
  ids.foldr insertAscending []

/-- The numbers of ids, as the driver takes them. -/
def raws (ids : List (CounterId family)) : List Int :=
  ids.map raw

/-- The names of ids. -/
def names (ids : List (CounterId family)) : List String :=
  ids.map name

end CounterId

namespace CounterFamily

/-- The names that a list of names gives: trimmed, blank ones dropped. -/
def givenNames (names : List String) : List String :=
  (names.map Text.trim).filter fun name => !name.isEmpty

/-- The known ids that a list of names asks for, in the order and number given. -/
def requested (family : CounterFamily) (names : List String) : List (CounterId family) :=
  (givenNames names).filterMap CounterId.ofName?

/-- The names of a list that the family does not know. -/
def unknownNames (family : CounterFamily) (names : List String) : List String :=
  (givenNames names).filter fun name => (CounterId.ofName? name : Option (CounterId family)).isNone

end CounterFamily

end CounterPolling
