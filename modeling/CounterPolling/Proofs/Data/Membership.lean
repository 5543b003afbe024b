import CounterPolling.Data.SortedMap.Lookup
import CounterPolling.Data.SortedSet

/-!
# Membership in sorted maps and sets

Which keys a map has after an operation, and which values a set has. A set is told by its
members: by `SortedSet.ext_has` two sets with the same members are one set.
-/

namespace CounterPolling

namespace SortedMap

variable {κ β : Type} [Ord κ] [Std.TransOrd κ] [Std.LawfulEqOrd κ]

omit [Std.TransOrd κ] [Std.LawfulEqOrd κ] in
/-- A key has a value exactly if a look-up of it finds one. -/
theorem contains_iff_get? {m : SortedMap κ β} {k : κ} :
    m.contains k = true ↔ ∃ v, m.get? k = some v := by
  unfold contains
  exact Option.isSome_iff_exists

omit [Std.TransOrd κ] [Std.LawfulEqOrd κ] in
/-- A key has no value exactly if a look-up of it finds none. -/
theorem contains_eq_false_iff {m : SortedMap κ β} {k : κ} :
    m.contains k = false ↔ m.get? k = none := by
  unfold contains
  exact Option.isSome_eq_false_iff.trans Option.isNone_iff_eq_none

/-- A key has a value exactly if it stands in an entry. -/
theorem contains_iff_mem {m : SortedMap κ β} {k : κ} :
    m.contains k = true ↔ ∃ v, (k, v) ∈ m.entries := by
  rw [contains_iff_get?]
  exact exists_congr fun v => get?_eq_some_iff

/-- A map with an entry has a value for some key. -/
theorem exists_contains_iff {m : SortedMap κ β} :
    (∃ k, m.contains k = true) ↔ m.isEmpty = false := by
  simp only [contains_iff_mem]
  cases hentries : m.entries with
  | nil => simp [isEmpty, hentries]
  | cons first rest =>
    simp only [isEmpty, hentries, List.isEmpty_cons, iff_true]
    exact ⟨first.1, first.2, List.mem_cons_self⟩

omit [Std.TransOrd κ] [Std.LawfulEqOrd κ] in
@[simp]
theorem contains_empty (k : κ) : (∅ : SortedMap κ β).contains k = false := rfl

@[simp]
theorem contains_insert {m : SortedMap κ β} {k k' : κ} {v : β} :
    (m.insert k v).contains k' = true ↔ k = k' ∨ m.contains k' = true := by
  by_cases h : k = k'
  · subst h
    simp [contains]
  · simp [contains, get?_insert_of_ne m v h, h]

@[simp]
theorem contains_erase {m : SortedMap κ β} {k k' : κ} :
    (m.erase k).contains k' = true ↔ k ≠ k' ∧ m.contains k' = true := by
  by_cases h : k = k'
  · subst h
    simp [contains]
  · simp [contains, get?_erase_of_ne m h, h]

/-- Filtering keeps the look-ups that pass the test. -/
@[simp]
theorem get?_filter (m : SortedMap κ β) (keep : κ → β → Bool) (k : κ) :
    (m.filter keep).get? k = (m.get? k).filter (keep k) := by
  refine Option.ext fun v => ?_
  rw [get?_eq_some_iff, Option.filter_eq_some_iff, get?_eq_some_iff]
  simp

/-- A map without the entry of a key that it does not have is the same map. -/
theorem erase_eq_self {m : SortedMap κ β} {k : κ} (h : m.contains k = false) :
    m.erase k = m := by
  refine ext_get? fun k' => ?_
  by_cases hk : k = k'
  · subst hk
    rw [get?_erase_self, contains_eq_false_iff.mp h]
  · exact get?_erase_of_ne m hk

end SortedMap

namespace SortedSet

variable {α : Type} [Ord α] [Std.TransOrd α] [Std.LawfulEqOrd α]

/-- The list of a set has its members. -/
@[simp]
theorem mem_toList {s : SortedSet α} {a : α} : a ∈ s.toList ↔ s.has a = true :=
  SortedMap.contains_iff.symm

omit [Std.TransOrd α] [Std.LawfulEqOrd α] in
/-- The list of a set ascends. -/
theorem toList_ascend (s : SortedSet α) : s.toList.Pairwise fun a b => compare a b = .lt :=
  List.pairwise_map.mpr s.ascend

@[simp]
theorem has_add {s : SortedSet α} {a b : α} :
    (s.add a).has b = true ↔ a = b ∨ s.has b = true :=
  SortedMap.contains_insert

@[simp]
theorem has_addAll {s : SortedSet α} {values : List α} {a : α} :
    (s.addAll values).has a = true ↔ a ∈ values ∨ s.has a = true := by
  unfold addAll
  induction values generalizing s with
  | nil => simp
  | cons b rest ih =>
    rw [List.foldl_cons, ih, has_add, List.mem_cons]
    constructor
    · rintro (h | rfl | h)
      · exact .inl (.inr h)
      · exact .inl (.inl rfl)
      · exact .inr h
    · rintro ((rfl | h) | h)
      · exact .inr (.inl rfl)
      · exact .inl h
      · exact .inr (.inr h)

/-- The set of a list has the members of the list. -/
@[simp]
theorem has_ofList {values : List α} {a : α} :
    (ofList values).has a = true ↔ a ∈ values := by
  unfold ofList
  rw [has_addAll]
  simp [has]

/-- Sets with the same members are the same set. -/
theorem ext_has {s t : SortedSet α} (h : ∀ a, s.has a = true ↔ t.has a = true) : s = t := by
  refine SortedMap.ext_get? fun a => ?_
  refine Option.ext fun u => ?_
  cases u
  have key : ∀ r : SortedSet α, r.get? a = some () ↔ r.has a = true := by
    intro r
    rw [has, SortedMap.contains_iff_get?]
    exact ⟨fun hr => ⟨(), hr⟩, fun ⟨(), hr⟩ => hr⟩
  rw [key, key, h]

end SortedSet

end CounterPolling
