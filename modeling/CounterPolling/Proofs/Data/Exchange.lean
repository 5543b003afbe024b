import CounterPolling.Proofs.Data.Membership

/-!
# Changes of sorted maps in another order

Changes under different keys may change places, and one change may undo or repeat another under
the same key. Main statements: `insert_comm`, `erase_insert_comm` and `erase_insert`; and `eraseAll`
is a map without some keys, which is not touched by what is done under them.
-/

namespace CounterPolling

namespace SortedMap

variable {κ β : Type} [Ord κ] [Std.TransOrd κ] [Std.LawfulEqOrd κ] [DecidableEq κ]
  {m : SortedMap κ β} {keys : List κ} {k k' : κ}

theorem get?_insert (m : SortedMap κ β) (k : κ) (v : β) (k' : κ) :
    (m.insert k v).get? k' = if k = k' then some v else m.get? k' := by
  split
  · next h => rw [← h, get?_insert_self]
  · next h => exact get?_insert_of_ne m v h

theorem get?_erase (m : SortedMap κ β) (k k' : κ) :
    (m.erase k).get? k' = if k = k' then none else m.get? k' := by
  split
  · next h => rw [← h, get?_erase_self]
  · next h => exact get?_erase_of_ne m h

section Orders

theorem insert_insert (m : SortedMap κ β) (k : κ) (v : β) :
    (m.insert k v).insert k v = m.insert k v := by
  refine ext_get? fun l => ?_
  simp only [get?_insert]
  split <;> rfl

theorem insert_comm (m : SortedMap κ β) (h : k ≠ k') (v v' : β) :
    (m.insert k v).insert k' v' = (m.insert k' v').insert k v := by
  refine ext_get? fun l => ?_
  simp only [get?_insert]
  split
  · next hk' => rw [if_neg fun hk => h (hk.trans hk'.symm)]
  · rfl

theorem erase_comm (m : SortedMap κ β) (k k' : κ) :
    (m.erase k).erase k' = (m.erase k').erase k := by
  refine ext_get? fun l => ?_
  simp only [get?_erase]
  split
  · rw [ite_self]
  · rfl

theorem erase_insert_comm (m : SortedMap κ β) (h : k ≠ k') (v : β) :
    (m.insert k v).erase k' = (m.erase k').insert k v := by
  refine ext_get? fun l => ?_
  simp only [get?_erase, get?_insert]
  split
  · next hk' => rw [if_neg fun hk => h (hk.trans hk'.symm)]
  · rfl

/-- Putting a value under a new key, and removing it, leaves the map. -/
theorem erase_insert (h : m.contains k = false) (v : β) : (m.insert k v).erase k = m := by
  refine ext_get? fun l => ?_
  simp only [get?_erase, get?_insert]
  split
  · next hk => rw [← hk, contains_eq_false_iff.mp h]
  · rfl

end Orders

section EraseAll

/-- The map without the entries of some keys. -/
def eraseAll (m : SortedMap κ β) (keys : List κ) : SortedMap κ β :=
  m.filter fun k _ => k ∉ keys

@[simp]
theorem get?_eraseAll (m : SortedMap κ β) (keys : List κ) (k : κ) :
    (m.eraseAll keys).get? k = if k ∈ keys then none else m.get? k := by
  rw [eraseAll, get?_filter]
  by_cases h : k ∈ keys
  · simp [h]
  · cases hget : m.get? k <;> simp [h]

/-- A value that is put under one of the keys is not seen. -/
theorem eraseAll_insert (h : k ∈ keys) (v : β) :
    (m.insert k v).eraseAll keys = m.eraseAll keys := by
  refine ext_get? fun l => ?_
  rw [get?_eraseAll, get?_eraseAll]
  split
  · rfl
  · next hout => exact get?_insert_of_ne _ _ fun heq => hout (heq ▸ h)

/-- Nor is it seen that one of the keys is gone. -/
theorem eraseAll_erase (h : k ∈ keys) : (m.erase k).eraseAll keys = m.eraseAll keys := by
  refine ext_get? fun l => ?_
  rw [get?_eraseAll, get?_eraseAll]
  split
  · rfl
  · next hout => exact get?_erase_of_ne _ fun heq => hout (heq ▸ h)

theorem eraseAll_eq_self (h : ∀ k ∈ keys, m.contains k = false) : m.eraseAll keys = m := by
  refine ext_get? fun l => ?_
  rw [get?_eraseAll]
  split
  · next hl => exact (contains_eq_false_iff.mp (h l hl)).symm
  · rfl

end EraseAll

end SortedMap

end CounterPolling
