import CounterPolling.Data.SortedMap

/-!
# Looking up in sorted maps

What each operation does to the look-ups of a map. Main statements: `get?_eq_some_iff`
ties look-ups to entries, and by `ext_get?` the look-ups determine the map.
-/

namespace CounterPolling

namespace KeysAscend

variable {κ β : Type} [Ord κ] [Std.TransOrd κ]

/-- Entries under one key of an ascending list are one entry. -/
theorem eq_of_mem {entries : List (κ × β)}
    (h : KeysAscend entries) {k : κ} {v w : β} (hv : (k, v) ∈ entries)
    (hw : (k, w) ∈ entries) : v = w := by
  have hself : compare k k ≠ .lt := by
    simp [Std.ReflCmp.compare_self]
  induction entries with
  | nil => simp at hv
  | cons head rest ih =>
    obtain ⟨hhead, hrest⟩ := List.pairwise_cons.mp h
    rcases List.mem_cons.mp hv with hv | hv <;> rcases List.mem_cons.mp hw with hw | hw
    · exact congrArg Prod.snd (hv.trans hw.symm)
    · exact absurd (by simpa [← hv] using hhead _ hw) hself
    · exact absurd (by simpa [← hw] using hhead _ hv) hself
    · exact ih hrest hv hw

end KeysAscend

namespace SortedMap

variable {κ β γ : Type} [Ord κ] [Std.TransOrd κ] [Std.LawfulEqOrd κ]

/-- A look-up finds exactly the entry of its key. -/
theorem get?_eq_some_iff {m : SortedMap κ β} {k : κ} {v : β} :
    m.get? k = some v ↔ (k, v) ∈ m.entries := by
  constructor
  · intro h
    obtain ⟨e, he, rfl⟩ := Option.map_eq_some_iff.mp h
    have hk : k = e.1 := by
      simpa using List.find?_some he
    subst hk
    exact List.mem_of_find?_eq_some he
  · intro h
    cases hf : m.entries.find? fun e => compare k e.1 == .eq with
    | none => exact absurd (List.find?_eq_none.mp hf _ h) (by simp [Std.ReflCmp.compare_self])
    | some e =>
      have hk : k = e.1 := by
        simpa using List.find?_some hf
      have he : (k, e.2) ∈ m.entries := by
        rw [hk]
        exact List.mem_of_find?_eq_some hf
      simp [get?, hf, KeysAscend.eq_of_mem m.ascend he h]

/-- A key without an entry is one that no entry has. -/
theorem get?_eq_none_iff {m : SortedMap κ β} {k : κ} :
    m.get? k = none ↔ k ∉ m.keys := by
  constructor
  · intro h hk
    obtain ⟨e, he, rfl⟩ := List.mem_map.mp hk
    have := get?_eq_some_iff.mpr (show (e.1, e.2) ∈ m.entries from he)
    simp [h] at this
  · intro h
    cases hg : m.get? k with
    | none => rfl
    | some v =>
      exact absurd (List.mem_map.mpr ⟨(k, v), get?_eq_some_iff.mp hg, rfl⟩) h

/-- A key has a value exactly if it is listed. -/
theorem contains_iff {m : SortedMap κ β} {k : κ} : m.contains k = true ↔ k ∈ m.keys := by
  unfold contains
  rw [Option.isSome_iff_ne_none, ne_eq, get?_eq_none_iff, Classical.not_not]

/-- Maps that agree on every look-up are the same map. -/
theorem ext_get? {m n : SortedMap κ β} (h : ∀ k, m.get? k = n.get? k) : m = n := by
  have hmem : ∀ e : κ × β, e ∈ m.entries ↔ e ∈ n.entries := by
    intro e
    rw [← get?_eq_some_iff, ← get?_eq_some_iff, h]
  obtain ⟨ms, hm⟩ := m
  obtain ⟨ns, hn⟩ := n
  congr 1
  clear h
  induction ms generalizing ns with
  | nil =>
    cases ns with
    | nil => rfl
    | cons e ns => simpa using hmem e
  | cons a ms ih =>
    cases ns with
    | nil => simpa using hmem a
    | cons b ns =>
      have hself : ∀ k : κ, compare k k ≠ .lt := by
        intro k
        simp [Std.ReflCmp.compare_self]
      obtain ⟨ha, hms⟩ := List.pairwise_cons.mp hm
      obtain ⟨hb, hns⟩ := List.pairwise_cons.mp hn
      have hab : a = b := by
        rcases List.mem_cons.mp ((hmem a).mp List.mem_cons_self) with hab | hab
        · exact hab
        · rcases List.mem_cons.mp ((hmem b).mpr List.mem_cons_self) with hba | hba
          · exact hba.symm
          · exact absurd (Std.TransCmp.lt_trans (ha b hba) (hb a hab)) (hself _)
      subst hab
      refine congrArg (a :: ·) (ih hms ns hns fun e => ?_)
      constructor
      · intro he
        rcases List.mem_cons.mp ((hmem e).mp (List.mem_cons_of_mem _ he)) with rfl | he'
        · exact absurd (ha _ he) (hself _)
        · exact he'
      · intro he
        rcases List.mem_cons.mp ((hmem e).mpr (List.mem_cons_of_mem _ he)) with rfl | he'
        · exact absurd (hb _ he) (hself _)
        · exact he'

omit [Std.TransOrd κ] [Std.LawfulEqOrd κ] in
@[simp]
theorem get?_empty (k : κ) : (∅ : SortedMap κ β).get? k = none := rfl

@[simp]
theorem get?_insert_self (m : SortedMap κ β) (k : κ) (v : β) :
    (m.insert k v).get? k = some v := by
  rw [get?_eq_some_iff, entries_insert]
  induction m.entries with
  | nil => simp [KeysAscend.insert]
  | cons head rest ih =>
    simp only [KeysAscend.insert]
    split
    · exact List.mem_cons_self
    · exact List.mem_cons_self
    · exact List.mem_cons_of_mem _ ih

omit [Std.TransOrd κ] in
/-- Putting a value under one key leaves the entries of the others. -/
theorem mem_insert_of_ne {k : κ} {v : β} {entries : List (κ × β)} {e : κ × β}
    (hk : k ≠ e.1) : e ∈ KeysAscend.insert k v entries ↔ e ∈ entries := by
  have hne : e ≠ (k, v) := by
    rintro rfl
    exact hk rfl
  induction entries with
  | nil => simp [KeysAscend.insert, hne]
  | cons head rest ih =>
    simp only [KeysAscend.insert]
    split
    · simp [hne]
    · next heq =>
      have hhead : e ≠ head := by
        rintro rfl
        exact hk (Std.LawfulEqOrd.eq_of_compare heq)
      simp [hne, hhead]
    · simp [ih]

theorem get?_insert_of_ne (m : SortedMap κ β) {k k' : κ} (v : β) (hk : k ≠ k') :
    (m.insert k v).get? k' = m.get? k' := by
  refine Option.ext fun w => ?_
  rw [get?_eq_some_iff, get?_eq_some_iff, entries_insert]
  exact mem_insert_of_ne hk

@[simp]
theorem get?_erase_self (m : SortedMap κ β) (k : κ) : (m.erase k).get? k = none := by
  rw [get?_eq_none_iff]
  simp [erase, keys]

theorem get?_erase_of_ne (m : SortedMap κ β) {k k' : κ} (hk : k ≠ k') :
    (m.erase k).get? k' = m.get? k' := by
  refine Option.ext fun w => ?_
  rw [get?_eq_some_iff, get?_eq_some_iff]
  simp [erase, hk]

@[simp]
theorem get?_map (m : SortedMap κ β) (f : κ → β → γ) (k : κ) :
    (m.map f).get? k = (m.get? k).map (f k) := by
  refine Option.ext fun w => ?_
  rw [get?_eq_some_iff, Option.map_eq_some_iff]
  simp only [entries_map, List.mem_map, Prod.mk.injEq, get?_eq_some_iff]
  constructor
  · rintro ⟨e, he, rfl, rfl⟩
    exact ⟨e.2, he, rfl⟩
  · rintro ⟨v, hv, rfl⟩
    exact ⟨(k, v), hv, rfl, rfl⟩

end SortedMap

end CounterPolling
