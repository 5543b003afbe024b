/-!
# Sorted maps

A map that lists its entries in ascending order of key. The order is part of the type:
two maps with the same look-ups are equal, and every traversal visits the entries in the
one order there is.
-/

namespace CounterPolling

/-- Entries whose keys ascend strictly. -/
def KeysAscend {κ β : Type} [Ord κ] (entries : List (κ × β)) : Prop :=
  entries.Pairwise fun a b => compare a.1 b.1 = .lt

namespace KeysAscend

variable {κ β γ : Type} [Ord κ]

/-- Putting a value under a key into an ascending entry list. -/
def insert (k : κ) (v : β) : List (κ × β) → List (κ × β)
  | [] => [(k, v)]
  | (k', v') :: rest =>
    match compare k k' with
    | .lt => (k, v) :: (k', v') :: rest
    | .eq => (k, v) :: rest
    | .gt => (k', v') :: insert k v rest

theorem mem_insert {k : κ} {v : β} {entries : List (κ × β)} {e : κ × β}
    (h : e ∈ insert k v entries) : e = (k, v) ∨ e ∈ entries := by
  induction entries with
  | nil => simpa [insert] using h
  | cons head rest ih =>
    obtain ⟨k', v'⟩ := head
    simp only [insert] at h
    split at h
    · simpa using h
    · rcases List.mem_cons.mp h with h | h
      · exact .inl h
      · exact .inr (List.mem_cons_of_mem _ h)
    · rcases List.mem_cons.mp h with h | h
      · exact .inr (h ▸ List.mem_cons_self)
      · exact (ih h).imp id (List.mem_cons_of_mem _)

theorem insert_ascend [Std.TransOrd κ] (k : κ) (v : β) {entries : List (κ × β)}
    (h : KeysAscend entries) : KeysAscend (insert k v entries) := by
  induction entries with
  | nil => simp [insert, KeysAscend]
  | cons head rest ih =>
    obtain ⟨k', v'⟩ := head
    have hrest : KeysAscend rest := (List.pairwise_cons.mp h).2
    have hhead := (List.pairwise_cons.mp h).1
    simp only [insert]
    split
    · next hlt =>
      refine List.pairwise_cons.mpr ⟨fun e he => ?_, h⟩
      rcases List.mem_cons.mp he with rfl | he
      · exact hlt
      · exact Std.TransCmp.lt_trans hlt (hhead e he)
    · next heq =>
      exact List.pairwise_cons.mpr
        ⟨fun e he => Std.TransCmp.lt_of_eq_of_lt heq (hhead e he), hrest⟩
    · next hgt =>
      refine List.pairwise_cons.mpr ⟨fun e he => ?_, ih hrest⟩
      rcases mem_insert he with rfl | he
      · exact Std.OrientedCmp.gt_iff_lt.mp hgt
      · exact hhead e he

theorem filter_ascend (keep : κ × β → Bool) {entries : List (κ × β)}
    (h : KeysAscend entries) : KeysAscend (entries.filter keep) :=
  h.filter _

theorem map_ascend (f : κ → β → γ) {entries : List (κ × β)} (h : KeysAscend entries) :
    KeysAscend (entries.map fun e => (e.1, f e.1 e.2)) :=
  h.map _ fun _ _ hab => hab

end KeysAscend

/-- A finite map whose entries stand in ascending order of key. -/
structure SortedMap (κ β : Type) [Ord κ] where
  /-- The entries, in ascending order of key. -/
  entries : List (κ × β)
  /-- No two entries share a key, and the keys ascend. -/
  ascend : KeysAscend entries

namespace SortedMap

variable {κ β γ : Type} [Ord κ]

@[ext]
theorem ext_entries {m n : SortedMap κ β} (h : m.entries = n.entries) : m = n := by
  cases m
  cases n
  cases h
  rfl

instance [DecidableEq κ] [DecidableEq β] : DecidableEq (SortedMap κ β) := fun m n =>
  decidable_of_iff (m.entries = n.entries) ⟨ext_entries, fun h => h ▸ rfl⟩

/-- The map without entries. -/
def empty : SortedMap κ β := ⟨[], List.Pairwise.nil⟩

instance : EmptyCollection (SortedMap κ β) := ⟨empty⟩

instance : Inhabited (SortedMap κ β) := ⟨empty⟩

@[simp]
theorem entries_empty : (∅ : SortedMap κ β).entries = [] := rfl

/-- The value under a key. -/
def get? (m : SortedMap κ β) (k : κ) : Option β :=
  (m.entries.find? fun e => compare k e.1 == .eq).map (·.2)

/-- Whether a key has a value. -/
def contains (m : SortedMap κ β) (k : κ) : Bool :=
  (m.get? k).isSome

/-- The keys, ascending. -/
def keys (m : SortedMap κ β) : List κ :=
  m.entries.map (·.1)

/-- The values, in ascending order of their keys. -/
def values (m : SortedMap κ β) : List β :=
  m.entries.map (·.2)

/-- Whether the map has no entry. -/
def isEmpty (m : SortedMap κ β) : Bool :=
  m.entries.isEmpty

/-- Whether some entry passes a test. -/
def any (m : SortedMap κ β) (p : κ → β → Bool) : Bool :=
  m.entries.any fun e => p e.1 e.2

/-- Keeps the entries that pass a test. -/
def filter (m : SortedMap κ β) (keep : κ → β → Bool) : SortedMap κ β :=
  ⟨m.entries.filter fun e => keep e.1 e.2, m.ascend.filter_ascend _⟩

/-- Removes the entry of a key, if there is one. -/
def erase (m : SortedMap κ β) (k : κ) : SortedMap κ β :=
  m.filter fun k' _ => compare k k' != .eq

/-- Changes every value, keys untouched. -/
def map (m : SortedMap κ β) (f : κ → β → γ) : SortedMap κ γ :=
  ⟨m.entries.map fun e => (e.1, f e.1 e.2), m.ascend.map_ascend f⟩

@[simp]
theorem entries_filter (m : SortedMap κ β) (keep : κ → β → Bool) :
    (m.filter keep).entries = m.entries.filter fun e => keep e.1 e.2 := rfl

@[simp]
theorem entries_map (m : SortedMap κ β) (f : κ → β → γ) :
    (m.map f).entries = m.entries.map fun e => (e.1, f e.1 e.2) := rfl

@[simp]
theorem keys_map (m : SortedMap κ β) (f : κ → β → γ) : (m.map f).keys = m.keys := by
  simp [keys]

variable [Std.TransOrd κ]

/-- Puts a value under a key, in place of the one that was there. -/
def insert (m : SortedMap κ β) (k : κ) (v : β) : SortedMap κ β :=
  ⟨KeysAscend.insert k v m.entries, KeysAscend.insert_ascend k v m.ascend⟩

@[simp]
theorem entries_insert (m : SortedMap κ β) (k : κ) (v : β) :
    (m.insert k v).entries = KeysAscend.insert k v m.entries := rfl

end SortedMap

end CounterPolling
