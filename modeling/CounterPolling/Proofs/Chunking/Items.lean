import CounterPolling.Proofs.Counter.Names

/-!
# Prefix items that are read from text

The prefixes of an item are written with bars between, and one that is read from text holds no
bar itself. So the name of an item tells its prefixes, and looking up the name of a class that
has counters finds the chunk size of the class. Main statement: `sizeNamed?_className`.
-/

namespace CounterPolling

/-- What stands in a list that was made member by member was made from a member. -/
theorem exists_of_mem_mapM {α β : Type} {f : α → Option β} {as : List α} {bs : List β}
    (h : as.mapM f = some bs) {b : β} (hb : b ∈ bs) : ∃ a ∈ as, f a = some b := by
  induction as generalizing bs with
  | nil =>
    cases h
    exact absurd hb List.not_mem_nil
  | cons a as ih =>
    rw [List.mapM_cons, Option.bind_eq_bind, Option.bind_eq_some_iff] at h
    obtain ⟨first, hfirst, h⟩ := h
    rw [Option.bind_eq_bind, Option.bind_eq_some_iff] at h
    obtain ⟨rest, hrest, h⟩ := h
    cases h
    rcases List.mem_cons.mp hb with rfl | hb
    · exact ⟨a, List.mem_cons_self, hfirst⟩
    · obtain ⟨a', ha', hfa'⟩ := ih hrest hb
      exact ⟨a', List.mem_cons_of_mem _ ha', hfa'⟩

namespace Text

/-- The pieces between separators hold none. -/
theorem not_mem_of_mem_splitOn {separator : Char} {cs piece : List Char}
    (h : piece ∈ cs.splitOn separator) : separator ∉ piece := by
  induction cs generalizing piece with
  | nil =>
    rw [List.splitOn_nil, List.mem_singleton] at h
    rw [h]
    exact List.not_mem_nil
  | cons c cs ih =>
    rw [List.splitOn_cons_eq_if_modifyHead] at h
    split at h
    · rcases List.mem_cons.mp h with rfl | hrest
      · exact List.not_mem_nil
      · exact ih hrest
    · next hc =>
      obtain ⟨first, rest, hsplit⟩ := List.exists_cons_of_ne_nil (List.splitOn_ne_nil separator cs)
      rw [hsplit, List.modifyHead_cons] at h
      rcases List.mem_cons.mp h with rfl | hrest
      · rw [List.mem_cons, not_or]
        exact ⟨fun heq => hc (beq_iff_eq.mpr heq.symm), ih (hsplit ▸ List.mem_cons_self)⟩
      · exact ih (hsplit ▸ List.mem_cons_of_mem _ hrest)

theorem mem_of_mem_trimChars {c : Char} {cs : List Char} (h : c ∈ trimChars cs) : c ∈ cs := by
  unfold trimChars at h
  have hfront := (List.dropWhile_sublist isBlank).subset (List.mem_reverse.mp h)
  exact (List.dropWhile_sublist isBlank).subset (List.mem_reverse.mp hfront)

theorem not_mem_of_mem_pieceChars {separator : Char} {cs piece : List Char}
    (h : piece ∈ pieceChars separator cs) : separator ∉ piece := by
  obtain ⟨whole, hwhole, rfl⟩ := List.mem_map.mp (List.mem_filter.mp h).1
  exact fun hmem => not_mem_of_mem_splitOn hwhole (mem_of_mem_trimChars hmem)

end Text

namespace PrefixItem

variable {item item' : PrefixItem}

/-- The item has prefixes, and none of them holds a bar. -/
structure Plain (item : PrefixItem) : Prop where
  prefixes_ne_nil : item.prefixes ≠ []
  no_bar : ∀ start ∈ item.prefixes, '|' ∉ start.toList

theorem plain_of_ofChars? {cs : List Char} (h : ofChars? cs = some item) : item.Plain := by
  unfold ofChars? at h
  split at h
  · cases h
  · next front back hsplit =>
    split at h
    · cases h
    · next chunkSize hsize =>
      split at h
      · cases h
      · next first rest hpieces =>
        cases h
        refine ⟨by simp, ?_⟩
        intro start hstart
        obtain ⟨piece, hpiece, rfl⟩ := List.mem_map.mp hstart
        rw [String.toList_ofList]
        exact Text.not_mem_of_mem_pieceChars (hpieces ▸ hpiece)

/-- The name of an item tells its prefixes. -/
theorem Plain.prefixes_eq (h : item.Plain) (h' : item'.Plain) (hname : item.name = item'.name) :
    item.prefixes = item'.prefixes := by
  have hsplit : ∀ item : PrefixItem, item.Plain →
      item.name.toList.splitOn '|' = item.prefixes.map String.toList := by
    intro item h
    rw [name, String.toList_intercalate]
    refine List.splitOn_intercalate '|' ?_ (by simpa using h.prefixes_ne_nil)
    intro piece hpiece
    obtain ⟨start, hstart, rfl⟩ := List.mem_map.mp hpiece
    exact h.no_bar start hstart
  have hlists := hsplit item h
  rw [hname, hsplit item' h'] at hlists
  exact (List.map_injective_iff.mpr (fun _ _ => String.toList_inj.mp) hlists).symm

/-- What an item covers depends on its prefixes only. -/
theorem covers_congr (h : item.prefixes = item'.prefixes) (counter : String) :
    item.covers counter = item'.covers counter := by
  rw [covers, covers, h]

end PrefixItem

namespace PrefixConfig

variable {family : CounterFamily} {config : PrefixConfig}

/-- The configuration can be read from some text. -/
def Parsed (config : PrefixConfig) : Prop :=
  ∃ text, parse text = .ok config

theorem Parsed.plain (h : config.Parsed) : ∀ item ∈ config.items, item.Plain := by
  obtain ⟨text, htext⟩ := h
  unfold parse at htext
  generalize Text.pieceChars ';' text.toList = pieces at htext
  cases hitems : pieces.mapM PrefixItem.ofChars? with
  | none =>
    rw [hitems] at htext
    cases htext
  | some items =>
    rw [hitems] at htext
    cases htext
    intro item hitem
    obtain ⟨cs, -, hcs⟩ := exists_of_mem_mapM hitems hitem
    exact PrefixItem.plain_of_ofChars? hcs

theorem parsed_empty : (∅ : PrefixConfig).Parsed :=
  ⟨"", by decide⟩

/-- No item before that of a class covers the counters of the class. -/
theorem covers_eq_false_of_classOf {id : CounterId family} {i : Nat}
    (h : config.classOf id = some i) {j : Nat} (hj : j < i) {item : PrefixItem}
    (hitem : config.items[j]? = some item) : item.covers id.name = false := by
  obtain ⟨⟨position, first⟩, hfirst, rfl⟩ := Option.map_eq_some_iff.mp h
  obtain ⟨entry, hentry, heq⟩ := Option.map_eq_some_iff.mp hfirst
  cases heq
  obtain ⟨-, k, hk, hentryk, hbefore⟩ := List.find?_eq_some_iff_getElem.mp hentry
  have hposition : k = entry.2 := by
    rw [← hentryk, List.getElem_zipIdx, Nat.zero_add]
  obtain ⟨hlength, rfl⟩ := List.getElem?_eq_some_iff.mp hitem
  have hnot := hbefore j (hposition ▸ hj)
  rw [List.getElem_zipIdx] at hnot
  simpa using hnot

/-- Looking up the name of a class with counters finds the size of the class. -/
theorem sizeNamed?_className (hplain : ∀ item ∈ config.items, item.Plain) {id : CounterId family}
    {i : Nat} (h : config.classOf id = some i) (defaultSize : Nat) :
    config.sizeNamed? (config.className (some i)) =
      some (config.classSize defaultSize (some i)) := by
  obtain ⟨item, hitem, hcovers⟩ := exists_item_of_classOf h
  have hname : config.className (some i) = item.name := by simp [className, hitem]
  have hsize : config.classSize defaultSize (some i) = item.chunkSize := by
    simp [classSize, hitem]
  rw [hname, hsize, sizeNamed?, Option.map_eq_some_iff]
  refine ⟨item, ?_, rfl⟩
  obtain ⟨hi, hget⟩ := List.getElem?_eq_some_iff.mp hitem
  refine List.find?_eq_some_iff_getElem.mpr ⟨beq_self_eq_true _, i, hi, hget, ?_⟩
  intro j hj
  -- an earlier item of the name has the prefixes of this one, so it covers the counter first
  rw [Bool.not_eq_true', beq_eq_false_iff_ne]
  intro hsame
  have hprefixes := (hplain _ (List.getElem_mem (Nat.lt_trans hj hi))).prefixes_eq
    (hplain item (hget ▸ List.getElem_mem hi)) hsame
  have hnot := covers_eq_false_of_classOf h hj (List.getElem?_eq_getElem (Nat.lt_trans hj hi))
  rw [PrefixItem.covers_congr hprefixes, hcovers] at hnot
  exact Bool.noConfusion hnot

/-- A size is found under the names of the items only. -/
theorem sizeNamed?_eq_none_iff {name : String} :
    config.sizeNamed? name = none ↔ name ∉ config.items.map PrefixItem.name := by
  simp [sizeNamed?]

/-- Configurations that divide alike have sizes under the same names. -/
theorem DivideAlike.sizeNamed?_eq_none_iff {config' : PrefixConfig} (h : DivideAlike config config')
    (name : String) : config.sizeNamed? name = none ↔ config'.sizeNamed? name = none := by
  rw [PrefixConfig.sizeNamed?_eq_none_iff, PrefixConfig.sizeNamed?_eq_none_iff, h.names_eq]

end PrefixConfig

end CounterPolling
