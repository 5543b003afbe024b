import CounterPolling.Proofs.Text.Rereading

/-!
# The canonical text of a prefix configuration

A configuration may be written in many ways, with blanks around its parts, blank pieces, and signs
or zeros before its sizes. Writing what was read gives the one text among them that has none of
these. It is read as the same configuration, because no prefix that is read begins or ends with a
blank or holds a separator, colons apart, and the colon before the size is the last one. Main
statement: `parse_canonical`.
-/

namespace CounterPolling

/-- A list that is made member by member, each from the member it gives, is made again. -/
theorem mapM_map_of_forall {α β : Type} {f : α → Option β} {g : β → α} {bs : List β}
    (h : ∀ b ∈ bs, f (g b) = some b) : (bs.map g).mapM f = some bs := by
  induction bs with
  | nil => rfl
  | cons b bs ih =>
    obtain ⟨hb, hbs⟩ := List.forall_mem_cons.mp h
    rw [List.map_cons, List.mapM_cons, hb, ih hbs]
    rfl

namespace PrefixItem

/-- A prefix that may be written between separators: not empty, trimmed, and without the characters
that end prefixes and items. -/
structure CleanPrefix (start : String) : Prop where
  ne_empty : start ≠ ""
  trim_eq : Text.trim start = start
  no_semicolon : ';' ∉ start.toList
  no_bar : '|' ∉ start.toList

/-- An item may be written: it has prefixes, all of them clean, and a size that fits a word. -/
structure Writable (item : PrefixItem) : Prop where
  prefixes_ne_nil : item.prefixes ≠ []
  clean : ∀ start ∈ item.prefixes, CleanPrefix start
  size_lt : item.chunkSize < Text.wordLimit

variable {item : PrefixItem}

theorem CleanPrefix.toList_ne_nil {start : String} (h : CleanPrefix start) : start.toList ≠ [] :=
  fun hnil => h.ne_empty (String.toList_inj.mp hnil)

theorem CleanPrefix.trimmed {start : String} (h : CleanPrefix start) :
    Text.Trimmed start.toList := by
  rw [← h.trim_eq, Text.toList_trim]
  exact Text.trimmed_trimChars _

/-- An item that is read from a text without semicolons may be written. -/
theorem writable_of_ofChars? {cs : List Char} (hcs : ';' ∉ cs) (h : ofChars? cs = some item) :
    item.Writable := by
  have hplain := plain_of_ofChars? h
  unfold ofChars? at h
  split at h
  · cases h
  · next front back hsplit =>
    split at h
    · cases h
    · next chunkSize hsize =>
      split at h
      · cases h
      · next first rest hpieces =>
        cases h
        refine ⟨hplain.prefixes_ne_nil, fun start hstart => ?_, Text.lt_of_wordChars? hsize⟩
        obtain ⟨piece, hpiece, rfl⟩ := List.mem_map.mp hstart
        obtain ⟨hne, htrimmed, hmem⟩ := Text.of_mem_pieceChars (hpieces ▸ hpiece)
        constructor
        · intro hempty
          exact hne (by simpa using congrArg String.toList hempty)
        · rw [Text.trim, String.toList_ofList, htrimmed.trimChars_eq]
        · rw [String.toList_ofList]
          intro hsemicolon
          refine hcs ?_
          rw [Text.append_of_splitAtLast hsplit]
          exact List.mem_append_left _ (hmem _ hsemicolon)
        · exact hplain.no_bar _ hstart

/-- The text of an item: its prefixes with bars between, a colon, and the digits of its size. -/
theorem toList_render (item : PrefixItem) :
    item.render.toList = ['|'].intercalate (item.prefixes.map String.toList) ++
      ':' :: Nat.toDigits 10 item.chunkSize := by
  rw [render, name, Nat.toString_eq_ofList_toDigits]
  simp [String.toList_intercalate]

/-- What is read of the text of an item is the item. -/
theorem Writable.ofChars?_render (h : item.Writable) : ofChars? item.render.toList = some item := by
  have hcolon : ':' ∉ Nat.toDigits 10 item.chunkSize := by
    intro hmem
    exact absurd (Text.isDigit_of_mem_toDigits hmem) (by decide)
  have hpieces : Text.pieceChars '|' (['|'].intercalate (item.prefixes.map String.toList)) =
      item.prefixes.map String.toList := by
    refine Text.pieceChars_intercalate fun piece hpiece => ?_
    obtain ⟨start, hstart, rfl⟩ := List.mem_map.mp hpiece
    have hclean := h.clean start hstart
    exact ⟨hclean.toList_ne_nil, hclean.trimmed, hclean.no_bar⟩
  have hprefixes : (item.prefixes.map String.toList).map String.ofList = item.prefixes := by
    simp [Function.comp_def]
  obtain ⟨first, rest, hcons⟩ := List.exists_cons_of_ne_nil
    (mt List.map_eq_nil_iff.mp h.prefixes_ne_nil : item.prefixes.map String.toList ≠ [])
  rw [hcons] at hpieces hprefixes
  rw [ofChars?, toList_render, hcons, Text.splitAtLast_append _ hcolon]
  dsimp only
  rw [(Text.trimmed_toDigits _).trimChars_eq, Text.wordChars?_toDigits h.size_lt, hpieces]
  dsimp only
  rw [hprefixes]

/-- The text of an item may stand between semicolons. -/
theorem Writable.render_piece (h : item.Writable) :
    item.render.toList ≠ [] ∧ Text.Trimmed item.render.toList ∧ ';' ∉ item.render.toList := by
  obtain ⟨first, rest, hcons⟩ := List.exists_cons_of_ne_nil h.prefixes_ne_nil
  have hfirst := h.clean first (hcons ▸ List.mem_cons_self)
  obtain ⟨later, hname⟩ : ∃ later, ['|'].intercalate (item.prefixes.map String.toList) =
      first.toList ++ later := by
    rw [hcons]
    cases rest with
    | nil => exact ⟨[], by simp⟩
    | cons second rest => exact ⟨_, by rw [List.map_cons, List.map_cons,
        List.intercalate_cons_cons, List.append_assoc]⟩
  have htext : item.render.toList =
      first.toList ++ ((later ++ [':']) ++ Nat.toDigits 10 item.chunkSize) := by
    rw [toList_render, hname]
    simp
  refine ⟨?_, ?_, ?_⟩
  · rw [toList_render]
    simp
  · rw [htext]
    exact hfirst.trimmed.append (Text.trimmed_toDigits _) hfirst.toList_ne_nil Nat.toDigits_ne_nil _
  · rw [toList_render, List.mem_append, List.mem_cons, not_or, not_or]
    refine ⟨fun hmem => ?_, by decide, fun hmem => ?_⟩
    · refine Text.not_mem_intercalate (by decide) (fun piece hpiece => ?_) hmem
      obtain ⟨start, hstart, rfl⟩ := List.mem_map.mp hpiece
      exact (h.clean start hstart).no_semicolon
    · exact absurd (Text.isDigit_of_mem_toDigits hmem) (by decide)

end PrefixItem

namespace PrefixConfig

variable {config : PrefixConfig}

/-- The items of a configuration that is read may be written. -/
theorem writable_of_parse {text : String} (h : parse text = .ok config) :
    ∀ item ∈ config.items, item.Writable := by
  unfold parse at h
  split at h
  · next items hitems =>
    cases h
    intro item hitem
    obtain ⟨cs, hcs, hread⟩ := exists_of_mem_mapM hitems hitem
    exact PrefixItem.writable_of_ofChars? (Text.not_mem_of_mem_pieceChars hcs) hread
  · cases h

/-- A configuration is read from its text if its items may be written. -/
theorem parse_render (h : ∀ item ∈ config.items, item.Writable) :
    parse config.render = .ok config := by
  have htext : config.render.toList =
      [';'].intercalate (config.items.map fun item => item.render.toList) := by
    rw [render, String.toList_intercalate, List.map_map]
    rfl
  have hpieces : Text.pieceChars ';' config.render.toList =
      config.items.map fun item => item.render.toList := by
    rw [htext]
    refine Text.pieceChars_intercalate fun piece hpiece => ?_
    obtain ⟨item, hitem, rfl⟩ := List.mem_map.mp hpiece
    exact (h item hitem).render_piece
  have hitems := mapM_map_of_forall fun item hitem => (h item hitem).ofChars?_render
  rw [parse, hpieces, hitems]

/-- Writing what was read from any text that is accepted gives a text that is read the same: the
same items in the same order, with the same prefixes and sizes. The prefixes are not empty, trimmed,
and hold no separator of prefixes or of items; and items have one name exactly if they have the same
prefixes. -/
theorem parse_canonical {text : String} (h : parse text = .ok config) :
    parse config.render = .ok config ∧
    (∀ item ∈ config.items, item.prefixes ≠ [] ∧ ∀ start ∈ item.prefixes,
      start ≠ "" ∧ Text.trim start = start ∧ ';' ∉ start.toList ∧ '|' ∉ start.toList) ∧
    ∀ item ∈ config.items, ∀ item' ∈ config.items,
      item.name = item'.name ↔ item.prefixes = item'.prefixes := by
  have hwritable := writable_of_parse h
  have hplain := Parsed.plain ⟨text, h⟩
  refine ⟨parse_render hwritable, fun item hitem => ?_, fun item hitem item' hitem' => ?_⟩
  · refine ⟨(hwritable item hitem).prefixes_ne_nil, fun start hstart => ?_⟩
    have hclean := (hwritable item hitem).clean start hstart
    exact ⟨hclean.ne_empty, hclean.trim_eq, hclean.no_semicolon, hclean.no_bar⟩
  · refine ⟨(hplain item hitem).prefixes_eq (hplain item' hitem'), fun heq => ?_⟩
    rw [PrefixItem.name, PrefixItem.name, heq]

/-- Two items, one of them with a colon and a blank inside a prefix, among blanks, blank pieces, a
sign and a zero. -/
theorem parse_canonical_two_items :
    let text := " IN:x y | |OUT :+07 ;; \u3000ETHER: 016;"
    let config : PrefixConfig := ⟨[⟨["IN:x y", "OUT"], 7⟩, ⟨["ETHER"], 16⟩]⟩
    parse text = .ok config ∧ config.render = "IN:x y|OUT:7;ETHER:16" ∧
      parse "IN:x y|OUT:7;ETHER:16" = .ok config := by
  intro text config
  have htext : parse text = .ok config := by decide +kernel
  have hrender : config.render = "IN:x y|OUT:7;ETHER:16" := by decide +kernel
  exact ⟨htext, hrender, hrender ▸ (parse_canonical htext).1⟩

end PrefixConfig

end CounterPolling
