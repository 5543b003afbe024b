import CounterPolling.Proofs.Chunking.Classes

/-!
# Names of counters and of classes

A counter is told by its name, and no counter has a name that begins like that of the default
share. Main statements: `CounterId.name_injective`, and `className_eq_default_iff`, by which
only counters that no prefix covers fall into a class of the default name.
-/

namespace CounterPolling

namespace CounterId

variable {family : CounterFamily}

/-- The catalog has an id under its name. -/
theorem mem_catalog (id : CounterId family) : (id.name, id.raw) ∈ family.catalog := by
  obtain ⟨entry, hentry, hname⟩ := Option.map_eq_some_iff.mp (Option.some_get id.known).symm
  have hmem := List.mem_of_find?_eq_some hentry
  have hraw : entry.2 = id.raw := by simpa using List.find?_some hentry
  have heq : entry = (id.name, id.raw) := Prod.ext hname hraw
  rwa [heq] at hmem

theorem name_injective : Function.Injective (name : CounterId family → String) := by
  intro a b h
  apply ext_raw
  have heq : (a.name, a.raw) = (b.name, b.raw) :=
    List.inj_on_of_nodup_map family.names_nodup a.mem_catalog b.mem_catalog h
  exact congrArg Prod.snd heq

end CounterId

/-- No counter of the catalogs has a name that begins with the default name. -/
theorem CounterFamily.not_startsWith_default (family : CounterFamily) :
    ∀ entry ∈ family.catalog, entry.1.startsWith defaultShare = false := by
  cases family <;> decide +kernel

namespace PrefixConfig

variable {family : CounterFamily} {config : PrefixConfig}

/-- The item of a class covers the counters of the class. -/
theorem exists_item_of_classOf {id : CounterId family} {i : Nat}
    (h : config.classOf id = some i) :
    ∃ item, config.items[i]? = some item ∧ item.covers id.name = true := by
  obtain ⟨⟨j, item⟩, hfirst, rfl⟩ := Option.map_eq_some_iff.mp h
  obtain ⟨entry, hentry, heq⟩ := Option.map_eq_some_iff.mp hfirst
  cases heq
  have hcovers := List.find?_some hentry
  refine ⟨entry.1, ?_, hcovers⟩
  exact List.mem_zipIdx_iff_getElem?.mp (List.mem_of_find?_eq_some hentry)

/-- An item that has the default name covers no counter. -/
theorem name_ne_default {item : PrefixItem} {id : CounterId family}
    (h : item.covers id.name = true) : item.name ≠ defaultShare := by
  obtain ⟨start, hstart, hprefix⟩ := List.any_eq_true.mp h
  intro hname
  unfold PrefixItem.name at hname
  cases hprefixes : item.prefixes with
  | nil =>
    rw [hprefixes] at hstart
    exact absurd hstart List.not_mem_nil
  | cons first rest =>
    rw [hprefixes] at hname hstart
    cases rest with
    | nil =>
      rw [String.intercalate_singleton] at hname
      rw [List.mem_singleton.mp hstart, hname, List.isPrefixOf_iff_prefix] at hprefix
      have hnot := family.not_startsWith_default _ id.mem_catalog
      exact String.startsWith_string_eq_false_iff.mp hnot hprefix
    | cons second rest =>
      rw [String.intercalate_cons_cons] at hname
      have hbar : '|' ∈ defaultShare.toList := by
        rw [← hname]
        simp
      exact absurd hbar (by decide)

/-- A class with counters has the default name only if no item covers them. -/
theorem className_eq_default_iff {id : CounterId family} {c : Option Nat}
    (h : config.classOf id = c) : config.className c = defaultShare ↔ c = none := by
  cases c with
  | none => exact iff_of_true rfl rfl
  | some i =>
    obtain ⟨item, hitem, hcovers⟩ := exists_item_of_classOf h
    refine iff_of_false ?_ (Option.some_ne_none i)
    intro hname
    simp only [className, Option.bind_some, hitem, Option.map_some, Option.getD_some] at hname
    exact name_ne_default hcovers hname

end PrefixConfig

end CounterPolling
