import CounterPolling.Group.Discovery
import CounterPolling.Proofs.Data.Membership
import CounterPolling.Proofs.Dialogue.Questions
import Mathlib.Data.List.Nodup
import Mathlib.Data.Set.Basic

/-!
# Searches for what can be read

A registration may search for counters that can be read: it asks for the capability list, tries
counters, or does both, as what is known tells. Searches that follow each other add to what is
known, so that a group that keeps it asks for the list once and tries a counter once. Main
statements: `Discovery.refresh_along`, what one search does, and `Pursuit.asks_once`,
`Pursuit.tried_nodup` and `Pursuit.tried_eq_nil`, what many of them do together.
-/

namespace CounterPolling

/-- A search for what can be read. -/
structure Search where
  /-- What came of asking for the capability list, if it was asked for. -/
  list? : Option (Except DriverError (List Capability))
  /-- The counters that were tried, in order. -/
  tried : List Int

/-- The questions by which the capability list of a kind of object on a switch is asked for, with
what comes of them. -/
inductive ListQuestions (home : ObjectId) (kind : ObjectKind) :
    Except DriverError (List Capability) → List Event → Prop
  | atOnce {answer : Except DriverError (List Capability)} :
    (∀ required, answer ≠ .error (.tooSmall required)) →
    ListQuestions home kind answer [.answered (.capabilities home kind 0) answer]
  | again {required : Nat} {answer : Except DriverError (List Capability)} :
    ListQuestions home kind answer
      [.answered (.capabilities home kind 0) (.error (.tooSmall required)),
        .answered (.capabilities home kind required) answer]

theorem readCapabilities_along (home : ObjectId) (kind : ObjectKind) :
    (readCapabilities home kind).Along fun asked outcome =>
      ListQuestions home kind outcome asked := by
  unfold readCapabilities
  rw [Dialogue.along_bind, Dialogue.along_question]
  intro answer
  cases answer with
  | ok list => exact .atOnce (by simp)
  | error error =>
    cases error with
    | tooSmall required => exact fun answer => .again
    | _ => exact .atOnce (by simp)

namespace Search

/-- The search of a registration that does not get that far. -/
def idle : Search := ⟨none, []⟩

/-- The capability list was asked for. -/
def asks (search : Search) : Bool := search.list?.isSome

/-- Questions ask for the capability list with an object as the example, if the search does. -/
def AsksForList (search : Search) (object : ObjectId) (kind : ObjectKind) (asked : List Event) :
    Prop :=
  match search.list? with
  | none => asked = []
  | some outcome => ∃ home rest, asked = .answered (.switchOf object) home :: rest ∧
    ListQuestions home kind outcome rest

/-- Questions are those of a search: first for the capability list, and then a block for each
counter that is tried. -/
def Puts (search : Search) (object : ObjectId) (kind : ObjectKind)
    (Tries : Int → List Event → Prop) (asked : List Event) : Prop :=
  ∃ query tries, asked = query ++ tries ∧ search.AsksForList object kind query ∧
    InTurn Tries search.tried tries

end Search

/-- What is known about counters, by their numbers. -/
structure Knowledge where
  /-- Counters found readable. -/
  supported : Set Int
  /-- Counters that were tried. -/
  tried : Set Int
  /-- The capability list was had. -/
  listed : Bool
  /-- The capability list was asked for in vain. -/
  unlisted : Bool

namespace Knowledge

/-- What is still taken for granted when an object registers. -/
def onRegistration (spec : GroupSpec) (known : Knowledge) : Knowledge :=
  if spec.rediscovers then ⟨if spec.keepsSupported then known.supported else ∅, ∅, false, false⟩
  else known

end Knowledge

variable {family : CounterFamily}

theorem CounterId.raw_injective : Function.Injective (raw : CounterId family → Int) :=
  fun _ _ h => ext_raw h

/-- The numbers of the counters of a set. -/
def CounterId.numbers (ids : SortedSet (CounterId family)) : Set Int :=
  {raw | ∃ id, SortedSet.has ids id = true ∧ id.raw = raw}

theorem CounterId.raw_mem_numbers {ids : SortedSet (CounterId family)} {id : CounterId family} :
    id.raw ∈ numbers ids ↔ SortedSet.has ids id = true := by
  constructor
  · rintro ⟨id', hid', hraw⟩
    rwa [← raw_injective hraw]
  · exact fun hid => ⟨id, hid, rfl⟩

theorem CounterId.numbers_empty : numbers (∅ : SortedSet (CounterId family)) = ∅ :=
  Set.eq_empty_of_forall_notMem fun _ ⟨_, hid, _⟩ => Bool.false_ne_true hid

/-- What a group has found out, by the numbers of the counters. -/
def Discovery.knowledge (d : Discovery family) : Knowledge :=
  ⟨CounterId.numbers d.supported, CounterId.numbers d.tried, d.listed, d.unlisted⟩

/-- What a search finds out, from what is known when it starts. It asks for the capability list if
the group uses it and nothing came of it before, and tries the counters asked for that were not
tried before, unless a list is had. -/
structure Search.Leads (search : Search) (spec : GroupSpec) (requested : List Int)
    (start found : Knowledge) : Prop where
  asks_iff : search.asks = true ↔
    start.listed = false ∧ spec.usesCapabilities = true ∧ start.unlisted = false
  listed_iff : found.listed = true ↔ start.listed = true ∨ ∃ list, search.list? = some (.ok list)
  unlisted_iff : found.unlisted = true ↔
    start.unlisted = true ∨ ∃ error, search.list? = some (.error error)
  nodup : search.tried.Nodup
  mem_tried_iff : ∀ raw, raw ∈ search.tried ↔
    found.listed = false ∧ raw ∈ requested ∧ raw ∉ start.tried
  tried_iff : ∀ raw, raw ∈ found.tried ↔ raw ∈ start.tried ∨ raw ∈ search.tried
  supported : start.supported ⊆ found.supported

/-- A search after which the capability list is at hand tried nothing. -/
theorem Search.Leads.tried_eq_nil {search : Search} {spec : GroupSpec} {requested : List Int}
    {start found : Knowledge} (h : search.Leads spec requested start found)
    (hlisted : found.listed = true) : search.tried = [] := by
  refine List.eq_nil_iff_forall_not_mem.mpr fun raw hraw => ?_
  obtain ⟨hunlisted, -⟩ := (h.mem_tried_iff raw).mp hraw
  rw [hlisted] at hunlisted
  cases hunlisted

namespace Discovery

theorem knowledge_onRegistration (spec : GroupSpec) (d : Discovery family) :
    (d.onRegistration spec).knowledge = d.knowledge.onRegistration spec := by
  unfold onRegistration Knowledge.onRegistration
  split
  · split <;> simp [knowledge, initial, CounterId.numbers_empty]
  · rfl

/-- What trying counters comes to: each of those asked for is tried unless it was before. -/
structure Tried (d : Discovery family) (ids tried : List (CounterId family))
    (found : Discovery family) : Prop where
  nodup : tried.Nodup
  mem_iff : ∀ id, id ∈ tried ↔ id ∈ ids ∧ ¬ SortedSet.has d.tried id = true
  has_tried_iff : ∀ id, SortedSet.has found.tried id = true ↔
    SortedSet.has d.tried id = true ∨ id ∈ tried
  has_supported : ∀ id, SortedSet.has d.supported id = true →
    SortedSet.has found.supported id = true
  listed_eq : found.listed = d.listed
  unlisted_eq : found.unlisted = d.unlisted

theorem tried_nil (d : Discovery family) : d.Tried [] [] d where
  nodup := List.nodup_nil
  mem_iff _ := by simp
  has_tried_iff _ := by simp
  has_supported _ := id
  listed_eq := rfl
  unlisted_eq := rfl

/-- A counter that was tried before is passed over. -/
theorem Tried.pass {d found : Discovery family} {ids tried : List (CounterId family)}
    (h : d.Tried ids tried found) {id : CounterId family} (hid : SortedSet.has d.tried id = true) :
    d.Tried (id :: ids) tried found where
  nodup := h.nodup
  mem_iff other := by
    rw [h.mem_iff, List.mem_cons]
    refine and_congr_left fun hother => (or_iff_right ?_).symm
    rintro rfl
    exact hother hid
  has_tried_iff := h.has_tried_iff
  has_supported := h.has_supported
  listed_eq := h.listed_eq
  unlisted_eq := h.unlisted_eq

/-- A counter that was not tried before is tried and recorded. -/
theorem Tried.record {d found : Discovery family} {ids tried : List (CounterId family)}
    {id : CounterId family} {readable : Bool} (hid : ¬ SortedSet.has d.tried id = true)
    (h : (d.record id readable).Tried ids tried found) :
    d.Tried (id :: ids) (id :: tried) found := by
  have hrecorded : ∀ other, SortedSet.has (d.record id readable).tried other = true ↔
      id = other ∨ SortedSet.has d.tried other = true := fun _ => SortedSet.has_add
  constructor
  · refine List.nodup_cons.mpr ⟨fun hmem => ?_, h.nodup⟩
    exact ((h.mem_iff id).mp hmem).2 ((hrecorded id).mpr (.inl rfl))
  · intro other
    rw [List.mem_cons, List.mem_cons, h.mem_iff, hrecorded]
    by_cases hother : id = other
    · subst hother
      simp [hid]
    · simp [hother, Ne.symm hother]
  · intro other
    rw [h.has_tried_iff, hrecorded, List.mem_cons, eq_comm (a := id)]
    exact or_right_comm.trans or_comm
  · intro other hother
    refine h.has_supported other ?_
    unfold Discovery.record
    split
    · exact SortedSet.has_add.mpr (.inr hother)
    · exact hother
  · exact h.listed_eq
  · exact h.unlisted_eq

variable {Tries : Int → List Event → Prop} {attempt : CounterId family → Dialogue Bool}

/-- Trying counters in turn asks a block of questions for each one that was not tried before. -/
theorem carry_tryOnce_along
    (hattempt : ∀ id, (attempt id).Along fun asked _ => Tries id.raw asked)
    (ids : List (CounterId family)) (d : Discovery family) :
    (Dialogue.carry (tryOnce attempt) d ids).Along fun asked found => ∃ tried,
      InTurn Tries (CounterId.raws tried) asked ∧ d.Tried ids tried found := by
  induction ids generalizing d with
  | nil => exact ⟨[], .nil, d.tried_nil⟩
  | cons id rest ih =>
    rw [Dialogue.carry]
    by_cases hid : SortedSet.has d.tried id = true
    · rw [tryOnce, if_pos hid]
      refine (ih d).mono fun asked found => ?_
      rintro ⟨tried, hturn, htried⟩
      exact ⟨tried, hturn, htried.pass hid⟩
    · rw [tryOnce, if_neg hid, bind_assoc]
      refine (hattempt id).bind fun block readable hblock => ?_
      refine (ih (d.record id readable)).mono fun asked found => ?_
      rintro ⟨tried, hturn, htried⟩
      exact ⟨id :: tried, .cons hblock hturn, htried.record hid⟩

/-- With nothing listed at first, a search that gets no list tries counters. -/
theorem Tried.leads {start found : Discovery family} {unlisted : Bool}
    {ids tried : List (CounterId family)}
    (h : ({ start with unlisted := unlisted } : Discovery family).Tried ids tried found)
    {spec : GroupSpec} (failure? : Option DriverError) (hlisted : start.listed = false)
    (hasks : failure?.isSome = true ↔ spec.usesCapabilities = true ∧ start.unlisted = false)
    (hunlisted : unlisted = true ↔ start.unlisted = true ∨ failure?.isSome = true) :
    Search.Leads ⟨failure?.map .error, CounterId.raws tried⟩ spec (CounterId.raws ids)
      start.knowledge found.knowledge := by
  have hfound : found.knowledge.listed = false := h.listed_eq.trans hlisted
  refine ⟨?_, ?_, ?_, h.nodup.map CounterId.raw_injective, ?_, ?_, ?_⟩
  · simp only [Search.asks, Option.isSome_map, hasks]
    exact (and_iff_right hlisted).symm
  · simp [hfound, show start.knowledge.listed = false from hlisted]
  · rw [show found.knowledge.unlisted = unlisted from h.unlisted_eq, hunlisted]
    refine or_congr_right ?_
    cases failure? <;> simp
  · intro raw
    constructor
    · intro hmem
      obtain ⟨id, hid, rfl⟩ := List.mem_map.mp hmem
      obtain ⟨hasked, huntried⟩ := (h.mem_iff id).mp hid
      exact ⟨hfound, List.mem_map_of_mem hasked,
        fun htried => huntried (CounterId.raw_mem_numbers.mp htried)⟩
    · rintro ⟨-, hasked, huntried⟩
      obtain ⟨id, hid, rfl⟩ := List.mem_map.mp hasked
      exact List.mem_map_of_mem ((h.mem_iff id).mpr
        ⟨hid, fun htried => huntried (CounterId.raw_mem_numbers.mpr htried)⟩)
  · intro raw
    constructor
    · rintro ⟨id, hid, rfl⟩
      exact ((h.has_tried_iff id).mp hid).imp CounterId.raw_mem_numbers.mpr List.mem_map_of_mem
    · rintro (⟨id, hid, rfl⟩ | hmem)
      · exact ⟨id, (h.has_tried_iff id).mpr (.inl hid), rfl⟩
      · obtain ⟨id, hid, rfl⟩ := List.mem_map.mp hmem
        exact ⟨id, (h.has_tried_iff id).mpr (.inr hid), rfl⟩
  · rintro raw ⟨id, hid, rfl⟩
    exact ⟨id, h.has_supported id hid, rfl⟩

/-- A search that gets the capability list does nothing else. -/
theorem leads_learn {start : Discovery family} {spec : GroupSpec} (hlisted : start.listed = false)
    (huses : spec.usesCapabilities = true) (hunlisted : start.unlisted = false) (mode : ReadMode)
    (list : List Capability) (requested : List Int) :
    Search.Leads ⟨some (.ok list), []⟩ spec requested start.knowledge
      (start.learn mode list).knowledge where
  asks_iff := iff_of_true rfl ⟨hlisted, huses, hunlisted⟩
  listed_iff := iff_of_true rfl (.inr ⟨list, rfl⟩)
  unlisted_iff := by simp [knowledge, learn]
  nodup := List.nodup_nil
  mem_tried_iff _ := by simp [knowledge, learn]
  tried_iff _ := by simp [knowledge, learn]
  supported := by
    rintro raw ⟨id, hid, rfl⟩
    exact ⟨id, SortedSet.has_addAll.mpr (.inr hid), rfl⟩

/-- With the capability list at hand a search does nothing. -/
theorem leads_listed {start : Discovery family} (hlisted : start.listed = true) (spec : GroupSpec)
    (requested : List Int) :
    Search.idle.Leads spec requested start.knowledge start.knowledge where
  asks_iff := by simp [Search.asks, Search.idle, knowledge, hlisted]
  listed_iff := by simp [Search.idle]
  unlisted_iff := by simp [Search.idle]
  nodup := List.nodup_nil
  mem_tried_iff _ := by simp [Search.idle, knowledge, hlisted]
  tried_iff _ := by simp [Search.idle]
  supported := subset_rfl

/-- Finding out what a registration needs to know is one search, whatever the driver answers. -/
theorem refresh_along (settings : GroupSettings) (object : ObjectId) (mode : ReadMode)
    (hattempt : ∀ id, (attempt id).Along fun asked _ => Tries id.raw asked)
    (requested : List (CounterId family)) (known : Discovery family) :
    (refresh settings object mode attempt requested known).Along fun asked found =>
      ∃ search : Search, search.Puts object family.kind Tries asked ∧
        search.Leads settings.spec (CounterId.raws requested)
          (known.knowledge.onRegistration settings.spec) found.knowledge := by
  unfold refresh
  rw [← knowledge_onRegistration]
  generalize known.onRegistration settings.spec = start
  dsimp only
  split
  · next hlisted =>
    exact ⟨.idle, ⟨[], [], rfl, rfl, .nil⟩, leads_listed hlisted _ _⟩
  · next hlisted =>
    rw [Bool.not_eq_true] at hlisted
    split
    · next hasks =>
      rw [Bool.and_eq_true, Bool.not_eq_true'] at hasks
      obtain ⟨huses, hunlisted⟩ := hasks
      rw [Dialogue.along_bind, Dialogue.along_question]
      intro home
      refine (readCapabilities_along home family.kind).bind fun query outcome hquery => ?_
      cases outcome with
      | ok list =>
        refine ⟨⟨some (.ok list), []⟩, ⟨_, [], ?_, ⟨home, query, rfl, hquery⟩, .nil⟩, ?_⟩
        · simp
        · exact leads_learn hlisted huses hunlisted mode list _
      | error error =>
        refine (carry_tryOnce_along hattempt requested _).mono fun asked found => ?_
        rintro ⟨tried, hturn, htried⟩
        refine ⟨⟨some (.error error), CounterId.raws tried⟩,
          ⟨_, asked, rfl, ⟨home, query, rfl, hquery⟩, hturn⟩, ?_⟩
        exact htried.leads (some error) hlisted (iff_of_true rfl ⟨huses, hunlisted⟩)
          (iff_of_true rfl (.inr rfl))
    · next hasks =>
      rw [Bool.and_eq_true, Bool.not_eq_true'] at hasks
      refine (carry_tryOnce_along hattempt requested start).mono fun asked found => ?_
      rintro ⟨tried, hturn, htried⟩
      refine ⟨⟨none, CounterId.raws tried⟩, ⟨[], asked, rfl, rfl, hturn⟩, ?_⟩
      exact htried.leads none hlisted (by simpa using hasks) (by simp)

end Discovery

/-- Searches that follow each other, each of which starts from what is known after the one before.
Some registrations do not get as far as a search. -/
inductive Pursuit (spec : GroupSpec) : Knowledge → List Search → Knowledge → Prop
  | nil (known : Knowledge) : Pursuit spec known [] known
  | idle {known final : Knowledge} {searches : List Search} :
    Pursuit spec known searches final → Pursuit spec known (.idle :: searches) final
  | search {known found final : Knowledge} {search : Search} {searches : List Search}
    {requested : List Int} : search.Leads spec requested (known.onRegistration spec) found →
    Pursuit spec found searches final → Pursuit spec known (search :: searches) final

namespace Pursuit

variable {spec : GroupSpec} {known final : Knowledge} {searches : List Search}

theorem one {search : Search} {requested : List Int}
    (h : search.Leads spec requested (known.onRegistration spec) final) :
    Pursuit spec known [search] final :=
  .search h (.nil final)

theorem append {later : List Search} {found : Knowledge} (h : Pursuit spec known searches found)
    (h' : Pursuit spec found later final) : Pursuit spec known (searches ++ later) final := by
  induction h with
  | nil known => exact h'
  | idle _ ih => exact .idle (ih h')
  | search hleads _ ih => exact .search hleads (ih h')

/-- Searches in two parts have something known in between. -/
theorem split {done later : List Search} (h : Pursuit spec known (done ++ later) final) :
    ∃ found, Pursuit spec known done found ∧ Pursuit spec found later final := by
  induction done generalizing known with
  | nil => exact ⟨known, .nil known, h⟩
  | cons first rest ih =>
    cases h with
    | idle hlater =>
      obtain ⟨found, hrest, hlater⟩ := ih hlater
      exact ⟨found, .idle hrest, hlater⟩
    | search hleads hlater =>
      obtain ⟨found, hrest, hlater⟩ := ih hlater
      exact ⟨found, .search hleads hrest, hlater⟩

section Keeping

variable (hspec : spec.rediscovers = false)

include hspec

theorem onRegistration_eq (known : Knowledge) : known.onRegistration spec = known := by
  rw [Knowledge.onRegistration, hspec]
  rfl

/-- Once something came of asking for the capability list it is not asked for any more. -/
theorem asks_eq_false (h : Pursuit spec known searches final)
    (hasked : known.listed = true ∨ known.unlisted = true) :
    ∀ search ∈ searches, search.asks = false := by
  induction h with
  | nil known => exact fun search hsearch => absurd hsearch List.not_mem_nil
  | idle _ ih => exact List.forall_mem_cons.mpr ⟨rfl, ih hasked⟩
  | @search known found final search rest requested hleads _ ih =>
    rw [onRegistration_eq hspec] at hleads
    refine List.forall_mem_cons.mpr ⟨?_, ih ?_⟩
    · rw [← Bool.not_eq_true, hleads.asks_iff]
      rintro ⟨hlisted, -, hunlisted⟩
      simp [hlisted, hunlisted] at hasked
    · exact hasked.imp (fun hlisted => hleads.listed_iff.mpr (.inl hlisted)) fun hunlisted =>
        hleads.unlisted_iff.mpr (.inl hunlisted)

/-- However many searches follow each other, the capability list is asked for once at most. -/
theorem asks_once (h : Pursuit spec known searches final) : searches.countP Search.asks ≤ 1 := by
  induction h with
  | nil known => exact Nat.zero_le 1
  | idle _ ih => exact ih
  | @search known found final search rest requested hleads hrest ih =>
    by_cases hasks : search.asks = true
    · obtain ⟨outcome, houtcome⟩ := Option.isSome_iff_exists.mp hasks
      have hasked : found.listed = true ∨ found.unlisted = true := by
        cases outcome with
        | ok list => exact .inl (hleads.listed_iff.mpr (.inr ⟨list, houtcome⟩))
        | error error => exact .inr (hleads.unlisted_iff.mpr (.inr ⟨error, houtcome⟩))
      have hnone : rest.countP Search.asks = 0 := List.countP_eq_zero.mpr fun other hother =>
        Bool.eq_false_iff.mp (hrest.asks_eq_false hspec hasked other hother)
      rw [List.countP_cons_of_pos hasks, hnone]
    · rwa [List.countP_cons_of_neg hasks]

/-- No counter is tried twice, and none that was tried before. -/
theorem tried_nodup (h : Pursuit spec known searches final) :
    (searches.flatMap Search.tried).Nodup ∧
      ∀ raw ∈ searches.flatMap Search.tried, raw ∉ known.tried := by
  induction h with
  | nil known => exact ⟨List.nodup_nil, fun raw hraw => absurd hraw List.not_mem_nil⟩
  | idle _ ih => exact ih
  | @search known found final search rest requested hleads _ ih =>
    rw [onRegistration_eq hspec] at hleads
    obtain ⟨hnodup, hfresh⟩ := ih
    rw [List.flatMap_cons]
    constructor
    · refine hleads.nodup.append hnodup fun raw hraw hlater => ?_
      exact hfresh raw hlater ((hleads.tried_iff raw).mpr (.inr hraw))
    · intro raw hraw
      rcases List.mem_append.mp hraw with hnow | hlater
      · exact ((hleads.mem_tried_iff raw).mp hnow).2.2
      · exact fun hknown => hfresh raw hlater ((hleads.tried_iff raw).mpr (.inl hknown))

/-- With the capability list at hand nothing is tried. -/
theorem tried_eq_nil (h : Pursuit spec known searches final) (hlisted : known.listed = true) :
    ∀ search ∈ searches, search.tried = [] := by
  induction h with
  | nil known => exact fun search hsearch => absurd hsearch List.not_mem_nil
  | idle _ ih => exact List.forall_mem_cons.mpr ⟨rfl, ih hlisted⟩
  | @search known found final search rest requested hleads _ ih =>
    rw [onRegistration_eq hspec] at hleads
    have hfound := hleads.listed_iff.mpr (.inl hlisted)
    refine List.forall_mem_cons.mpr ⟨hleads.tried_eq_nil hfound, ih hfound⟩

/-- From the search on that gets the capability list nothing is tried. -/
theorem tried_eq_nil_of_list (h : Pursuit spec known searches final) {done later : List Search}
    {search : Search} {list : List Capability} (hsplit : searches = done ++ search :: later)
    (hlist : search.list? = some (.ok list)) : ∀ other ∈ search :: later, other.tried = [] := by
  rw [hsplit] at h
  obtain ⟨before, -, hfrom⟩ := h.split
  cases hfrom with
  | idle _ => cases hlist
  | search hleads hlater =>
    have hfound := hleads.listed_iff.mpr (.inr ⟨list, hlist⟩)
    exact List.forall_mem_cons.mpr
      ⟨hleads.tried_eq_nil hfound, hlater.tried_eq_nil hspec hfound⟩

/-- What was found readable stays so. -/
theorem supported_subset (h : Pursuit spec known searches final) :
    known.supported ⊆ final.supported := by
  induction h with
  | nil known => exact subset_rfl
  | idle _ ih => exact ih
  | search hleads _ ih =>
    rw [onRegistration_eq hspec] at hleads
    exact hleads.supported.trans ih

end Keeping

/-- When every registration finds out anew, a search tries each counter once at most, and none
unless it goes without the capability list. -/
theorem tried_anew (hspec : spec.rediscovers = true) (h : Pursuit spec known searches final) :
    ∀ search ∈ searches, search.tried.Nodup ∧
      (search.tried ≠ [] → spec.usesCapabilities = false ∨
        ∃ error, search.list? = some (.error error)) := by
  induction h with
  | nil known => exact fun search hsearch => absurd hsearch List.not_mem_nil
  | idle _ ih => exact List.forall_mem_cons.mpr ⟨⟨List.nodup_nil, absurd rfl⟩, ih⟩
  | @search known found final search rest requested hleads _ ih =>
    refine List.forall_mem_cons.mpr ⟨⟨hleads.nodup, fun htried => ?_⟩, ih⟩
    have hfresh : (known.onRegistration spec).listed = false ∧
        (known.onRegistration spec).unlisted = false := by
      rw [Knowledge.onRegistration, if_pos hspec]
      exact ⟨rfl, rfl⟩
    refine or_iff_not_imp_left.mpr fun huses => ?_
    have hasks := hleads.asks_iff.mpr ⟨hfresh.1, by simpa using huses, hfresh.2⟩
    obtain ⟨outcome, houtcome⟩ := Option.isSome_iff_exists.mp hasks
    cases outcome with
    | ok list =>
      have hfound := hleads.listed_iff.mpr (.inr ⟨list, houtcome⟩)
      exact absurd (hleads.tried_eq_nil hfound) htried
    | error error => exact ⟨error, houtcome⟩

end Pursuit

end CounterPolling
