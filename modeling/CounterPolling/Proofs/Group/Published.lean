import CounterPolling.Proofs.Group.Pass
import CounterPolling.Proofs.Group.Trials

/-!
# What a pass publishes

With a driver that never changes and judges bulk reads row by row, what a pass publishes is
told by what is registered: chunks, and the partitions that they are chunks of, leave no trace.
Main statement: `Sound.publishedAt_eq_some_iff`.
-/

namespace CounterPolling

/-- The event of a request that the driver answers. -/
def Event.ofDriver (driver : Driver) (request : Request) : Event :=
  .answered request (driver request)

/-- The value of a field of a row after events: the one written last. -/
def publishedAt (events : List Event) (key field : String) : Option String :=
  ((fieldsOf events).reverse.map fun written => ((written.1, written.2.1), written.2.2)).lookup
    (key, field)

/-- If no field is written twice, those written are those published. -/
theorem publishedAt_eq_some_iff {events : List Event}
    (h : ((fieldsOf events).map fun written => (written.1, written.2.1)).Nodup)
    {key field text : String} :
    publishedAt events key field = some text ↔ (key, field, text) ∈ fieldsOf events := by
  have hmem : (key, field, text) ∈ fieldsOf events ↔ ((key, field), text) ∈
      (fieldsOf events).reverse.map fun written => ((written.1, written.2.1), written.2.2) := by
    simp
  have hnodup : (((fieldsOf events).reverse.map fun written =>
      ((written.1, written.2.1), written.2.2)).map Prod.fst).Nodup := by
    rw [List.map_map, List.map_reverse, List.nodup_reverse]
    exact h
  rw [hmem, publishedAt, List.lookup_eq_some_iff]
  generalize (fieldsOf events).reverse.map _ = entries at hnodup ⊢
  constructor
  · rintro ⟨before, after, rfl, -⟩
    simp
  · intro hentry
    obtain ⟨before, after, rfl⟩ := List.append_of_mem hentry
    refine ⟨before, after, rfl, fun entry hbefore => ?_⟩
    rw [List.map_append, List.map_cons] at hnodup
    have hapart := (List.nodup_append.mp hnodup).2.2 entry.1 (List.mem_map_of_mem hbefore)
      (key, field) List.mem_cons_self
    exact bne_iff_ne.mpr (Ne.symm hapart)

namespace Dialogue

/-- Every answer in a run with an unchanging driver is that driver's. -/
theorem eq_ofDriver_of_mem {α : Type} (driver : Driver) (dialogue : Dialogue α)
    (past : List Event) :
    ∀ event ∈ (dialogue.run (.unchanging driver) past).events, ∀ request,
      event.request? = some request → event = .ofDriver driver request := by
  induction dialogue generalizing past with
  | done value => exact fun event hevent => absurd hevent List.not_mem_nil
  | ask request next ih =>
    simp only [run, List.forall_mem_cons]
    refine ⟨?_, ih _ _⟩
    intro request' hrequest
    cases hrequest
    rfl
  | tell output next ih =>
    simp only [run, List.forall_mem_cons]
    refine ⟨?_, ih _⟩
    intro request hrequest
    cases hrequest

end Dialogue

variable {family : CounterFamily} {rules : BulkRules} {driver : Driver}

/-- A row of a bulk read whose counters are all admitted is delivered with their values. -/
theorem BulkRules.Governs.exists_values {kind : ObjectKind} (h : rules.Governs driver kind)
    (mode : ReadMode) {keys : List RowKey} {ids : List Int} {i : Nat} {key : RowKey}
    (hkey : keys[i]? = some key) (hadmits : ∀ id ∈ ids, rules.Admits key id) :
    ∃ values, (Event.ofDriver driver (.bulkRead kind keys ids mode)).values? i = some values ∧
      ∀ {j : Nat} {id : Int}, ids[j]? = some id → values[j]? = some (rules.value key id) := by
  have hreadable : ∀ id ∈ ids, rules.Readable key id := fun id hid => (hadmits id hid).2
  obtain ⟨fill, hfill⟩ := h.exists_fill fun id hid => (hadmits id hid).1
  obtain ⟨status, hstatus, hsuccess⟩ := h.reports hfill hkey
  rw [hsuccess.mpr hreadable] at hstatus
  refine ⟨fill.counters ids.length i, ?_, ?_⟩
  · rw [Event.ofDriver, hfill, Event.values?, if_pos hstatus]
  · intro j id hid
    have hlength : j < ids.length := (List.getElem?_eq_some_iff.mp hid).1
    have hcounter := h.delivers hfill hkey hreadable hid
    simp [BulkFill.counters, hlength, hcounter]

namespace StatsGroup

variable {g : StatsGroup family}

/-- With an unchanging driver the reads of a pass are answered by it. -/
theorem readsOf_poll (g : StatsGroup family) (driver : Driver) (past : List Event) :
    readsOf (g.poll.run (.unchanging driver) past).events =
      g.readCalls.map fun call => .ofDriver driver (g.request call) := by
  have hrequests := Serves.requests_eq (g.poll_inTurn (.unchanging driver) past)
  have hanswers := Dialogue.eq_ofDriver_of_mem driver g.poll past
  generalize (g.poll.run (.unchanging driver) past).events = events at hrequests hanswers ⊢
  apply List.map_injective_iff.mpr (Option.some_injective Event)
  have htold : (readsOf events).map some =
      ((readsOf events).map Event.request?).map (Option.map (Event.ofDriver driver)) := by
    rw [List.map_map]
    apply List.map_congr_left
    intro event hevent
    obtain ⟨hmem, hread⟩ := List.mem_filter.mp hevent
    cases event with
    | answered request answer => exact congrArg some (hanswers _ hmem request rfl)
    | handedOut output => cases hread
  rw [htold, hrequests, List.map_map, List.map_map]
  rfl

/-- With an unchanging driver a pass writes what it delivers for the reads. -/
theorem fieldsOf_poll (g : StatsGroup family) (driver : Driver) (past : List Event) :
    fieldsOf (g.poll.run (.unchanging driver) past).events =
      g.readCalls.flatMap fun call => call.delivered (.ofDriver driver (g.request call)) := by
  rw [Serves.fields_eq (g.poll_inTurn (.unchanging driver) past), readsOf_poll,
    ← List.map_prod_left_eq_zip, List.flatMap_map]

/-- If the rules admit all slots of a chunk, each of them is delivered. -/
theorem chunk_delivered_iff (h : rules.Governs driver g.kind) {mode : Option ReadMode}
    {rows : List Row} {ids : List (CounterId family)}
    (hadmits : ∀ row ∈ rows, ∀ id ∈ ids, rules.Admits row.key id.raw)
    {key field text : String} :
    (key, field, text) ∈ (ReadCall.chunk mode rows ids).delivered
        (.ofDriver driver (g.request (.chunk mode rows ids))) ↔
      ∃ slot ∈ (ReadCall.chunk mode rows ids).slots, key = slot.1.vid.text ∧
        field = slot.2.name ∧ text = toString (rules.value slot.1.key slot.2.raw).toNat := by
  have hslots : ∀ {row id}, (row, id) ∈ (ReadCall.chunk mode rows ids).slots ↔
      row ∈ rows ∧ id ∈ ids := by
    intro row id
    simp [ReadCall.slots, ReadCall.rows, ReadCall.ids]
  have hvalues : ∀ {i : Nat} {row : Row}, rows[i]? = some row → ∃ values,
      (Event.ofDriver driver (g.request (.chunk mode rows ids))).values? i = some values ∧
        ∀ {j : Nat} {id : CounterId family}, ids[j]? = some id →
          values[j]? = some (rules.value row.key id.raw) := by
    intro i row hrow
    have hkey : (rows.map Row.key)[i]? = some row.key := by
      rw [List.getElem?_map, hrow, Option.map_some]
    have hraws : ∀ raw ∈ CounterId.raws ids, rules.Admits row.key raw :=
      List.forall_mem_map.mpr (hadmits row (List.mem_of_getElem? hrow))
    obtain ⟨values, hdelivered, hvalue⟩ := h.exists_values (g.settings.modeFor mode) hkey hraws
    refine ⟨values, hdelivered, fun {j id} hid => hvalue ?_⟩
    rw [CounterId.raws, List.getElem?_map, hid, Option.map_some]
  rw [ReadCall.mem_delivered]
  constructor
  · rintro ⟨i, row, values, hrow, hdelivered, rfl, hfield⟩
    obtain ⟨values', hvalues', hvalue⟩ := hvalues hrow
    cases hdelivered.symm.trans hvalues'
    obtain ⟨j, id, value, hid, hvalue', rfl, rfl⟩ := mem_rowFields.mp hfield
    cases hvalue'.symm.trans (hvalue hid)
    exact ⟨(row, id), hslots.mpr ⟨List.mem_of_getElem? hrow, List.mem_of_getElem? hid⟩, rfl, rfl,
      rfl⟩
  · rintro ⟨⟨row, id⟩, hslot, rfl, rfl, rfl⟩
    obtain ⟨hrow, hid⟩ := hslots.mp hslot
    obtain ⟨i, hi⟩ := List.mem_iff_getElem?.mp hrow
    obtain ⟨j, hj⟩ := List.mem_iff_getElem?.mp hid
    obtain ⟨values, hdelivered, hvalue⟩ := hvalues hi
    exact ⟨i, row, values, hi, hdelivered, rfl,
      mem_rowFields.mpr ⟨j, id, _, hj, hvalue hj, rfl, rfl⟩⟩

/-- The rules admit everything that is read in bulk. -/
def Admitted (rules : BulkRules) (g : StatsGroup family) : Prop :=
  ∀ mode row (id : CounterId family), g.partitions.Reads mode row id → rules.Admits row.key id.raw

/-- A field has a value after a pass if the value was delivered for an object read by itself, or
if it is the value of a counter read in bulk. -/
theorem Sound.publishedAt_eq_some_iff (h : g.Sound) (hrules : rules.Governs driver g.kind)
    (hadmitted : g.Admitted rules) {past : List Event} {key field text : String} :
    publishedAt (g.poll.run (.unchanging driver) past).events key field = some text ↔
      (∃ vid r, g.singles.get? vid = some r ∧ (key, field, text) ∈
        (ReadCall.single vid r).delivered (.ofDriver driver (g.request (.single vid r)))) ∨
      ∃ mode row id, g.partitions.Reads mode row id ∧ key = row.vid.text ∧ field = id.name ∧
        text = toString (rules.value row.key id.raw).toNat := by
  rw [CounterPolling.publishedAt_eq_some_iff
    (h.fields_nodup (g.poll_inTurn (.unchanging driver) past)), fieldsOf_poll, readCalls,
    List.flatMap_append, List.mem_append]
  apply or_congr
  · simp only [List.flatMap_assoc, List.flatMap_singleton, List.mem_flatMap, Prod.exists,
      SortedMap.get?_eq_some_iff]
  · have hchunk : ∀ call ∈ g.partitions.entries.flatMap fun entry =>
        entry.2.readCalls entry.1.mode,
        ((key, field, text) ∈ call.delivered (.ofDriver driver (g.request call)) ↔
          ∃ slot ∈ call.slots, key = slot.1.vid.text ∧ field = slot.2.name ∧
            text = toString (rules.value slot.1.key slot.2.raw).toNat) := by
      intro call hcall
      have hslots : ∀ {row} {id : CounterId family}, (row, id) ∈ call.slots →
          rules.Admits row.key id.raw := by
        intro row id hslot
        obtain ⟨mode, hread⟩ := h.mem_chunk_slots_iff.mp (List.mem_flatMap.mpr ⟨call, hcall, hslot⟩)
        exact hadmitted _ _ _ hread
      obtain ⟨entry, -, hbounds⟩ := List.mem_flatMap.mp hcall
      obtain ⟨bounds, -, rfl⟩ := List.mem_map.mp hbounds
      apply chunk_delivered_iff hrules
      intro row hrow id hid
      exact hslots (List.mem_flatMap.mpr ⟨row, hrow, List.mem_map_of_mem hid⟩)
    constructor
    · intro hwritten
      obtain ⟨call, hcall, hdelivered⟩ := List.mem_flatMap.mp hwritten
      obtain ⟨⟨row, id⟩, hslot, htext⟩ := (hchunk call hcall).mp hdelivered
      obtain ⟨mode, hread⟩ := h.mem_chunk_slots_iff.mp (List.mem_flatMap.mpr ⟨call, hcall, hslot⟩)
      exact ⟨mode, row, id, hread, htext⟩
    · rintro ⟨mode, row, id, hread, htext⟩
      obtain ⟨call, hcall, hslot⟩ := List.mem_flatMap.mp (h.mem_chunk_slots_iff.mpr ⟨mode, hread⟩)
      exact List.mem_flatMap.mpr ⟨call, hcall, (hchunk call hcall).mpr ⟨(row, id), hslot, htext⟩⟩

end StatsGroup

end CounterPolling
