import CounterPolling.Instance.Register
import CounterPolling.Proofs.Group.Subjects
import Mathlib.Data.Set.List

/-!
# The counters table

All groups of all instances write into one table. Rows about different objects or buckets have
different keys, so the row of an object or bucket is the work of the rows about itself, in whatever
order the passes of groups come and however they interleave. Main statements:
`CountersTable.write_entries`, `Instance.written_by_groups` and `rows_stay_apart`.
-/

namespace CounterPolling

/-- The counters table: the fields of the row under each key, if there is one. -/
abbrev CountersTable : Type := String → Option (List (String × String))

namespace CountersTable

/-- The table after rows were written in order, each under its key and nowhere else. What becomes of
the fields that stood there is left open: they may go, or stay beside the new ones. -/
def write (join : Option (List (String × String)) → List (String × String) →
    Option (List (String × String))) (table : CountersTable)
    (rows : List (String × List (String × String))) : CountersTable :=
  rows.foldl (fun table row => Function.update table row.1 (join (table row.1) row.2)) table

variable (join : Option (List (String × String)) → List (String × String) →
  Option (List (String × String)))

/-- The row of an object or bucket is what stood there before, changed by the rows about the object
or bucket itself and by no others. -/
theorem write_entries (table : CountersTable) (rows : List PolledRow) (subject : RowSubject) :
    write join table (rows.map PolledRow.entry) subject.key =
      ((rows.filter fun row => row.subject = subject).map PolledRow.fields).foldl join
        (table subject.key) := by
  induction rows generalizing table with
  | nil => rfl
  | cons row rest ih =>
    have hwrite : write join table ((row :: rest).map PolledRow.entry) =
        write join (Function.update table row.subject.key
          (join (table row.subject.key) row.fields)) (rest.map PolledRow.entry) := rfl
    rw [hwrite, ih]
    by_cases hsubject : row.subject = subject
    · subst hsubject
      simp
    · have hkey : subject.key ≠ row.subject.key := fun h =>
        hsubject (RowSubject.key_injective h).symm
      rw [Function.update_of_ne hkey]
      simp [hsubject]

end CountersTable

/-- One pass over a group, in any state that the group may be in. -/
structure GroupPass where
  /-- The group as the pass finds it. -/
  group : Group
  /-- The switch that the pass reads. -/
  switch : Switch
  /-- What happened before. -/
  past : List Event

namespace GroupPass

/-- What happens in the pass. -/
def events (pass : GroupPass) : List Event :=
  (pass.group.poll.run pass.switch pass.past).events

/-- The pass makes a row of the answer that it got to one of its questions. -/
def Makes (pass : GroupPass) (row : PolledRow) : Prop :=
  ∃ source ∈ pass.group.sources, ∃ answer : source.request.Answer,
    .answered source.request answer ∈ pass.events ∧ row ∈ source.rows answer

end GroupPass

/-- Events that serve sources write rows that are made of the answers to the sources. -/
theorem exists_row_of_serves {sources : List RowSource} {events : List Event}
    (h : InTurn RowSource.Serves sources events) {written : String × List (String × String)}
    (hwritten : written ∈ rowsWritten events) :
    ∃ row : PolledRow, row.entry = written ∧
      ∃ source ∈ sources, ∃ answer : source.request.Answer,
        .answered source.request answer ∈ events ∧ row ∈ source.rows answer := by
  induction h with
  | nil => exact absurd hwritten List.not_mem_nil
  | @cons source sources block events hblock _ ih =>
    rw [rowsWritten_append, List.mem_append] at hwritten
    rcases hwritten with hblocked | hlater
    · obtain ⟨answer, later, rfl, hrows⟩ := hblock
      have hmade : written ∈ (source.rows answer).map PolledRow.entry := by
        rw [← hrows]
        exact hblocked
      obtain ⟨row, hrow, hentry⟩ := List.mem_map.mp hmade
      exact ⟨row, hentry, source, List.mem_cons_self, answer, by simp, hrow⟩
    · obtain ⟨row, hentry, source', hsource, answer, hanswer, hrow⟩ := ih hlater
      exact ⟨row, hentry, source', List.mem_cons_of_mem _ hsource, answer,
        List.mem_append_right _ hanswer, hrow⟩

/-- Every row that a pass writes is one that it makes. -/
theorem GroupPass.exists_made (pass : GroupPass) {written : String × List (String × String)}
    (h : written ∈ rowsWritten pass.events) : ∃ row, pass.Makes row ∧ row.entry = written := by
  obtain ⟨row, hentry, hmade⟩ :=
    exists_row_of_serves (pass.group.poll_serves_sources pass.switch pass.past) h
  exact ⟨row, hmade, hentry⟩

/-- Rows that passes write, however the passes interleave, are rows that they make. -/
theorem exists_rows_of_passes {events : List Event}
    (h : ∀ written ∈ rowsWritten events, ∃ pass : GroupPass, written ∈ rowsWritten pass.events) :
    ∃ rows : List PolledRow, rowsWritten events = rows.map PolledRow.entry ∧
      ∀ row ∈ rows, ∃ pass : GroupPass, pass.Makes row := by
  let Made := { row : PolledRow // ∃ pass : GroupPass, pass.Makes row }
  have hrange : rowsWritten events ∈ Set.range (List.map fun row : Made => row.1.entry) := by
    rw [Set.range_list_map]
    intro written hwritten
    obtain ⟨pass, hpass⟩ := h written hwritten
    obtain ⟨row, hmade, hentry⟩ := pass.exists_made hpass
    exact ⟨⟨row, pass, hmade⟩, hentry⟩
  obtain ⟨rows, hrows⟩ := hrange
  refine ⟨rows.map Subtype.val, ?_, fun row hrow => ?_⟩
  · rw [← hrows, List.map_map]
    rfl
  · obtain ⟨⟨_, hmade⟩, -, rfl⟩ := List.mem_map.mp hrow
    exact hmade

/-- What is written for members of a list is written for one of them. -/
theorem exists_of_mem_rowsWritten_each {α : Type} {act : α → Dialogue Unit} {switch : Switch}
    {items : List α} {past : List Event} {written : String × List (String × String)}
    (h : written ∈ rowsWritten ((Dialogue.each act items).run switch past).events) :
    ∃ item ∈ items, ∃ earlier, written ∈ rowsWritten ((act item).run switch earlier).events := by
  induction items generalizing past with
  | nil => exact absurd h List.not_mem_nil
  | cons item rest ih =>
    rw [Dialogue.each, Dialogue.events_run_bind, rowsWritten_append, List.mem_append] at h
    rcases h with hitem | hrest
    · exact ⟨item, List.mem_cons_self, past, hitem⟩
    · obtain ⟨other, hother, hwritten⟩ := ih hrest
      exact ⟨other, List.mem_cons_of_mem _ hother, hwritten⟩

/-- Plugins are run without a row being written. -/
theorem Group.rowsWritten_runPlugins (group : Group) (arguments : List String) (switch : Switch)
    (past : List Event) :
    rowsWritten ((group.runPlugins arguments).run switch past).events = [] := by
  unfold runPlugins
  dsimp only
  split
  · rfl
  · rw [rowsWritten_each (fun _ _ => rfl)]
    exact List.flatMap_eq_nil_iff.mpr fun _ _ => rfl

/-- The rows that an instance writes in a pass are written in the passes over its groups. -/
theorem Instance.written_by_groups (i : Instance) (switch : Switch) (past : List Event)
    {written : String × List (String × String)}
    (h : written ∈ rowsWritten (i.pass.run switch past).events) :
    ∃ pass : GroupPass, pass.group ∈ i.groups.values ∧ written ∈ rowsWritten pass.events := by
  unfold Instance.pass at h
  rw [Dialogue.events_run_bind, rowsWritten_append, List.mem_append] at h
  rcases h with hpolls | hplugins
  · obtain ⟨group, hgroup, earlier, hwritten⟩ := exists_of_mem_rowsWritten_each hpolls
    exact ⟨⟨group, switch, earlier⟩, hgroup, hwritten⟩
  · exfalso
    rw [Dialogue.events_run_bind, Dialogue.events_run_bind] at hplugins
    simp only [rowsWritten_append, List.mem_append] at hplugins
    rcases hplugins with hflush | hplugins | hend
    · exact absurd hflush List.not_mem_nil
    · obtain ⟨group, -, earlier, hwritten⟩ := exists_of_mem_rowsWritten_each hplugins
      rw [group.rowsWritten_runPlugins] at hwritten
      exact absurd hwritten List.not_mem_nil
    · exact absurd hend List.not_mem_nil

/-- Keys tell what rows are about, and so no row takes the place of another one.

Objects with the same key are the same, and so are buckets, each with its interface and its meter
class; no bucket has the key of an object. Let any passes over groups of any instances come in any
order and interleave. Every row that is written was made by one of the passes, of an answer to a
question that the pass asked for what the row is about. After all of them, the row of an object or
bucket is what stood there before, changed by the rows about the object or bucket itself and by no
others. -/
theorem rows_stay_apart :
    (∀ a b : ObjectId, a.text = b.text ↔ a = b) ∧
    (∀ (a b : ObjectId) (m n : Nat),
      MeterGroup.rowKey a m = MeterGroup.rowKey b n ↔ a = b ∧ m = n) ∧
    (∀ (a b : ObjectId) (m : Nat), MeterGroup.rowKey a m ≠ b.text) ∧
    ∀ events : List Event,
      (∀ written ∈ rowsWritten events, ∃ pass : GroupPass, written ∈ rowsWritten pass.events) →
      ∃ rows : List PolledRow, rowsWritten events = rows.map PolledRow.entry ∧
        (∀ row ∈ rows, ∃ pass : GroupPass, pass.Makes row) ∧
        ∀ (join : Option (List (String × String)) → List (String × String) →
            Option (List (String × String))) (table : CountersTable) (subject : RowSubject),
          CountersTable.write join table (rowsWritten events) subject.key =
            ((rows.filter fun row => row.subject = subject).map PolledRow.fields).foldl join
              (table subject.key) := by
  refine ⟨fun a b => ObjectId.text_injective.eq_iff, fun a b m n => ?_, MeterGroup.rowKey_ne_text,
    fun events hpasses => ?_⟩
  · constructor
    · exact MeterGroup.rowKey_injective
    · rintro ⟨rfl, rfl⟩
      rfl
  · obtain ⟨rows, hentries, hmade⟩ := exists_rows_of_passes hpasses
    refine ⟨rows, hentries, hmade, fun join table subject => ?_⟩
    rw [hentries]
    exact CountersTable.write_entries join table rows subject

/-- An interface and one of its buckets are polled by two groups of an instance. Each has a row, and
in any table the row of either is changed by its own row only. -/
theorem rows_stay_apart_one_interface :
    let eni : ObjectId := 0xc8000000000001
    let switch := Switch.unchanging MeterGroup.countsClass
    let rx := "SAI_ENI_STAT_RX_BYTES"
    let outbound := "SAI_METER_BUCKET_ENTRY_STAT_OUTBOUND_BYTES"
    let added := (Instance.initial "ENIS" .standard).add eni 0x101
      [("DASH_ENI_COUNTER_ID_LIST", rx), ("DASH_METER_COUNTER_ID_LIST", outbound)]
    let written := rowsWritten ((added.run switch []).value.pass.run switch []).events
    written = [("oid:0xc8000000000001", [(rx, "0")]),
      ("oid:0xc8000000000001:1", [(outbound, "1")])] ∧
      ∀ join (table : CountersTable),
        CountersTable.write join table written (RowSubject.object eni).key =
          join (table (RowSubject.object eni).key) [(rx, "0")] ∧
        CountersTable.write join table written (RowSubject.bucket eni 1).key =
          join (table (RowSubject.bucket eni 1).key) [(outbound, "1")] := by
  intro eni switch rx outbound added written
  have hwritten : written = [("oid:0xc8000000000001", [(rx, "0")]),
      ("oid:0xc8000000000001:1", [(outbound, "1")])] := by decide +kernel
  obtain ⟨rows, hentries, -, htable⟩ := rows_stay_apart.2.2.2
    ((added.run switch []).value.pass.run switch []).events fun row hrow => by
      obtain ⟨pass, -, hpass⟩ := Instance.written_by_groups _ switch [] hrow
      exact ⟨pass, hpass⟩
  have hrows : rows = [⟨.object eni, [(rx, "0")]⟩, ⟨.bucket eni 1, [(outbound, "1")]⟩] := by
    refine List.map_injective_iff.mpr PolledRow.entry_injective ?_
    rw [← hentries]
    exact hwritten.trans (by decide +kernel)
  refine ⟨hwritten, fun join table => ⟨?_, ?_⟩⟩
  · rw [htable, hrows]
    rfl
  · rw [htable, hrows]
    rfl

end CounterPolling
