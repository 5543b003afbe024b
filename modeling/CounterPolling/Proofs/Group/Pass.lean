import CounterPolling.Proofs.Dialogue.Transcript
import CounterPolling.Proofs.Group.Calls
import CounterPolling.Proofs.Object.Text
import Mathlib.Data.List.Flatten

/-!
# A pass reads and publishes every counter once

Whatever the driver answers, a pass issues its reads in turn, and writes for each of them what
its answer delivers. Main statement: `poll_reads_and_publishes_once`.
-/

namespace CounterPolling

variable {family : CounterFamily}

namespace ReadCall

/-- The fields that a pass writes for the answer to a read. -/
def delivered (call : ReadCall family) (event : Event) : List (String × String × String) :=
  call.rows.zipIdx.flatMap fun entry =>
    ((event.values? entry.2).map fun values =>
      (rowFields call.ids values).map fun field => (entry.1.vid.text, field)).getD []

end ReadCall

namespace StatsGroup

variable {g : StatsGroup family}

/-- Events serve a read: they hold that read and no other, they write what it delivered, and
they clear only what it read completely and is to be cleared. -/
structure Serves (g : StatsGroup family) (call : ReadCall family) (block : List Event) :
    Prop where
  read : ∃ event, readsOf block = [event] ∧ event.request? = some (g.request call) ∧
    fieldsOf block = call.delivered event
  clear : ∀ {before after kind object ids answer},
    block = before ++ .answered (.clear kind object ids) answer :: after →
      ∃ vid r values, call = .single vid r ∧
        before = [.answered (.read kind object ids) (.ok values)] ∧ object = r.rid ∧
        ids = CounterId.raws r.ids ∧ values.length = ids.length ∧
        g.settings.modeFor r.mode = .readAndClear

/-- A read with outputs after it serves its call if the outputs write what was delivered. -/
theorem serves_of_outputs (call : ReadCall family) (answer : (g.request call).Answer)
    (outputs : List Output)
    (hfields : fieldsOf (outputs.map Event.handedOut) =
      call.delivered (.answered (g.request call) answer)) :
    g.Serves call (.answered (g.request call) answer :: outputs.map Event.handedOut) := by
  constructor
  · refine ⟨.answered (g.request call) answer, ?_, rfl, ?_⟩
    · change readsOf ([_] ++ _) = _
      rw [readsOf_append, readsOf_handedOut]
      cases call <;> rfl
    · rw [← hfields]
      rfl
  · intro before after kind object ids answer' hblock
    exfalso
    cases before with
    | nil =>
      obtain ⟨hread, -⟩ := List.cons.inj hblock
      have hrequest := congrArg Event.request? hread
      cases call <;> simp [Event.request?, request] at hrequest
    | cons first before =>
      obtain ⟨-, hrest⟩ := List.cons.inj hblock
      have hmem : Event.answered (.clear kind object ids) answer' ∈
          outputs.map Event.handedOut := by
        rw [hrest]
        simp
      obtain ⟨out, -, hout⟩ := List.mem_map.mp hmem
      cases hout

/-- A complete read of an object, cleared in the mode that clears, serves its call if the
outputs after it write what was delivered. -/
theorem serves_of_clear {vid : ObjectId} {r : Registration family} {values : List UInt64}
    {cleared : Except DriverError Unit}
    (hlength : values.length = (CounterId.raws r.ids).length)
    (hmode : g.settings.modeFor r.mode = .readAndClear) (outputs : List Output)
    (hfields : fieldsOf (outputs.map Event.handedOut) =
      (ReadCall.single vid r).delivered
        (.answered (.read g.kind r.rid (CounterId.raws r.ids)) (.ok values))) :
    g.Serves (.single vid r)
      (.answered (.read g.kind r.rid (CounterId.raws r.ids)) (.ok values) ::
        .answered (.clear g.kind r.rid (CounterId.raws r.ids)) cleared ::
        outputs.map Event.handedOut) := by
  constructor
  · refine ⟨.answered (.read g.kind r.rid (CounterId.raws r.ids)) (.ok values), ?_, rfl, ?_⟩
    · change readsOf ([_, _] ++ _) = _
      rw [readsOf_append, readsOf_handedOut]
      rfl
    · rw [← hfields]
      rfl
  · intro before after kind object ids answer' hblock
    cases before with
    | nil => cases hblock
    | cons first before =>
      obtain ⟨rfl, hrest⟩ := List.cons.inj hblock
      cases before with
      | nil =>
        cases hrest
        exact ⟨vid, r, values, rfl, rfl, rfl, rfl, hlength, hmode⟩
      | cons second before =>
        obtain ⟨-, hrest⟩ := List.cons.inj hrest
        exfalso
        have hmem : Event.answered (.clear kind object ids) answer' ∈
            outputs.map Event.handedOut := by
          rw [hrest]
          simp
        obtain ⟨out, -, hout⟩ := List.mem_map.mp hmem
        cases hout

theorem pollSingle_serves (g : StatsGroup family) (vid : ObjectId) (r : Registration family)
    (switch : Switch) (past : List Event) :
    g.Serves (.single vid r) ((g.pollSingle vid r).run switch past).events := by
  unfold pollSingle
  rw [Dialogue.events_run_bind, Dialogue.run_question]
  generalize switch past (.read g.kind r.rid (CounterId.raws r.ids)) = answer
  cases answer with
  | error error => exact serves_of_outputs (.single vid r) (.error error) [.notice _] rfl
  | ok values =>
    dsimp only
    by_cases hlength : values.length = (CounterId.raws r.ids).length
    · rw [if_neg (not_not.mpr hlength)]
      have hfields : fieldsOf ([Output.row vid.text (rowFields r.ids values)].map Event.handedOut) =
          (ReadCall.single vid r).delivered
            (.answered (.read g.kind r.rid (CounterId.raws r.ids)) (.ok values)) := by
        simp [ReadCall.delivered, ReadCall.rows, ReadCall.ids, Event.values?, hlength, fieldsOf,
          Event.written, objectRow]
      cases hmode : g.settings.modeFor r.mode with
      | read => exact serves_of_outputs (.single vid r) (.ok values) [.row _ _] hfields
      | readAndClear =>
        dsimp only
        rw [Dialogue.events_run_bind, Dialogue.run_question]
        generalize switch _ (.clear g.kind r.rid (CounterId.raws r.ids)) = cleared
        cases cleared with
        | error error => exact serves_of_clear hlength hmode [.notice _, .row _ _] hfields
        | ok done => exact serves_of_clear hlength hmode [.row _ _] hfields
    · rw [if_pos hlength]
      have hfields : [] = (ReadCall.single vid r).delivered
          (.answered (.read g.kind r.rid (CounterId.raws r.ids)) (.ok values)) := by
        simp [ReadCall.delivered, ReadCall.rows, Event.values?, hlength]
      exact serves_of_outputs (.single vid r) (.ok values) [.notice _] hfields

/-- Publishes a row of a partition. -/
private def publish (ids : List (CounterId family)) (reading : Reading) : Output :=
  .row reading.row.vid.text (rowFields ids reading.values)

/-- The rows published for a bulk read write what it delivers. -/
theorem fieldsOf_readings (g : StatsGroup family) (mode : Option ReadMode) (rows : List Row)
    (ids : List (CounterId family)) (fill : BulkFill) :
    fieldsOf (((fill.readings ids.length rows).map (publish ids)).map Event.handedOut) =
      (ReadCall.chunk mode rows ids).delivered
        (.answered (g.request (.chunk mode rows ids)) (.ok fill)) := by
  unfold fieldsOf ReadCall.delivered
  rw [fill.readings_eq, List.map_map, List.flatMap_map, List.filterMap_eq_flatMap_toList,
    List.flatMap_assoc]
  apply List.flatMap_congr
  intro entry _
  by_cases hstatus : fill.status entry.2 = some .success
  · simp [hstatus, request, Event.values?, Event.written, publish, ReadCall.ids, CounterId.raws]
  · simp [hstatus, request, Event.values?]

/-- Reading a chunk and publishing its rows serves its call. -/
theorem chunk_serves (g : StatsGroup family) (mode : Option ReadMode) (p : Partition family)
    (bounds : Nat × Nat) (switch : Switch) (past : List Event) :
    g.Serves (.chunk mode (p.slice bounds) p.ids)
      ((do
        let readings ← p.readChunk g.kind (g.settings.modeFor mode) bounds
        Dialogue.each (fun reading => Dialogue.output (publish p.ids reading)) readings).run
          switch past).events := by
  unfold Partition.readChunk
  simp only [bind_assoc]
  rw [Dialogue.events_run_bind, Dialogue.run_question]
  generalize switch past (.bulkRead g.kind _ _ _) = answer
  cases answer with
  | error error =>
    have hfields : [] = (ReadCall.chunk mode (p.slice bounds) p.ids).delivered
        (.answered (g.request (.chunk mode (p.slice bounds) p.ids)) (.error error)) := by
      simp [ReadCall.delivered, request, Event.values?]
    exact serves_of_outputs (.chunk mode (p.slice bounds) p.ids) (.error error) [.notice _] hfields
  | ok fill =>
    dsimp only
    rw [pure_bind, Dialogue.events_each_output]
    exact serves_of_outputs (.chunk mode (p.slice bounds) p.ids) (.ok fill) _
      (g.fieldsOf_readings mode (p.slice bounds) p.ids fill)

/-- Reading chunks in turn serves their calls in turn. -/
theorem sweepChunks_inTurn (g : StatsGroup family) (mode : Option ReadMode)
    (p : Partition family) (chunks : List (Nat × Nat)) (switch : Switch) (past : List Event) :
    InTurn g.Serves (chunks.map fun bounds => .chunk mode (p.slice bounds) p.ids)
      ((p.sweepChunks g.kind (g.settings.modeFor mode)
        (fun reading => Dialogue.output (publish p.ids reading)) chunks).run switch
          past).events := by
  induction chunks generalizing past with
  | nil => exact .nil
  | cons bounds rest ih =>
    have hchunk := g.chunk_serves mode p bounds switch past
    rw [Dialogue.events_run_bind] at hchunk
    rw [Partition.sweepChunks, Dialogue.events_run_bind, Dialogue.events_run_bind,
      Dialogue.events_run_bind, ← List.append_assoc]
    apply InTurn.cons hchunk
    simpa using ih _

/-- A pass serves its calls in turn. -/
theorem poll_inTurn (g : StatsGroup family) (switch : Switch) (past : List Event) :
    InTurn g.Serves g.readCalls (g.poll.run switch past).events := by
  unfold poll readCalls
  rw [Dialogue.events_run_bind]
  apply InTurn.append
  · apply Dialogue.inTurn_each
    intro entry _ past
    exact .one (g.pollSingle_serves entry.1 entry.2 switch past)
  · apply Dialogue.inTurn_each
    intro entry _ past
    rw [Dialogue.events_run_bind, Dialogue.pure_eq_done, Dialogue.run_done, List.append_nil]
    exact g.sweepChunks_inTurn entry.1.mode entry.2 entry.2.chunks switch past

end StatsGroup

/-- The fields of a row are its counters, each with the value that was delivered for it. -/
theorem mem_rowFields {ids : List (CounterId family)} {values : List UInt64}
    {field text : String} :
    (field, text) ∈ rowFields ids values ↔
      ∃ (j : Nat) (id : CounterId family) (value : UInt64), ids[j]? = some id ∧
        values[j]? = some value ∧ field = id.name ∧ text = toString value.toNat := by
  unfold rowFields CounterId.names
  rw [List.mem_iff_getElem?]
  simp only [List.getElem?_zip_eq_some, List.getElem?_map, Option.map_eq_some_iff]
  constructor
  · rintro ⟨j, ⟨id, hid, rfl⟩, value, hvalue, rfl⟩
    exact ⟨j, id, value, hid, hvalue, rfl, rfl⟩
  · rintro ⟨j, id, value, hid, hvalue, rfl, rfl⟩
    exact ⟨j, ⟨id, hid, rfl⟩, value, hvalue, rfl⟩

theorem map_fst_zip_sublist {α β : Type} (list : List α) (other : List β) :
    ((list.zip other).map Prod.fst).Sublist list := by
  induction list generalizing other with
  | nil => exact List.nil_sublist _
  | cons a rest ih =>
    cases other with
    | nil => exact List.nil_sublist _
    | cons b others => exact (ih others).cons_cons a

namespace ReadCall

/-- What is delivered for a read are fields of its slots, each once at most. -/
theorem delivered_sublist (call : ReadCall family) (event : Event) :
    ((call.delivered event).map fun field => (field.1, field.2.1)).Sublist
      (call.slots.map fun slot => (slot.1.vid.text, slot.2.name)) := by
  have hrows : call.slots = (call.rows.zipIdx.map Prod.fst).flatMap fun row =>
      call.ids.map fun id => (row, id) := by
    rw [List.zipIdx_map_fst]
    rfl
  unfold delivered
  rw [hrows, List.flatMap_map, List.map_flatMap, List.map_flatMap]
  apply List.Sublist.flatMap_right
  intro entry _
  cases event.values? entry.2 with
  | none => exact List.nil_sublist _
  | some values =>
    rw [Option.map_some, Option.getD_some, List.map_map, List.map_map]
    have hfields : ((rowFields call.ids values).map Prod.fst).Sublist (CounterId.names call.ids) :=
      map_fst_zip_sublist _ _
    have htexts := hfields.map fun name => (entry.1.vid.text, name)
    rw [CounterId.names, List.map_map, List.map_map] at htexts
    exact htexts

theorem mem_delivered {call : ReadCall family} {event : Event} {key field text : String} :
    (key, field, text) ∈ call.delivered event ↔
      ∃ (i : Nat) (row : Row) (values : List UInt64), call.rows[i]? = some row ∧
        event.values? i = some values ∧ key = row.vid.text ∧
        (field, text) ∈ rowFields call.ids values := by
  unfold delivered
  simp only [List.mem_flatMap, List.mem_zipIdx_iff_getElem?]
  constructor
  · rintro ⟨⟨row, i⟩, hrow, hfield⟩
    cases hvalues : event.values? i with
    | none =>
      rw [hvalues] at hfield
      exact absurd hfield List.not_mem_nil
    | some values =>
      rw [hvalues] at hfield
      obtain ⟨pair, hpair, heq⟩ := List.mem_map.mp hfield
      cases heq
      exact ⟨i, row, values, hrow, hvalues, rfl, hpair⟩
  · rintro ⟨i, row, values, hrow, hvalues, rfl, hfield⟩
    refine ⟨(row, i), hrow, ?_⟩
    rw [hvalues]
    exact List.mem_map_of_mem hfield

/-- Among calls, each with the event of its read, some answer delivered a value of a counter for
a row. -/
def Delivered (calls : List (ReadCall family)) (reads : List Event) (row : Row)
    (id : CounterId family) (value : UInt64) : Prop :=
  ∃ (n : Nat) (call : ReadCall family) (event : Event), calls[n]? = some call ∧
    reads[n]? = some event ∧
    ∃ (i : Nat) (values : List UInt64), call.rows[i]? = some row ∧
      event.values? i = some values ∧
      ∃ j : Nat, call.ids[j]? = some id ∧ values[j]? = some value

theorem mem_flatMap_delivered {calls : List (ReadCall family)} {reads : List Event}
    {key field text : String} :
    (key, field, text) ∈ ((calls.zip reads).flatMap fun entry => entry.1.delivered entry.2) ↔
      ∃ row id value, Delivered calls reads row id value ∧ key = row.vid.text ∧
        field = id.name ∧ text = toString value.toNat := by
  simp only [List.mem_flatMap, Prod.exists, mem_zip_iff_getElem?, mem_delivered, mem_rowFields]
  constructor
  · rintro ⟨call, event, ⟨n, hcall, hevent⟩, i, row, values, hrow, hvalues, rfl,
      j, id, value, hid, hvalue, rfl, rfl⟩
    exact ⟨row, id, value,
      ⟨n, call, event, hcall, hevent, i, values, hrow, hvalues, j, hid, hvalue⟩, rfl, rfl, rfl⟩
  · rintro ⟨row, id, value,
      ⟨n, call, event, hcall, hevent, i, values, hrow, hvalues, j, hid, hvalue⟩, rfl, rfl, rfl⟩
    exact ⟨call, event, ⟨n, hcall, hevent⟩, i, row, values, hrow, hvalues, rfl,
      j, id, value, hid, hvalue, rfl, rfl⟩

end ReadCall

namespace StatsGroup

variable {g : StatsGroup family}

theorem Serves.requests_eq {calls : List (ReadCall family)} {events : List Event}
    (h : InTurn g.Serves calls events) :
    (readsOf events).map Event.request? = calls.map fun call => some (g.request call) := by
  apply h.requests
  intro call block hblock
  obtain ⟨event, hreads, hrequest, -⟩ := hblock.read
  exact ⟨event, hreads, hrequest⟩

theorem Serves.fields_eq {calls : List (ReadCall family)} {events : List Event}
    (h : InTurn g.Serves calls events) :
    fieldsOf events =
      (calls.zip (readsOf events)).flatMap fun entry => entry.1.delivered entry.2 := by
  apply h.flatMap_eq
  intro call block hblock
  obtain ⟨event, hreads, -, hfields⟩ := hblock.read
  exact ⟨event, hreads, hfields⟩

/-- No field is written twice in a pass over a sound group. -/
theorem Sound.fields_nodup (h : g.Sound) {events : List Event}
    (hserved : InTurn g.Serves g.readCalls events) :
    ((fieldsOf events).map fun field => (field.1, field.2.1)).Nodup := by
  have hlength : (g.readCalls.zip (readsOf events)).map Prod.fst = g.readCalls := by
    apply List.map_fst_zip
    have hrequests := congrArg List.length (Serves.requests_eq hserved)
    rw [List.length_map, List.length_map] at hrequests
    exact Nat.le_of_eq hrequests.symm
  have hsub : ((fieldsOf events).map fun field => (field.1, field.2.1)).Sublist
      ((g.readCalls.flatMap ReadCall.slots).map fun slot => (slot.1.vid.text, slot.2.name)) := by
    rw [Serves.fields_eq hserved, List.map_flatMap, List.map_flatMap]
    nth_rewrite 2 [← hlength]
    rw [List.flatMap_map]
    apply List.Sublist.flatMap_right
    intro entry _
    exact entry.1.delivered_sublist entry.2
  have hslots := h.slots_nodup.map (f := fun slot => (slot.1.text, slot.2.name)) (by
    intro a b hab
    obtain ⟨htext, hname⟩ := Prod.mk.inj hab
    exact Prod.ext (ObjectId.text_injective htext) (CounterId.name_injective hname))
  rw [List.map_map] at hslots
  exact List.Nodup.sublist hsub hslots

/-- What a pass clears it has read completely just before, for an object tracked by itself whose
counters are to be cleared. -/
theorem clear_after_read {events : List Event} (hserved : InTurn g.Serves g.readCalls events)
    {before after : List Event} {kind : ObjectKind} {object : ObjectId} {ids : List Int}
    {answer : Except DriverError Unit}
    (hsplit : events = before ++ .answered (.clear kind object ids) answer :: after) :
    ∃ vid r values earlier, g.singles.get? vid = some r ∧ object = r.rid ∧
      ids = CounterId.raws r.ids ∧ g.settings.modeFor r.mode = .readAndClear ∧
      before = earlier ++ [.answered (.read kind object ids) (.ok values)] ∧
      values.length = ids.length ∧
      g.readCalls[(readsOf earlier).length]? = some (.single vid r) := by
  obtain ⟨done, call, rest, front, start, finish, hcalls, hdone, hbefore, hblock⟩ :=
    hserved.exists_block hsplit
  obtain ⟨vid, r, values, rfl, rfl, hobject, hids, hlength, hmode⟩ := hblock.clear rfl
  have hsingle : ReadCall.single vid r ∈ g.readCalls := by
    rw [hcalls]
    simp
  have hcount : (readsOf front).length = done.length := by
    have hrequests := congrArg List.length (Serves.requests_eq hdone)
    rwa [List.length_map, List.length_map] at hrequests
  refine ⟨vid, r, values, front, ?_, hobject, hids, hmode, hbefore, hlength, ?_⟩
  · unfold readCalls at hsingle
    rcases List.mem_append.mp hsingle with hmem | hmem
    · obtain ⟨entry, hentry, heq⟩ := List.mem_flatMap.mp hmem
      cases List.mem_singleton.mp heq
      exact SortedMap.get?_eq_some_iff.mpr hentry
    · obtain ⟨entry, -, hchunk⟩ := List.mem_flatMap.mp hmem
      obtain ⟨bounds, -, heq⟩ := List.mem_map.mp hchunk
      cases heq
  · rw [hcalls, hcount]
    simp

/-- What a pass over a group comes to, by its events and the group after it. It issues its reads in
order, and their slots are the counters registered, each once for an object. No field is written
twice, and exactly those fields are written whose value an answer delivered. Counters are cleared
only right after their complete read, and only in the mode that clears. What is registered stays as
it is. -/
structure ReadsOnce (g : StatsGroup family) (events : List Event) (after : StatsGroup family) :
    Prop where
  requests_eq : (readsOf events).map Event.request? =
    g.readCalls.map fun call => some (g.request call)
  slots_nodup : ((g.readCalls.flatMap ReadCall.slots).map fun slot => (slot.1.vid, slot.2)).Nodup
  mem_slots_iff : ∀ row id, (row, id) ∈ g.readCalls.flatMap ReadCall.slots ↔ g.Registers row id
  fields_nodup : ((fieldsOf events).map fun field => (field.1, field.2.1)).Nodup
  mem_fields_iff : ∀ key field text, (key, field, text) ∈ fieldsOf events ↔
    ∃ row id value, ReadCall.Delivered g.readCalls (readsOf events) row id value ∧
      key = row.vid.text ∧ field = id.name ∧ text = toString value.toNat
  cleared : ∀ before rest kind object ids answer,
    events = before ++ .answered (.clear kind object ids) answer :: rest →
      ∃ vid r values earlier, g.singles.get? vid = some r ∧ object = r.rid ∧
        ids = CounterId.raws r.ids ∧ g.settings.modeFor r.mode = .readAndClear ∧
        before = earlier ++ [.answered (.read kind object ids) (.ok values)] ∧
        values.length = ids.length ∧
        g.readCalls[(readsOf earlier).length]? = some (.single vid r)
  after_eq : after = g

/-- One pass over a group, in any state that it may come to and whatever the driver answers, reads
every counter once and publishes what is delivered. -/
theorem poll_reads_and_publishes_once (h : g.Reachable) (switch : Switch) (past : List Event) :
    g.ReadsOnce (g.poll.run switch past).events ((g.perform .poll).run switch past).value := by
  have hsound := h.sound
  have hserved := g.poll_inTurn switch past
  constructor
  case requests_eq => exact Serves.requests_eq hserved
  case slots_nodup => exact hsound.slots_nodup
  case mem_slots_iff => exact fun row id => hsound.mem_slots_iff
  case fields_nodup => exact hsound.fields_nodup hserved
  case mem_fields_iff =>
    intro key field text
    rw [Serves.fields_eq hserved]
    exact ReadCall.mem_flatMap_delivered
  case cleared =>
    intro before rest kind object ids answer hsplit
    exact clear_after_read hserved hsplit
  case after_eq =>
    rw [value_perform]
    rfl

/-- Of two ports, one read in bulk and one by itself, each counter is read and published once. -/
theorem poll_reads_and_publishes_once_two_ports :
    let settings := GroupSettings.initial
      (GroupSpec.stats "Port Counter" .portStat "PORT_COUNTER_ID_LIST" none) "PORTS"
    let switch := Switch.unchanging (rowFails (.object 0x102))
    let added := (initial settings : StatsGroup .portStat).perform
      (.addMany [1, 2] [0x101, 0x102] ["SAI_PORT_STAT_IF_IN_OCTETS"] none)
    let g := (added.run switch []).value
    let events := (g.poll.run switch []).events
    ((readsOf events).map Event.request? = g.readCalls.map fun call => some (g.request call)) ∧
      fieldsOf events = [("oid:0x2", "SAI_PORT_STAT_IF_IN_OCTETS", "0"),
        ("oid:0x1", "SAI_PORT_STAT_IF_IN_OCTETS", "0")] := by
  refine ⟨?_, by decide +kernel⟩
  exact (poll_reads_and_publishes_once (.perform _ _ _ (.initial _) (by decide)) _ _).requests_eq

end StatsGroup

end CounterPolling
