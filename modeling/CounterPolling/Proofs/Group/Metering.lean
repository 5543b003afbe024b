import CounterPolling.Proofs.Group.Calls
import CounterPolling.Proofs.Group.Interfaces
import CounterPolling.Proofs.Object.Text
import CounterPolling.Proofs.Partition.Sweeps
import CounterPolling.Proofs.Text.Rereading

/-!
# A pass over meter buckets

A pass reads every bucket of every interface once, chunk by chunk, and writes the rows of those that
counted something. A row is written under a key that tells its interface and its meter class, so no
row is written twice. Main statements: `rowKey_injective`, and `poll_writes_what_counted`.
-/

namespace CounterPolling

namespace Event

/-- The rows that were written, each with its key and its fields. -/
def rows : Event → List (String × List (String × String))
  | handedOut (.row key fields) => [(key, fields)]
  | _ => []

end Event

/-- The rows written by events. -/
def rowsWritten (events : List Event) : List (String × List (String × String)) :=
  events.flatMap Event.rows

/-- The meter class that a key asks for, zero if it asks for an object. -/
def RowKey.meterClass : RowKey → Nat
  | .object _ => 0
  | .bucket _ _ meterClass => meterClass

/-- Pairs are apart if those with the same first part differ in the second one. -/
theorem nodup_map_pair {α β γ : Type} [DecidableEq β] {first : α → β} {second : α → γ}
    {list : List α} (h : ∀ b, ((list.filter fun a => first a == b).map second).Nodup) :
    (list.map fun a => (first a, second a)).Nodup := by
  induction list with
  | nil => exact List.nodup_nil
  | cons a rest ih =>
    rw [List.map_cons, List.nodup_cons]
    constructor
    · intro hmem
      obtain ⟨a', ha', heq⟩ := List.mem_map.mp hmem
      obtain ⟨hfirst, hsecond⟩ := Prod.mk.inj heq
      have hnodup := h (first a)
      simp only [List.filter_cons, beq_self_eq_true, if_true, List.map_cons, List.nodup_cons]
        at hnodup
      refine hnodup.1 (List.mem_map.mpr ⟨a', List.mem_filter.mpr ⟨ha', ?_⟩, hsecond⟩)
      exact beq_iff_eq.mpr hfirst
    · refine ih fun b => (h b).sublist ?_
      exact ((List.sublist_cons_self a rest).filter _).map _

namespace MeterGroup

variable {g : MeterGroup}

/-- The key of a row tells the interface and the meter class: the digits behind the last colon are
those of the class. -/
theorem rowKey_injective {vid vid' : ObjectId} {c c' : Nat} (h : rowKey vid c = rowKey vid' c') :
    vid = vid' ∧ c = c' := by
  have hread : ∀ (vid : ObjectId) (c : Nat),
      Text.splitAtLast ':' (rowKey vid c).toList = some (vid.text.toList, Nat.toDigits 10 c) := by
    intro vid c
    have hcolon : ':' ∉ Nat.toDigits 10 c := fun hmem =>
      absurd (Text.isDigit_of_mem_toDigits hmem) (by decide)
    have hlist : (rowKey vid c).toList = vid.text.toList ++ ':' :: Nat.toDigits 10 c := by
      simp [rowKey]
    rw [hlist, Text.splitAtLast_append _ hcolon]
  have hparts := hread vid c
  rw [h, hread vid' c'] at hparts
  obtain ⟨hvid, hclass⟩ := Prod.mk.inj (Option.some.inj hparts)
  exact ⟨(ObjectId.text_injective (String.toList_inj.mp hvid)).symm,
    (Text.toDigits_ten_injective hclass).symm⟩

section Reads

/-- The bulk reads of a pass, in order. -/
def readCalls (g : MeterGroup) : List (ReadCall .meterBucketStat) :=
  g.partitions.entries.flatMap fun entry => entry.2.readCalls none

/-- The request that a bulk read is. -/
def request (g : MeterGroup) (call : ReadCall .meterBucketStat) : Request :=
  .bulkRead .meterBucket (call.rows.map Row.key) (CounterId.raws call.ids) g.settings.mode

/-- The rows that a pass reads are those of the partitions. -/
theorem flatMap_rows_readCalls (g : MeterGroup) :
    g.readCalls.flatMap ReadCall.rows = g.partitions.entries.flatMap fun entry => entry.2.rows := by
  have hpartition : ∀ p : Partition .meterBucketStat,
      (p.readCalls none).flatMap ReadCall.rows = p.rows := by
    intro p
    rw [Partition.readCalls, List.flatMap_map]
    exact p.flatMap_slice_chunks
  rw [readCalls, List.flatMap_assoc]
  simp only [hpartition]

/-- The rows that a pass reads for an interface are the rows of the interface. -/
theorem filter_rows_readCalls (g : MeterGroup) (vid : ObjectId) :
    (g.readCalls.flatMap ReadCall.rows).filter (fun row => row.vid == vid) = g.rowsOf vid := by
  rw [flatMap_rows_readCalls, List.filter_flatMap, rowsOf, SortedMap.values, List.flatMap_map]
  rfl

/-- An interface that is tracked is read with all buckets of its switch, each once, and in order. -/
theorem Sound.reads_buckets (h : g.Sound) {vid rid : ObjectId}
    (hrid : g.interfaces.get? vid = some rid) :
    ∃ home count, g.countsBySwitch.get? home = some count ∧ 0 < count ∧
      (g.readCalls.flatMap ReadCall.rows).filter (fun row => row.vid == vid) =
        bucketRows home vid rid count := by
  obtain ⟨home, ids, hstands, honly⟩ := h.stands vid rid hrid
  obtain ⟨count, hcount, hpos, hrows⟩ := hstands.rowsOf_eq honly
  exact ⟨home, count, hcount, hpos, (g.filter_rows_readCalls vid).trans hrows⟩

/-- Every row that is read is a bucket of an interface that is tracked. -/
theorem Sound.exists_of_mem_rows (h : g.Sound) {row : Row}
    (hrow : row ∈ g.readCalls.flatMap ReadCall.rows) :
    row.vid ∈ g.vids ∧ ∃ home rid, row.key = .bucket home rid row.key.meterClass := by
  have hself : row ∈ (g.readCalls.flatMap ReadCall.rows).filter (fun r => r.vid == row.vid) :=
    List.mem_filter.mpr ⟨hrow, beq_self_eq_true _⟩
  cases hrid : g.interfaces.get? row.vid with
  | none =>
    rw [filter_rows_readCalls, h.rowsOf_eq_nil hrid] at hself
    exact absurd hself List.not_mem_nil
  | some rid =>
    obtain ⟨home, count, -, -, hrows⟩ := h.reads_buckets hrid
    rw [hrows] at hself
    obtain ⟨key, hkey, heq⟩ := List.mem_map.mp hself
    obtain ⟨meterClass, -, rfl⟩ := List.mem_map.mp hkey
    refine ⟨?_, home, rid, by rw [← heq]; rfl⟩
    rw [vids, ← SortedMap.contains_iff, SortedMap.contains_iff_get?]
    exact ⟨rid, hrid⟩

/-- No bucket of an interface is read twice. -/
theorem Sound.buckets_nodup (h : g.Sound) :
    ((g.readCalls.flatMap ReadCall.rows).map fun row => (row.vid, row.key.meterClass)).Nodup := by
  refine nodup_map_pair fun vid => ?_
  cases hrid : g.interfaces.get? vid with
  | none =>
    rw [filter_rows_readCalls, h.rowsOf_eq_nil hrid]
    exact List.nodup_nil
  | some rid =>
    obtain ⟨home, count, -, -, hrows⟩ := h.reads_buckets hrid
    have hclasses : (bucketRows home vid rid count).map (fun row => row.key.meterClass) =
        List.range count := by
      simp [bucketRows, eniBuckets, RowKey.meterClass, Function.comp_def]
    rw [hrows, hclasses]
    exact List.nodup_range

end Reads

section Rows

/-- The row that is written for a bucket, unless it counted nothing. -/
def written? (ids : List BucketCounter) (reading : Reading) :
    Option (String × List (String × String)) :=
  if reading.values.all (· == 0) then none
  else
    match reading.row.key with
    | .object _ => none
    | .bucket _ _ meterClass =>
      some (rowKey reading.row.vid meterClass, rowFields ids reading.values)

/-- The rows that a pass writes for the answer to a bulk read. -/
def counted (call : ReadCall .meterBucketStat) (event : Event) :
    List (String × List (String × String)) :=
  call.rows.zipIdx.filterMap fun entry =>
    (event.values? entry.2).bind fun values => written? call.ids ⟨entry.1, values⟩

/-- A bucket is published as its row, or not at all. -/
theorem events_publish (ids : List BucketCounter) (reading : Reading) (switch : Switch)
    (past : List Event) :
    ((publish ids reading).run switch past).events =
      (written? ids reading).toList.map fun row => .handedOut (.row row.1 row.2) := by
  unfold publish written?
  split
  · rfl
  · cases reading.row.key <;> rfl

/-- Publishing buckets writes rows for those that counted something, and does nothing else. -/
theorem events_each_publish (ids : List BucketCounter) (readings : List Reading) (switch : Switch)
    (past : List Event) :
    ((Dialogue.each (publish ids) readings).run switch past).events =
      ((readings.filterMap (written? ids)).map fun row => Output.row row.1 row.2).map
        Event.handedOut := by
  induction readings generalizing past with
  | nil => rfl
  | cons reading rest ih =>
    rw [Dialogue.each, Dialogue.events_run_bind, ih, events_publish]
    cases hrow : written? ids reading <;> simp [hrow]

/-- Events serve a bulk read: they hold that read and no other, and write what it counted. -/
def Serves (g : MeterGroup) (call : ReadCall .meterBucketStat) (block : List Event) : Prop :=
  ∃ event, readsOf block = [event] ∧ event.request? = some (g.request call) ∧
    block.flatMap Event.rows = counted call event

/-- The rows of a chunk that an answer delivers, those that counted something written. -/
theorem filterMap_delivered (g : MeterGroup) (p : Partition .meterBucketStat) (bounds : Nat × Nat)
    (answer : Except DriverError BulkFill) :
    (p.delivered bounds answer).filterMap (written? p.ids) =
      counted (.chunk none (p.slice bounds) p.ids)
        (.answered (g.request (.chunk none (p.slice bounds) p.ids)) answer) := by
  cases answer with
  | error error => simp [Partition.delivered, counted, request, Event.values?]
  | ok fill =>
    unfold Partition.delivered counted
    rw [List.filterMap_filterMap]
    refine List.filterMap_congr fun entry _ => ?_
    by_cases hstatus : fill.status entry.2 = some .success
    · simp [hstatus, request, Event.values?, ReadCall.ids, CounterId.raws, BulkFill.counters]
    · simp [hstatus, request, Event.values?]

/-- What is handed out writes no more than its rows. -/
theorem rowsWritten_handedOut (rows : List (String × List (String × String))) :
    rowsWritten ((rows.map fun row => Output.row row.1 row.2).map Event.handedOut) = rows := by
  simp [rowsWritten, List.flatMap_map, Event.rows]

/-- A chunk whose rows are handed on serves its bulk read. -/
theorem serves_of_handsOn {p : Partition .meterBucketStat} {bounds : Nat × Nat}
    {answer : Except DriverError BulkFill} {switch : Switch} {block : List Event}
    (h : p.HandsOn .meterBucket g.settings.mode (publish p.ids) switch (bounds, answer) block) :
    g.Serves (.chunk none (p.slice bounds) p.ids) block := by
  obtain ⟨past, -, hblock⟩ := h
  have hrows := g.filterMap_delivered p bounds answer
  refine ⟨.answered (g.request (.chunk none (p.slice bounds) p.ids)) answer, ?_, rfl, ?_⟩
  · rw [hblock]
    cases answer with
    | error error => rfl
    | ok fill =>
      dsimp only
      rw [events_each_publish]
      change readsOf ([_] ++ _) = _
      rw [readsOf_append, readsOf_handedOut]
      rfl
  · rw [hblock]
    cases answer with
    | error error => exact hrows
    | ok fill =>
      dsimp only
      rw [events_each_publish, ← hrows]
      exact rowsWritten_handedOut _

/-- A pass serves its bulk reads in turn. -/
theorem poll_inTurn (g : MeterGroup) (switch : Switch) (past : List Event) :
    InTurn g.Serves g.readCalls (g.poll.run switch past).events := by
  unfold poll readCalls
  refine Dialogue.inTurn_each (fun entry _ past => ?_) past
  rw [Dialogue.events_run_bind, Dialogue.pure_eq_done, Dialogue.run_done, List.append_nil]
  obtain ⟨answers, hlength, hturn, -⟩ := entry.2.sweepChunks_handsOn .meterBucket g.settings.mode
    (publish entry.2.ids) entry.2.chunks switch past
  have hchunks : (entry.2.chunks.zip answers).map Prod.fst = entry.2.chunks :=
    List.map_fst_zip (Nat.le_of_eq hlength.symm)
  rw [Partition.readCalls, ← hchunks, List.map_map]
  exact hturn.map fun _ _ hblock => serves_of_handsOn hblock

/-- A pass issues its bulk reads, and reads nothing else. -/
theorem requests_poll (g : MeterGroup) (switch : Switch) (past : List Event) :
    (readsOf (g.poll.run switch past).events).map Event.request? =
      g.readCalls.map fun call => some (g.request call) := by
  refine (g.poll_inTurn switch past).requests fun call block hblock => ?_
  obtain ⟨event, hreads, hrequest, -⟩ := hblock
  exact ⟨event, hreads, hrequest⟩

/-- A pass writes what its bulk reads counted. -/
theorem rowsWritten_poll (g : MeterGroup) (switch : Switch) (past : List Event) :
    let events := (g.poll.run switch past).events
    rowsWritten events = (g.readCalls.zip (readsOf events)).flatMap fun entry =>
      counted entry.1 entry.2 := by
  refine (g.poll_inTurn switch past).flatMap_eq fun call block hblock => ?_
  obtain ⟨event, hreads, -, hrows⟩ := hblock
  exact ⟨event, hreads, hrows⟩

/-- The row of a bucket is written exactly if a value that was delivered for it is not zero. -/
theorem written?_eq_some_iff {ids : List BucketCounter} {vid home eni : ObjectId} {meterClass : Nat}
    {values : List UInt64} {key : String} {fields : List (String × String)} :
    written? ids ⟨⟨vid, .bucket home eni meterClass⟩, values⟩ = some (key, fields) ↔
      (∃ value ∈ values, value ≠ 0) ∧ key = rowKey vid meterClass ∧
        fields = rowFields ids values := by
  have hzero : (∃ value ∈ values, value ≠ 0) ↔ ¬ (values.all (· == 0) = true) := by
    simp
  rw [hzero, written?]
  split
  · next hall => simp [hall]
  · next hcounts =>
    rw [Option.some.injEq, Prod.mk.injEq]
    simp [hcounts, eq_comm]

/-- What is kept of a list, changed on the way, is some of what the change makes of all of it. -/
theorem filterMap_sublist_map {α β : Type} {keep : α → Option β} {change : α → β}
    (h : ∀ a b, keep a = some b → b = change a) (list : List α) :
    (list.filterMap keep).Sublist (list.map change) := by
  induction list with
  | nil => exact List.nil_sublist _
  | cons a rest ih =>
    rw [List.filterMap_cons, List.map_cons]
    cases hkeep : keep a with
    | none => exact ih.cons _
    | some b =>
      rw [h a b hkeep]
      exact ih.cons_cons _

/-- The keys of the rows that are written for a bulk read are those of some of its buckets. -/
theorem keys_counted_sublist (call : ReadCall .meterBucketStat) (event : Event) :
    ((counted call event).map Prod.fst).Sublist
      (call.rows.map fun row => rowKey row.vid row.key.meterClass) := by
  have hrows : call.rows.map (fun row => rowKey row.vid row.key.meterClass) =
      call.rows.zipIdx.map fun entry => rowKey entry.1.vid entry.1.key.meterClass := by
    nth_rewrite 1 [← List.zipIdx_map_fst 0 call.rows]
    rw [List.map_map]
    rfl
  rw [counted, List.map_filterMap, hrows]
  refine filterMap_sublist_map (fun entry key hkey => ?_) _
  simp only [Option.map_eq_some_iff, Option.bind_eq_some_iff] at hkey
  obtain ⟨⟨_, fields⟩, ⟨values, -, hwritten⟩, rfl⟩ := hkey
  unfold written? at hwritten
  split at hwritten
  · cases hwritten
  · split at hwritten
    · cases hwritten
    · next hbucket =>
      cases hwritten
      rw [hbucket]
      rfl

end Rows

section Passes

/-- Among the bulk reads of a pass, each with the event of its read, the one of a bucket succeeded,
reported success for the bucket, and delivered a value for each of its counters. -/
def Delivers (g : MeterGroup) (reads : List Event) (row : Row) (ids : List BucketCounter)
    (values : List UInt64) : Prop :=
  ∃ (n : Nat) (call : ReadCall .meterBucketStat) (fill : BulkFill) (i : Nat),
    g.readCalls[n]? = some call ∧ reads[n]? = some (.answered (g.request call) (.ok fill)) ∧
      call.rows[i]? = some row ∧ call.ids = ids ∧ fill.status i = some .success ∧
      fill.counters ids.length i = values

theorem mem_counted (g : MeterGroup) {call : ReadCall .meterBucketStat}
    {answer : Except DriverError BulkFill} {key : String} {fields : List (String × String)} :
    (key, fields) ∈ counted call (.answered (g.request call) answer) ↔
      ∃ (fill : BulkFill) (i : Nat) (row : Row), answer = .ok fill ∧ call.rows[i]? = some row ∧
        fill.status i = some .success ∧
        written? call.ids ⟨row, fill.counters call.ids.length i⟩ = some (key, fields) := by
  simp only [counted, List.mem_filterMap, Prod.exists, List.mem_zipIdx_iff_getElem?,
    Option.bind_eq_some_iff]
  cases answer with
  | error error => simp [request, Event.values?]
  | ok fill =>
    have hvalues : ∀ i, (Event.answered (g.request call) (.ok fill)).values? i =
        if fill.status i = some .success then some (fill.counters call.ids.length i) else none := by
      intro i
      simp [request, Event.values?, CounterId.raws]
    simp only [hvalues, Option.ite_none_right_eq_some, Option.some.injEq]
    constructor
    · rintro ⟨row, i, hrow, values, ⟨hstatus, rfl⟩, hwritten⟩
      exact ⟨fill, i, row, rfl, hrow, hstatus, hwritten⟩
    · rintro ⟨_, i, row, hfill, hrow, hstatus, hwritten⟩
      cases hfill
      exact ⟨row, i, hrow, _, ⟨hstatus, rfl⟩, hwritten⟩

/-- The event of the read of a call answers the call. -/
theorem answered_of_getElem? (switch : Switch) (past : List Event) {n : Nat}
    {call : ReadCall .meterBucketStat} {event : Event} (hcall : g.readCalls[n]? = some call)
    (hevent : (readsOf (g.poll.run switch past).events)[n]? = some event) :
    ∃ answer : Except DriverError BulkFill, event = .answered (g.request call) answer := by
  have hrequests := congrArg (·[n]?) (g.requests_poll switch past)
  simp only [List.getElem?_map, hcall, hevent, Option.map_some, Option.some.injEq] at hrequests
  cases event with
  | handedOut out => cases hrequests
  | answered request answer =>
    cases hrequests
    exact ⟨answer, rfl⟩

/-- A pass writes the rows of the buckets for which a value was delivered that is not zero. -/
theorem Sound.mem_rowsWritten_iff (h : g.Sound) (switch : Switch) (past : List Event) {key : String}
    {fields : List (String × String)} :
    let events := (g.poll.run switch past).events
    (key, fields) ∈ rowsWritten events ↔
      ∃ row ids values, g.Delivers (readsOf events) row ids values ∧ (∃ value ∈ values, value ≠ 0) ∧
        key = rowKey row.vid row.key.meterClass ∧ fields = rowFields ids values := by
  intro events
  have hwritten : ∀ {n : Nat} {call : ReadCall .meterBucketStat} {i : Nat} {row : Row} {values},
      g.readCalls[n]? = some call → call.rows[i]? = some row →
      (written? call.ids ⟨row, values⟩ = some (key, fields) ↔
        (∃ value ∈ values, value ≠ 0) ∧ key = rowKey row.vid row.key.meterClass ∧
          fields = rowFields call.ids values) := by
    intro n call i row values hcall hrow
    obtain ⟨-, home, rid, hbucket⟩ := h.exists_of_mem_rows (List.mem_flatMap.mpr
      ⟨call, List.mem_of_getElem? hcall, List.mem_of_getElem? hrow⟩)
    have hself : row = ⟨row.vid, .bucket home rid row.key.meterClass⟩ := by rw [← hbucket]
    nth_rewrite 1 [hself]
    exact written?_eq_some_iff
  rw [rowsWritten_poll]
  simp only [List.mem_flatMap, Prod.exists, mem_zip_iff_getElem?]
  constructor
  · rintro ⟨call, event, ⟨n, hcall, hevent⟩, hmem⟩
    obtain ⟨answer, rfl⟩ := answered_of_getElem? switch past hcall hevent
    obtain ⟨fill, i, row, rfl, hrow, hstatus, hkept⟩ := g.mem_counted.mp hmem
    exact ⟨row, call.ids, _, ⟨n, call, fill, i, hcall, hevent, hrow, rfl, hstatus, rfl⟩,
      (hwritten hcall hrow).mp hkept⟩
  · rintro ⟨row, ids, values, ⟨n, call, fill, i, hcall, hevent, hrow, rfl, hstatus, rfl⟩, hcounts⟩
    refine ⟨call, _, ⟨n, hcall, hevent⟩, g.mem_counted.mpr ?_⟩
    exact ⟨fill, i, row, rfl, hrow, hstatus, (hwritten hcall hrow).mpr hcounts⟩

/-- No row is written twice in a pass. -/
theorem Sound.keys_nodup (h : g.Sound) (switch : Switch) (past : List Event) :
    ((rowsWritten (g.poll.run switch past).events).map Prod.fst).Nodup := by
  have hcalls : (g.readCalls.zip (readsOf (g.poll.run switch past).events)).map Prod.fst =
      g.readCalls := by
    have hrequests := congrArg List.length (g.requests_poll switch past)
    rw [List.length_map, List.length_map] at hrequests
    exact List.map_fst_zip (Nat.le_of_eq hrequests.symm)
  have hsub : ((rowsWritten (g.poll.run switch past).events).map Prod.fst).Sublist
      ((g.readCalls.flatMap ReadCall.rows).map fun row => rowKey row.vid row.key.meterClass) := by
    rw [rowsWritten_poll, List.map_flatMap, List.map_flatMap]
    nth_rewrite 2 [← hcalls]
    rw [List.flatMap_map]
    exact List.Sublist.flatMap_right _ fun entry _ => keys_counted_sublist entry.1 entry.2
  have hkeys := h.buckets_nodup.map (f := fun bucket => rowKey bucket.1 bucket.2) (by
    intro a b hab
    exact Prod.ext (rowKey_injective hab).1 (rowKey_injective hab).2)
  rw [List.map_map] at hkeys
  exact hkeys.sublist hsub

/-- The bulk reads of a pass read rows of partitions, each with the counters of its own. -/
theorem Sound.partition_of_mem_readCalls (h : g.Sound) {call : ReadCall .meterBucketStat}
    (hcall : call ∈ g.readCalls) :
    ∃ p, g.partitions.get? call.ids = some p ∧ p.ids = call.ids ∧
      ∀ row ∈ call.rows, row ∈ p.rows := by
  obtain ⟨⟨ids, p⟩, hentry, hmem⟩ := List.mem_flatMap.mp hcall
  obtain ⟨bounds, -, rfl⟩ := List.mem_map.mp hmem
  have hp := SortedMap.get?_eq_some_iff.mpr hentry
  have hids := (h.filed ids p hp).2.1
  refine ⟨p, ?_, rfl, fun row hrow => ?_⟩
  · rw [← hids] at hp
    exact hp
  · exact List.mem_of_mem_drop (List.mem_of_mem_take hrow)

/-- What a pass over meter buckets comes to, by its events. It issues its bulk reads and reads
nothing else. For each interface that is tracked they ask for all buckets of its switch, each once
and in order, with the counters of the partition that the bucket is in, and for nothing else. The
rows that are written are those of the buckets whose own bulk read succeeded, reported success for
the bucket and delivered a value that is not zero, each with all of its counters and values. No two
rows have the same key, and none has the key of an interface that is not tracked. -/
structure WritesCounted (g : MeterGroup) (events : List Event) : Prop where
  requests_eq : (readsOf events).map Event.request? =
    g.readCalls.map fun call => some (g.request call)
  buckets_of_tracked : ∀ vid rid, g.interfaces.get? vid = some rid →
    ∃ home count, g.countsBySwitch.get? home = some count ∧ 0 < count ∧
      (g.readCalls.flatMap ReadCall.rows).filter (fun row => row.vid == vid) =
        bucketRows home vid rid count
  buckets_nodup :
    ((g.readCalls.flatMap ReadCall.rows).map fun row => (row.vid, row.key.meterClass)).Nodup
  tracked_of_mem_rows : ∀ row ∈ g.readCalls.flatMap ReadCall.rows, row.vid ∈ g.vids
  partition_of_mem_calls : ∀ call ∈ g.readCalls, ∃ p, g.partitions.get? call.ids = some p ∧
    p.ids = call.ids ∧ ∀ row ∈ call.rows, row ∈ p.rows
  mem_written_iff : ∀ key fields, (key, fields) ∈ rowsWritten events ↔
    ∃ row ids values, g.Delivers (readsOf events) row ids values ∧ (∃ value ∈ values, value ≠ 0) ∧
      key = rowKey row.vid row.key.meterClass ∧ fields = rowFields ids values
  keys_nodup : ((rowsWritten events).map Prod.fst).Nodup
  not_mem_keys : ∀ vid, vid ∉ g.vids → ∀ meterClass,
    rowKey vid meterClass ∉ (rowsWritten events).map Prod.fst

/-- One pass over meter buckets, in any state that commands bring a group to and whatever the driver
answers, reads every bucket once and writes the rows of those that counted something. -/
theorem poll_writes_what_counted (h : g.Reachable) (switch : Switch) (past : List Event) :
    g.WritesCounted (g.poll.run switch past).events := by
  have hsound := h.sound
  have htracked : ∀ row ∈ g.readCalls.flatMap ReadCall.rows, row.vid ∈ g.vids := fun row hrow =>
    (hsound.exists_of_mem_rows hrow).1
  constructor
  case requests_eq => exact g.requests_poll switch past
  case buckets_of_tracked => exact fun vid rid hrid => hsound.reads_buckets hrid
  case buckets_nodup => exact hsound.buckets_nodup
  case tracked_of_mem_rows => exact htracked
  case partition_of_mem_calls => exact fun call hcall => hsound.partition_of_mem_readCalls hcall
  case mem_written_iff => exact fun key fields => hsound.mem_rowsWritten_iff switch past
  case keys_nodup => exact hsound.keys_nodup switch past
  case not_mem_keys =>
    intro vid hvid meterClass hkey
    obtain ⟨⟨key, fields⟩, hmem, rfl⟩ := List.mem_map.mp hkey
    obtain ⟨row, ids, values, ⟨n, call, fill, i, hcall, -, hrow, -⟩, -, hrowKey, -⟩ :=
      (hsound.mem_rowsWritten_iff switch past).mp hmem
    refine hvid ?_
    rw [(rowKey_injective hrowKey).1]
    exact htracked row (List.mem_flatMap.mpr
      ⟨call, List.mem_of_getElem? hcall, List.mem_of_getElem? hrow⟩)

/-- A driver of a switch with two buckets for each interface, where a bucket counts its class. -/
def countsClass : Driver
  | .bulkRead _ keys ids _ => .ok ⟨fun _ => some .success,
      fun slot => keys[slot / ids.length]?.map fun key => .ofNat key.meterClass⟩
  | request => twoBuckets (.object 0) request

/-- Of two interfaces with two buckets each, read in chunks of three, the bucket of the first class
counts nothing and gets no row. -/
theorem poll_writes_what_counted_two_interfaces :
    let spec := { GroupSpec.stats "DASH Meter Bucket Counter" .eniStat
        "DASH_METER_COUNTER_ID_LIST" none with content := .meterBuckets, usesCapabilities := false }
    let name := "SAI_METER_BUCKET_ENTRY_STAT_OUTBOUND_BYTES"
    let switch := Switch.unchanging countsClass
    let start := (initial (GroupSettings.initial spec "ENIS")).withChunkSize 3
    let g := ((start.perform (.addMany [1, 2] [0x101, 0x102] [name] none)).run switch []).value
    let events := (g.poll.run switch []).events
    (readsOf events).map Event.request? = (g.readCalls.map fun call => some (g.request call)) ∧
      (readsOf events).length = 2 ∧
      (∃ home count, g.countsBySwitch.get? home = some count ∧ 0 < count ∧
        (g.readCalls.flatMap ReadCall.rows).filter (fun row => row.vid == 2) =
          bucketRows home 2 0x102 count) ∧
      rowsWritten events = [("oid:0x1:1", [(name, "1")]), ("oid:0x2:1", [(name, "1")])] ∧
      (∀ meterClass, rowKey 3 meterClass ∉ (rowsWritten events).map Prod.fst) := by
  intro spec name switch start g events
  have hreached : g.Reachable := .perform _ switch []
    (.perform (.resize 3) switch [] (.initial (GroupSettings.initial spec "ENIS")))
  have hwrites := poll_writes_what_counted hreached switch []
  have hvids : g.vids = [1, 2] := by decide +kernel
  refine ⟨hwrites.requests_eq, by decide +kernel,
    hwrites.buckets_of_tracked 2 0x102 (by decide +kernel), by decide +kernel,
    hwrites.not_mem_keys 3 ?_⟩
  rw [hvids]
  decide

end Passes

end MeterGroup

end CounterPolling
