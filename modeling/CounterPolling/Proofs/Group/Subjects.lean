import CounterPolling.Group.Basic
import CounterPolling.Proofs.Group.Metering

/-!
# What the rows of the counters table are about

A row of the counters table is about an object, or about the bucket that an interface has for a
meter class, and its key tells which. A pass over a group of any kind asks its questions in turn,
and after each of them writes the rows that it makes of the answer, about what it asked for. Main
statements: `RowSubject.key_injective` and `Group.poll_serves_sources`.
-/

namespace CounterPolling

/-- The key of a bucket is not that of an object: behind the digits of the id it has a colon. -/
theorem MeterGroup.rowKey_ne_text (vid other : ObjectId) (meterClass : Nat) :
    rowKey vid meterClass ≠ other.text := by
  intro h
  have hlists := congrArg String.toList h
  simp only [rowKey, ObjectId.text, Text.hexadecimal, String.toList_append, String.toList_ofList,
    List.append_assoc] at hlists
  have hdigits := List.append_cancel_left hlists
  refine colon_notMem_toDigits_sixteen other.toNat ?_
  rw [← hdigits]
  simp

/-- What a row of the counters table is about. -/
inductive RowSubject
  /-- An object, by its virtual id. -/
  | object (vid : ObjectId)
  /-- The bucket that a network interface has for a meter class. -/
  | bucket (vid : ObjectId) (meterClass : Nat)
  deriving DecidableEq

namespace RowSubject

/-- The key under which the row stands. -/
def key : RowSubject → String
  | object vid => vid.text
  | bucket vid meterClass => MeterGroup.rowKey vid meterClass

/-- Rows about different objects or buckets have different keys. -/
theorem key_injective : Function.Injective key := by
  intro s s' h
  cases s with
  | object vid =>
    cases s' with
    | object vid' => exact congrArg object (ObjectId.text_injective h)
    | bucket vid' c' => exact absurd h.symm (MeterGroup.rowKey_ne_text vid' vid c')
  | bucket vid c =>
    cases s' with
    | object vid' => exact absurd h (MeterGroup.rowKey_ne_text vid vid' c)
    | bucket vid' c' =>
      obtain ⟨rfl, rfl⟩ := MeterGroup.rowKey_injective h
      rfl

end RowSubject

/-- A row as a pass makes it: what it is about, and its fields. -/
structure PolledRow where
  /-- What the row is about. -/
  subject : RowSubject
  /-- The values by field. -/
  fields : List (String × String)
  deriving DecidableEq

/-- The row as it is written, under its key. -/
def PolledRow.entry (row : PolledRow) : String × List (String × String) :=
  (row.subject.key, row.fields)

/-- Different rows are written differently. -/
theorem PolledRow.entry_injective : Function.Injective PolledRow.entry := by
  rintro ⟨subject, fields⟩ ⟨subject', fields'⟩ h
  obtain ⟨hkey, hfields⟩ := Prod.mk.inj h
  exact congrArg₂ PolledRow.mk (RowSubject.key_injective hkey) hfields

section Sources

/-- A question that a pass asks, and the rows that it makes of an answer. -/
structure RowSource where
  /-- The question. -/
  request : Request
  /-- The rows made of an answer. -/
  rows : request.Answer → List PolledRow

/-- Events serve a source: its question is answered, and then the rows made of the answer are
written. -/
def RowSource.Serves (source : RowSource) (block : List Event) : Prop :=
  ∃ answer later, block = .answered source.request answer :: later ∧
    rowsWritten later = (source.rows answer).map PolledRow.entry

/-- The rows written by a sequence are those of its parts. -/
@[simp]
theorem rowsWritten_append (events later : List Event) :
    rowsWritten (events ++ later) = rowsWritten events ++ rowsWritten later :=
  List.flatMap_append

/-- What is written for each member of a list is written in turn. -/
theorem rowsWritten_each {α : Type} {act : α → Dialogue Unit} {switch : Switch}
    {written : α → List (String × List (String × String))}
    (h : ∀ item past, rowsWritten ((act item).run switch past).events = written item)
    (items : List α) (past : List Event) :
    rowsWritten ((Dialogue.each act items).run switch past).events = items.flatMap written := by
  induction items generalizing past with
  | nil => rfl
  | cons item rest ih =>
    rw [Dialogue.each, Dialogue.events_run_bind, rowsWritten_append, h, ih, List.flatMap_cons]

/-- A dialogue for each member of a list, each of which serves a source of its own. -/
theorem inTurn_each_one {α : Type} {act : α → Dialogue Unit} {source : α → RowSource}
    {switch : Switch} (h : ∀ item past, (source item).Serves ((act item).run switch past).events)
    (items : List α) (past : List Event) :
    InTurn RowSource.Serves (items.map source)
      ((Dialogue.each act items).run switch past).events := by
  rw [List.map_eq_flatMap]
  exact Dialogue.inTurn_each (fun item _ past => .one (h item past)) past

namespace Partition

variable {family : CounterFamily}

/-- A chunk of a partition as a source: of the answer to its bulk read, a row may be made for each
row that is delivered. -/
def source (p : Partition family) (kind : ObjectKind) (mode : ReadMode)
    (make : Reading → Option PolledRow) (bounds : Nat × Nat) : RowSource where
  request := .bulkRead kind ((p.slice bounds).map Row.key) (CounterId.raws p.ids) mode
  rows answer := (p.delivered bounds answer).filterMap make

/-- A pass over a partition serves its chunks in turn. -/
theorem sweep_serves (p : Partition family) (kind : ObjectKind) (mode : ReadMode)
    {publish : Reading → Dialogue Unit} {make : Reading → Option PolledRow} {switch : Switch}
    (hpublish : ∀ reading past, rowsWritten ((publish reading).run switch past).events =
      ((make reading).map PolledRow.entry).toList) (past : List Event) :
    InTurn RowSource.Serves (p.chunks.map (p.source kind mode make))
      ((p.sweep kind mode publish).run switch past).events := by
  obtain ⟨answers, hlength, hturn, -⟩ :=
    p.sweepChunks_handsOn kind mode publish p.chunks switch past
  have hchunks : (p.chunks.zip answers).map Prod.fst = p.chunks :=
    List.map_fst_zip (Nat.le_of_eq hlength.symm)
  rw [← hchunks, List.map_map]
  refine hturn.map ?_
  rintro ⟨bounds, answer⟩ block ⟨earlier, -, hblock⟩
  refine ⟨answer, _, hblock, ?_⟩
  change _ = ((p.delivered bounds answer).filterMap make).map PolledRow.entry
  cases answer with
  | error error => rfl
  | ok fill =>
    dsimp only
    rw [rowsWritten_each hpublish, List.map_filterMap, List.filterMap_eq_flatMap_toList]

end Partition

namespace StatsGroup

variable {family : CounterFamily}

/-- The row that is made of an answer to the read of one object, if it is complete. -/
def singleRow (vid : ObjectId) (r : Registration family) :
    Except DriverError (List UInt64) → List PolledRow
  | .error _ => []
  | .ok values =>
    if values.length = (CounterId.raws r.ids).length then
      [⟨.object vid, rowFields r.ids values⟩] else []

/-- The row of an object that was read in bulk. -/
def bulkRow (ids : List (CounterId family)) (reading : Reading) : Option PolledRow :=
  some ⟨.object reading.row.vid, rowFields ids reading.values⟩

/-- The sources of a pass, in order: the objects read by themselves, and then the chunks. -/
def sources (g : StatsGroup family) : List RowSource :=
  (g.singles.entries.map fun entry =>
    ⟨.read g.kind entry.2.rid (CounterId.raws entry.2.ids), singleRow entry.1 entry.2⟩) ++
  g.partitions.entries.flatMap fun entry => entry.2.chunks.map
    (entry.2.source g.kind (g.settings.modeFor entry.1.mode) (bulkRow entry.2.ids))

/-- Reading an object by itself serves its source. Clearing writes no row, whether it is asked for
or not, and whether it succeeds or not. -/
theorem pollSingle_serves_source (g : StatsGroup family) (vid : ObjectId) (r : Registration family)
    (switch : Switch) (past : List Event) :
    RowSource.Serves ⟨.read g.kind r.rid (CounterId.raws r.ids), singleRow vid r⟩
      ((g.pollSingle vid r).run switch past).events := by
  unfold pollSingle
  rw [Dialogue.events_run_bind, Dialogue.run_question]
  refine ⟨switch past (.read g.kind r.rid (CounterId.raws r.ids)), _, rfl, ?_⟩
  generalize switch past (.read g.kind r.rid (CounterId.raws r.ids)) = answer
  change _ = (singleRow vid r answer).map PolledRow.entry
  cases answer with
  | error error => rfl
  | ok values =>
    dsimp only [singleRow]
    by_cases hlength : values.length = (CounterId.raws r.ids).length
    · rw [if_neg (not_not.mpr hlength), if_pos hlength]
      cases g.settings.modeFor r.mode with
      | read => rfl
      | readAndClear =>
        dsimp only
        rw [Dialogue.run_bind, Dialogue.run_question]
        generalize switch _ (.clear g.kind r.rid (CounterId.raws r.ids)) = cleared
        cases cleared <;> rfl
    · rw [if_pos hlength, if_neg hlength]
      rfl

/-- A pass serves its sources in turn. -/
theorem poll_serves_sources (g : StatsGroup family) (switch : Switch) (past : List Event) :
    InTurn RowSource.Serves g.sources (g.poll.run switch past).events := by
  unfold poll sources
  rw [Dialogue.events_run_bind]
  refine InTurn.append ?_ ?_
  · exact inTurn_each_one (fun entry past => g.pollSingle_serves_source entry.1 entry.2 switch past)
      g.singles.entries past
  · refine Dialogue.inTurn_each (fun entry _ past => ?_) _
    rw [Dialogue.events_run_bind, Dialogue.pure_eq_done, Dialogue.run_done, List.append_nil]
    exact entry.2.sweep_serves _ _ (fun _ _ => rfl) past

end StatsGroup

namespace AttributeGroup

variable {family : CounterFamily}

/-- The row that is made of an answer to the read of an object's attributes, if it is complete. -/
def attributeRow (vid : ObjectId) (list : AttributeList family) :
    Except DriverError (List String) → List PolledRow
  | .error _ => []
  | .ok values =>
    if values.length = list.ids.length then
      [⟨.object vid, (CounterId.names list.ids).zip values⟩] else []

/-- The sources of a pass, in order. -/
def sources (g : AttributeGroup family) : List RowSource :=
  g.objects.entries.map fun entry =>
    ⟨.attributes g.settings.spec.kind entry.2.rid (CounterId.raws entry.2.ids),
      attributeRow entry.1 entry.2⟩

/-- A pass serves its sources in turn. -/
theorem poll_serves_sources (g : AttributeGroup family) (switch : Switch) (past : List Event) :
    InTurn RowSource.Serves g.sources (g.poll.run switch past).events := by
  refine inTurn_each_one (fun entry past => ?_) g.objects.entries past
  unfold pollObject
  dsimp only
  rw [Dialogue.events_run_bind, Dialogue.run_question]
  refine ⟨switch past _, _, rfl, ?_⟩
  generalize switch past (.attributes _ _ _) = answer
  change _ = (attributeRow entry.1 entry.2 answer).map PolledRow.entry
  cases answer with
  | error error => rfl
  | ok values =>
    dsimp only [attributeRow]
    by_cases hlength : values.length = entry.2.ids.length
    · rw [if_neg (not_not.mpr hlength), if_pos hlength]
      rfl
    · rw [if_pos hlength, if_neg hlength]
      rfl

end AttributeGroup

namespace MeterGroup

/-- The row of a bucket, if it counted something. -/
def bucketRow (ids : List BucketCounter) (reading : Reading) : Option PolledRow :=
  (written? ids reading).map fun row =>
    ⟨.bucket reading.row.vid reading.row.key.meterClass, row.2⟩

/-- The row of a bucket stands under the key of the bucket. -/
theorem map_entry_bucketRow (ids : List BucketCounter) (reading : Reading) :
    (bucketRow ids reading).map PolledRow.entry = written? ids reading := by
  unfold bucketRow written?
  split
  · rfl
  · cases hkey : reading.row.key with
    | object id => rfl
    | bucket switch eni meterClass => rfl

/-- The sources of a pass, in order. -/
def sources (g : MeterGroup) : List RowSource :=
  g.partitions.entries.flatMap fun entry => entry.2.chunks.map
    (entry.2.source .meterBucket g.settings.mode (bucketRow entry.2.ids))

/-- Publishing a bucket writes its row, if it counted something. -/
theorem rowsWritten_publish (ids : List BucketCounter) (reading : Reading) (switch : Switch)
    (past : List Event) :
    rowsWritten ((publish ids reading).run switch past).events =
      ((bucketRow ids reading).map PolledRow.entry).toList := by
  have hrows := rowsWritten_handedOut (written? ids reading).toList
  rw [List.map_map] at hrows
  rw [map_entry_bucketRow, events_publish]
  exact hrows

/-- A pass serves its sources in turn. -/
theorem poll_serves_sources (g : MeterGroup) (switch : Switch) (past : List Event) :
    InTurn RowSource.Serves g.sources (g.poll.run switch past).events := by
  unfold poll sources
  refine Dialogue.inTurn_each (fun entry _ past => ?_) past
  rw [Dialogue.events_run_bind, Dialogue.pure_eq_done, Dialogue.run_done, List.append_nil]
  exact entry.2.sweep_serves _ _
    (fun reading past => rowsWritten_publish entry.2.ids reading switch past) past

end MeterGroup

namespace Group

/-- The sources of a pass, in order. -/
def sources : Group → List RowSource
  | stats _ g => g.sources
  | attributes _ g => g.sources
  | meterBuckets g => g.sources

/-- A pass over a group of any kind, in any state, serves its sources in turn. -/
theorem poll_serves_sources (group : Group) (switch : Switch) (past : List Event) :
    InTurn RowSource.Serves group.sources (group.poll.run switch past).events := by
  cases group with
  | stats family g => exact g.poll_serves_sources switch past
  | attributes family g => exact g.poll_serves_sources switch past
  | meterBuckets g => exact g.poll_serves_sources switch past

end Group

end Sources

end CounterPolling
