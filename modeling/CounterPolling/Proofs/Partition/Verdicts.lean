import CounterPolling.Partition.Sweep
import CounterPolling.Proofs.Partition.Sweeps

/-!
# Verdicts of trials and of passes

A trial of a bulk read and a pass in one chunk put the same request to the driver, and both judge
rows by the statuses it writes. A row whose status it leaves alone passes the trial, and the pass
does not hand it on. Main statement: `Partition.tried_eq_handedOn_iff`, by which they judge
alike exactly if there is no such row.
-/

namespace CounterPolling

theorem valueWith_tryBulkRead {driver : Driver} (kind : ObjectKind) (keys : List RowKey)
    (ids : List Int) (mode : ReadMode) :
    (tryBulkRead kind keys ids mode).valueWith driver =
      (driver (.bulkRead kind keys ids mode)).map fun fill =>
        fill.statuses .success keys.length := by
  unfold tryBulkRead
  rw [Dialogue.valueWith_bind, Dialogue.valueWith_question]
  cases driver (.bulkRead kind keys ids mode) <;> rfl

namespace Partition

variable {family : CounterFamily} {kind : ObjectKind} {mode : ReadMode}
  {publish : Reading → Dialogue Unit} {driver : Driver} {fill : BulkFill}

/-- The bulk read of all rows. -/
@[reducible]
def wholeRead (p : Partition family) (kind : ObjectKind) (mode : ReadMode) : Request :=
  .bulkRead kind (p.rows.map Row.key) (CounterId.raws p.ids) mode

/-- The rows that a trial of the bulk read of all rows reports success for. -/
def tried (p : Partition family) (kind : ObjectKind) (mode : ReadMode) (driver : Driver) :
    List Row :=
  match (tryBulkRead kind (p.rows.map Row.key) (CounterId.raws p.ids) mode).valueWith driver with
  | .error _ => []
  | .ok statuses => (p.rows.zip statuses).filterMap fun entry =>
    if entry.2.isSuccess then some entry.1 else none

/-- The rows that a pass hands on. -/
def handedOn (p : Partition family) (kind : ObjectKind) (mode : ReadMode)
    (publish : Reading → Dialogue Unit) (driver : Driver) : List Row :=
  ((p.sweep kind mode publish).valueWith driver).readings.map Reading.row

/-- The rows in the positions that have a property. -/
def rowsWhere (p : Partition family) (keep : Nat → Prop) [DecidablePred keep] : List Row :=
  (p.rows.zipIdx.filter fun entry => keep entry.2).map Prod.fst

/-- Two properties, of which one implies the other, keep the same rows if they agree on all
positions. -/
theorem rowsWhere_eq_iff (p : Partition family) {keep keep' : Nat → Prop} [DecidablePred keep]
    [DecidablePred keep'] (himp : ∀ i, keep i → keep' i) :
    p.rowsWhere keep' = p.rowsWhere keep ↔ ∀ i < p.size, keep' i → keep i := by
  have hsub : (p.rows.zipIdx.filter fun entry => keep entry.2).Sublist
      (p.rows.zipIdx.filter fun entry => keep' entry.2) :=
    List.monotone_filter_right _ fun entry hkeep => by simpa using himp _ (by simpa using hkeep)
  unfold rowsWhere
  constructor
  · intro heq i hi hkeep'
    have hsame := hsub.eq_of_length (by simpa using (congrArg List.length heq).symm)
    obtain ⟨row, hrow⟩ : ∃ row, p.rows[i]? = some row := ⟨_, List.getElem?_eq_getElem hi⟩
    have hkept : (row, i) ∈ p.rows.zipIdx.filter fun entry => keep' entry.2 := by
      simpa [List.mem_zipIdx_iff_getElem?] using ⟨hrow, hkeep'⟩
    rw [← hsame] at hkept
    simpa using (List.mem_filter.mp hkept).2
  · intro hagree
    refine congrArg _ (List.filter_congr fun entry hentry => ?_)
    have hlt := (List.mem_zipIdx hentry).2.1
    rw [decide_eq_decide]
    exact ⟨hagree entry.2 (by simpa [size] using hlt), himp entry.2⟩

section Trial

theorem tried_of_error (p : Partition family) {error : DriverError}
    (h : driver (p.wholeRead kind mode) = .error error) : p.tried kind mode driver = [] := by
  unfold tried
  rw [valueWith_tryBulkRead, h]
  rfl

/-- A trial passes the rows whose status was set to success or left alone. -/
theorem tried_of_ok (p : Partition family) (h : driver (p.wholeRead kind mode) = .ok fill) :
    p.tried kind mode driver =
      p.rowsWhere fun i => (fill.status i).getD .success = .success := by
  unfold tried
  rw [valueWith_tryBulkRead, h]
  change ((p.rows.zip (fill.statuses .success (p.rows.map Row.key).length)).filterMap fun entry =>
    if entry.2.isSuccess then some entry.1 else none) = _
  have hstatuses : p.rows.zip (fill.statuses .success (p.rows.map Row.key).length) =
      p.rows.zipIdx.map fun entry => (entry.1, (fill.status entry.2).getD .success) := by
    refine List.ext_getElem (by simp) fun i hi hi' => ?_
    simp [BulkFill.statuses]
  rw [hstatuses, List.filterMap_map]
  simp only [Function.comp_def, Status.isSuccess_iff]
  exact filterMap_ite _ _ _

end Trial

section Pass

/-- With a driver that never changes a pass hands on what its answers deliver. -/
theorem valueWith_sweep (p : Partition family) (kind : ObjectKind) (mode : ReadMode)
    (publish : Reading → Dialogue Unit) (driver : Driver) :
    (p.sweep kind mode publish).valueWith driver =
      ⟨p.chunks.length, p.chunks.flatMap fun bounds => p.delivered bounds
        (driver (.bulkRead kind ((p.slice bounds).map Row.key) (CounterId.raws p.ids) mode))⟩ := by
  unfold sweep
  induction p.chunks with
  | nil => rfl
  | cons bounds rest ih =>
    have hchunk : (p.readChunk kind mode bounds).valueWith driver = p.delivered bounds
        (driver (.bulkRead kind ((p.slice bounds).map Row.key) (CounterId.raws p.ids) mode)) := by
      unfold readChunk
      rw [Dialogue.valueWith_bind, Dialogue.valueWith_question]
      cases driver (.bulkRead kind ((p.slice bounds).map Row.key) (CounterId.raws p.ids) mode) with
      | error error => rfl
      | ok fill => exact fill.readings_eq _ _
    rw [sweepChunks]
    simp only [Dialogue.valueWith_bind, Dialogue.valueWith_pure, ih, hchunk]
    rfl

/-- With one chunk at most there is one bulk read at most, that of all rows. -/
theorem readings_of_one_chunk (p : Partition family) (hone : p.chunkSize = 0 ∨ p.size ≤ p.chunkSize)
    (kind : ObjectKind) (mode : ReadMode) (publish : Reading → Dialogue Unit) (driver : Driver) :
    ((p.sweep kind mode publish).valueWith driver).readings =
      p.delivered (0, p.size) (driver (p.wholeRead kind mode)) := by
  have hslice : p.slice (0, p.size) = p.rows := List.take_length
  rw [valueWith_sweep]
  rcases Nat.eq_zero_or_pos p.size with hzero | hpos
  · have hrows : p.rows = [] := List.eq_nil_of_length_eq_zero hzero
    rw [chunks, chunkBounds, if_pos hzero]
    unfold delivered
    rw [hslice, hrows]
    cases driver (p.wholeRead kind mode) <;> rfl
  · rw [chunks, chunkBounds_of_le hpos hone, List.flatMap_singleton, hslice]

theorem handedOn_of_error (p : Partition family)
    (hone : p.chunkSize = 0 ∨ p.size ≤ p.chunkSize) {error : DriverError}
    (h : driver (p.wholeRead kind mode) = .error error) :
    p.handedOn kind mode publish driver = [] := by
  rw [handedOn, p.readings_of_one_chunk hone, h]
  rfl

/-- A pass hands on the rows whose status was set to success. -/
theorem handedOn_of_ok (p : Partition family) (hone : p.chunkSize = 0 ∨ p.size ≤ p.chunkSize)
    (h : driver (p.wholeRead kind mode) = .ok fill) :
    p.handedOn kind mode publish driver =
      p.rowsWhere fun i => fill.status i = some .success := by
  have hslice : p.slice (0, p.size) = p.rows := List.take_length
  rw [handedOn, p.readings_of_one_chunk hone, h, delivered, filterMap_ite, List.map_map, hslice]
  rfl

end Pass

/-- A trial and a pass in one chunk judge all rows alike exactly if the driver, unless it fails the
bulk read, writes the status of each row. -/
theorem tried_eq_handedOn_iff (p : Partition family)
    (hone : p.chunkSize = 0 ∨ p.size ≤ p.chunkSize) (kind : ObjectKind) (mode : ReadMode)
    (publish : Reading → Dialogue Unit) (driver : Driver) :
    p.tried kind mode driver = p.handedOn kind mode publish driver ↔
      ∀ fill, driver (p.wholeRead kind mode) = .ok fill → ∀ i < p.size, fill.status i ≠ none := by
  cases hanswer : driver (p.wholeRead kind mode) with
  | error error =>
    rw [p.tried_of_error hanswer, p.handedOn_of_error hone hanswer]
    exact iff_of_true rfl fun fill hfill => nomatch hfill
  | ok fill =>
    have hpassed : ∀ i, fill.status i = some .success → (fill.status i).getD .success = .success :=
      fun i hi => by rw [hi, Option.getD_some]
    rw [p.tried_of_ok hanswer, p.handedOn_of_ok hone hanswer, p.rowsWhere_eq_iff hpassed]
    constructor
    · rintro hagree _ ⟨⟩ i hi hnone
      have hsuccess := hagree i hi (by rw [hnone, Option.getD_none])
      rw [hnone] at hsuccess
      cases hsuccess
    · intro hwritten i hi hpass
      obtain ⟨status, hstatus⟩ := Option.ne_none_iff_exists'.mp (hwritten fill rfl i hi)
      rw [hstatus, Option.getD_some] at hpass
      rw [hstatus, hpass]

end Partition

end CounterPolling
