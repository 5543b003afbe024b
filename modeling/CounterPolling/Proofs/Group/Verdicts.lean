import CounterPolling.Proofs.Group.Changes
import CounterPolling.Proofs.Group.Published
import CounterPolling.Proofs.Object.Text
import CounterPolling.Proofs.Partition.Sizes

/-!
# Objects that pass their trial and are not read

A driver may answer bulk reads row by row: what it makes of a row has nothing to do with the other
rows of the call. Without prefixes, an object is then read in bulk if the driver leaves the status
of its row alone, just as if it reports success. The passes write fields of it in the second
case only. Main statement: `trial_and_pass_agree_iff`.
-/

namespace CounterPolling

/-- What a driver makes of bulk reads, row by row. -/
structure RowAnswers where
  /-- A bulk read of counters fails as a whole. -/
  Fails : List Int → ReadMode → Prop
  /-- What is written into the status slot of the row of a key, if anything. -/
  status : List Int → ReadMode → RowKey → Option Status

/-- The driver answers bulk reads of a kind of object as described, whatever rows they have. -/
structure RowAnswers.Describes (answers : RowAnswers) (driver : Driver) (kind : ObjectKind) :
    Prop where
  fails_iff : ∀ keys ids mode,
    (∃ error, driver (.bulkRead kind keys ids mode) = .error error) ↔ answers.Fails ids mode
  status_eq : ∀ {keys ids mode fill i key}, driver (.bulkRead kind keys ids mode) = .ok fill →
    keys[i]? = some key → fill.status i = answers.status ids mode key

namespace RowAnswers.Describes

variable {answers : RowAnswers} {driver : Driver} {kind : ObjectKind} {keys : List RowKey}
  {ids : List Int} {mode : ReadMode} {fill : BulkFill}

theorem not_fails (h : answers.Describes driver kind)
    (hanswer : driver (.bulkRead kind keys ids mode) = .ok fill) : ¬ answers.Fails ids mode := by
  intro hfails
  obtain ⟨error, herror⟩ := (h.fails_iff keys ids mode).mpr hfails
  rw [hanswer] at herror
  cases herror

theorem exists_fill (h : answers.Describes driver kind) (hids : ¬ answers.Fails ids mode)
    (keys : List RowKey) : ∃ fill, driver (.bulkRead kind keys ids mode) = .ok fill := by
  cases hanswer : driver (.bulkRead kind keys ids mode) with
  | ok fill => exact ⟨fill, rfl⟩
  | error error => exact absurd ((h.fails_iff keys ids mode).mp ⟨error, hanswer⟩) hids

/-- A bulk read delivers values for a row exactly if it does not fail and reports success there. -/
theorem exists_values_iff (h : answers.Describes driver kind) {i : Nat} {key : RowKey}
    (hkey : keys[i]? = some key) :
    (∃ values, (Event.ofDriver driver (.bulkRead kind keys ids mode)).values? i = some values) ↔
      ¬ answers.Fails ids mode ∧ answers.status ids mode key = some .success := by
  cases hanswer : driver (.bulkRead kind keys ids mode) with
  | error error =>
    have hfails := (h.fails_iff keys ids mode).mp ⟨error, hanswer⟩
    refine iff_of_false ?_ fun hread => hread.1 hfails
    simp [Event.ofDriver, hanswer, Event.values?]
  | ok fill =>
    rw [← h.status_eq hanswer hkey, and_iff_right (h.not_fails hanswer)]
    simp [Event.ofDriver, hanswer, Event.values?]

end RowAnswers.Describes

/-- What a bulk read delivers for a row has a value for each counter. -/
theorem length_of_values? {driver : Driver} {kind : ObjectKind} {keys : List RowKey}
    {ids : List Int} {mode : ReadMode} {i : Nat} {values : List UInt64}
    (h : (Event.ofDriver driver (.bulkRead kind keys ids mode)).values? i = some values) :
    values.length = ids.length := by
  cases hanswer : driver (.bulkRead kind keys ids mode) with
  | error error => simp [Event.ofDriver, hanswer, Event.values?] at h
  | ok fill =>
    simp only [Event.ofDriver, hanswer, Event.values?, Option.ite_none_right_eq_some,
      Option.some.injEq] at h
    rw [← h.2, BulkFill.length_counters]

variable {family : CounterFamily} {answers : RowAnswers} {driver : Driver}

namespace StatsGroup

variable {g : StatsGroup family}

section Trials

/-- The row of a registration passes its trial: the bulk read does not fail, and the status of the
row is success or left alone. -/
def PassesTrial (g : StatsGroup family) (answers : RowAnswers) (r : Registration family) : Prop :=
  ¬ answers.Fails (CounterId.raws r.ids) (g.settings.modeFor r.mode) ∧
    (answers.status (CounterId.raws r.ids) (g.settings.modeFor r.mode) (.object r.rid)).getD
      .success = .success

theorem passesTrial_of_passes (h : answers.Describes driver g.kind) {r : Registration family}
    {keys : List RowKey} {fill : BulkFill} {i : Nat}
    (hanswer : driver (.bulkRead g.kind keys (CounterId.raws r.ids) (g.settings.modeFor r.mode)) =
      .ok fill) (hkey : keys[i]? = some (.object r.rid)) (hpasses : fill.Passes i) :
    g.PassesTrial answers r := by
  refine ⟨h.not_fails hanswer, ?_⟩
  rw [← h.status_eq hanswer hkey]
  exact hpasses

/-- Without prefixes an object is read in bulk exactly if its row passes. -/
theorem bulk_iff_passesTrial (h : answers.Describes driver g.kind)
    (hempty : g.settings.prefixes.isEmpty = true) (command : GroupCommand) :
    ∀ p ∈ ((g.decideOn command).valueWith driver).placements,
      p.bulk = true ↔ g.PassesTrial answers p.registration := by
  refine bulk_iff_of_trials (fun r => ?_) ?_ command
  · rw [trial_eq_true_iff]
    constructor
    · rintro ⟨fill, hanswer, hpasses⟩
      exact passesTrial_of_passes h hanswer rfl hpasses
    · rintro ⟨hids, hstatus⟩
      obtain ⟨fill, hanswer⟩ := h.exists_fill hids [.object r.rid]
      refine ⟨fill, hanswer, ?_⟩
      rw [BulkFill.Passes, h.status_eq hanswer rfl]
      exact hstatus
  · intro vids rids i vid rid ids own hasc hne hvid hrid halone
    have hclass : ∀ id ∈ ids, g.settings.prefixes.classOf id = none :=
      fun id _ => PrefixConfig.classOf_of_isEmpty hempty id
    rw [PrefixConfig.split_of_one_class hasc hne hclass] at halone
    obtain ⟨⟨fill, hanswer, hpasses⟩, -⟩ := passes_of_not_alone hvid hrid halone
    refine passesTrial_of_passes h hanswer ?_ hpasses
    rw [List.getElem?_map, hrid, Option.map_some]

end Trials

section Passes

variable {key : PartitionKey family} {row : Row}

/-- The reads of a pass that are made for an object in a partition are those of its chunks. -/
theorem Sound.exists_chunk (h : g.Sound) (hempty : g.settings.prefixes.isEmpty = true)
    (hrow : row ∈ g.partitions.rowsAt key) {call : ReadCall family} (hcall : call ∈ g.readCalls)
    {row' : Row} (hrow' : row' ∈ call.rows) (hvid : row'.vid = row.vid) :
    row' = row ∧ ∃ rows, call = .chunk key.mode rows key.ids := by
  rcases List.mem_append.mp hcall with hsingle | hchunk
  · obtain ⟨⟨vid, r⟩, hentry, hmem⟩ := List.mem_flatMap.mp hsingle
    rw [List.mem_singleton.mp hmem] at hrow'
    have hobject : row' = objectRow vid r.rid := List.mem_singleton.mp hrow'
    have hcontains : g.singles.contains row.vid = true := by
      rw [← hvid, hobject]
      exact SortedMap.contains_iff_mem.mpr ⟨r, hentry⟩
    exact absurd ⟨hcontains, PartitionTable.holds_iff.mpr ⟨key, row, hrow, rfl⟩⟩ (h.exclusive _)
  · obtain ⟨⟨key', p'⟩, hentry, hmem⟩ := List.mem_flatMap.mp hchunk
    obtain ⟨bounds, hbounds, rfl⟩ := List.mem_map.mp hmem
    have hmember : row' ∈ p'.rows := by
      rw [← p'.flatMap_slice_chunks]
      exact List.mem_flatMap.mpr ⟨bounds, hbounds, hrow'⟩
    have hp' := SortedMap.get?_eq_some_iff.mpr hentry
    have hrowsAt : row' ∈ g.partitions.rowsAt key' := by rwa [PartitionTable.rowsAt_eq hp']
    obtain ⟨rfl, -⟩ := h.table.same_row hrowsAt hrow hvid
    obtain rfl := h.table.key_eq_of_isEmpty hempty hrowsAt hrow rfl
    exact ⟨rfl, p'.slice bounds, by rw [(h.table.fits hp').ids_eq]⟩

/-- Without prefixes a pass writes fields of an object in a partition exactly if the bulk reads of
its counters do not fail and the status of its row is success. -/
theorem Sound.writes_iff (h : g.Sound) (hempty : g.settings.prefixes.isEmpty = true)
    (hanswers : answers.Describes driver g.kind) (hrow : row ∈ g.partitions.rowsAt key)
    (past : List Event) :
    (∃ field text, (row.vid.text, field, text) ∈
        fieldsOf (g.poll.run (.unchanging driver) past).events) ↔
      ¬ answers.Fails (CounterId.raws key.ids) (g.settings.modeFor key.mode) ∧
        answers.status (CounterId.raws key.ids) (g.settings.modeFor key.mode) row.key =
          some .success := by
  rw [fieldsOf_poll]
  simp only [List.mem_flatMap]
  constructor
  · rintro ⟨field, text, call, hcall, hmem⟩
    obtain ⟨i, row', values, hi, hvalues, htext, -⟩ := ReadCall.mem_delivered.mp hmem
    have hvid : row'.vid = row.vid := (ObjectId.text_injective htext).symm
    obtain ⟨rfl, rows, rfl⟩ := h.exists_chunk hempty hrow hcall (List.mem_of_getElem? hi) hvid
    have hkey : (rows.map Row.key)[i]? = some row'.key := by
      change rows[i]? = some row' at hi
      rw [List.getElem?_map, hi, Option.map_some]
    exact (hanswers.exists_values_iff hkey).mp ⟨values, hvalues⟩
  · intro hread
    obtain ⟨p, hp, hfits⟩ := h.table.fits_of_mem hrow
    rw [PartitionTable.rowsAt_eq hp, ← p.flatMap_slice_chunks] at hrow
    obtain ⟨bounds, hbounds, hmember⟩ := List.mem_flatMap.mp hrow
    obtain ⟨i, hi⟩ := List.mem_iff_getElem?.mp hmember
    have hkey : ((p.slice bounds).map Row.key)[i]? = some row.key := by
      rw [List.getElem?_map, hi, Option.map_some]
    rw [← hfits.ids_eq] at hread
    obtain ⟨values, hvalues⟩ := (hanswers.exists_values_iff hkey).mpr hread
    obtain ⟨id, rest, hids⟩ := List.exists_cons_of_ne_nil hfits.ids_ne_nil
    have hlength := length_of_values? hvalues
    rw [hfits.ids_eq, hids] at hlength
    obtain ⟨value, others, rfl⟩ := List.exists_cons_of_length_eq_add_one hlength
    refine ⟨id.name, toString value.toNat, .chunk key.mode (p.slice bounds) p.ids, ?_, ?_⟩
    · refine List.mem_append_right _ (List.mem_flatMap.mpr
        ⟨(key, p), SortedMap.get?_eq_some_iff.mp hp, List.mem_map_of_mem hbounds⟩)
    · refine ReadCall.mem_delivered.mpr ⟨i, row, value :: others, hi, hvalues, rfl, ?_⟩
      refine mem_rowFields.mpr ⟨0, id, value, ?_, rfl, rfl, rfl⟩
      change p.ids[0]? = some id
      rw [hfits.ids_eq, hids]
      rfl

end Passes

section Placed

variable {decision : Decision family} {own : Option ReadMode}
  {objects : List (ObjectId × ObjectId)}

/-- Without prefixes an object that is placed in bulk has its row in the partition of its mode and
its counters. -/
theorem Sound.mem_rowsAt_of_placed (h : g.Sound) (hempty : g.settings.prefixes.isEmpty = true)
    (hcovers : decision.Covers own objects) (hobjects : (objects.map Prod.fst).Nodup)
    {p : Placement family} (hp : p ∈ decision.placements) (hbulk : p.bulk = true) :
    objectRow p.vid p.registration.rid ∈
      (g.carryOut decision).partitions.rowsAt ⟨p.registration.mode, p.registration.ids⟩ := by
  have htable := (h.carryOut hcovers hobjects).table
  rw [settings_carryOut] at htable
  obtain ⟨hsupported, rid, -, hregistration⟩ := hcovers.placed hp
  have hids : p.registration.ids = decision.supported := by rw [hregistration]
  have hreads : ∀ id, (g.carryOut decision).partitions.Reads p.registration.mode
      (objectRow p.vid p.registration.rid) id ↔ id ∈ p.registration.ids := by
    intro id
    rw [reads_carryOut h.exclusive hcovers]
    constructor
    · rintro (⟨hother, -⟩ | ⟨p', hp', -, -, -, hid⟩)
      · exact absurd (List.mem_map_of_mem hp) hother
      · obtain ⟨-, rid', -, hregistration'⟩ := hcovers.placed hp'
        rwa [hregistration', ← hids] at hid
    · exact fun hid => .inr ⟨p, hp, hbulk, rfl, rfl, hid⟩
  obtain ⟨id, hid⟩ := List.exists_mem_of_ne_nil _ hsupported
  obtain ⟨key, hmode, hrow, -⟩ := (hreads id).mpr (hids ▸ hid)
  obtain ⟨_, -, hfits⟩ := htable.fits_of_mem hrow
  have hmembers : key.ids = p.registration.ids := by
    refine hfits.ascending.ext (hids ▸ hcovers.ascending) fun id => ?_
    rw [← hreads, htable.reads_iff_of_isEmpty hempty hrow, and_iff_right hmode.symm]
  rw [← hmode, ← hmembers]
  exact hrow

end Placed

/-- A trial and a pass in one chunk judge the rows of a bulk read alike exactly if the driver writes
the status of each row. If it answers row by row, an object that a group without prefixes comes to
read in bulk is one whose status is success or left alone, and the next pass writes fields of it
exactly if the status is not left alone. -/
theorem trial_and_pass_agree_iff :
    (∀ (p : Partition family) (kind : ObjectKind) (mode : ReadMode)
      (publish : Reading → Dialogue Unit) (driver : Driver),
      p.chunkSize = 0 ∨ p.size ≤ p.chunkSize →
        (p.tried kind mode driver = p.handedOn kind mode publish driver ↔ ∀ fill,
          driver (p.wholeRead kind mode) = .ok fill → ∀ i < p.size, fill.status i ≠ none)) ∧
    ∀ (g : StatsGroup family) (command : GroupCommand) (driver : Driver) (answers : RowAnswers)
      (past later : List Event), g.Reachable → command.Distinct → g.settings.prefixes = ∅ →
      answers.Describes driver g.kind →
        let after := ((g.perform command).run (.unchanging driver) past).value
        ∀ p ∈ ((g.decideOn command).valueWith driver).placements, p.bulk = true →
          let status := answers.status (CounterId.raws p.registration.ids)
            (g.settings.modeFor p.registration.mode) (.object p.registration.rid)
          after.partitions.holds p.vid = true ∧ (status = none ∨ status = some .success) ∧
            ((∃ field text, (p.vid.text, field, text) ∈
                fieldsOf (after.poll.run (.unchanging driver) later).events) ↔
              status ≠ none) := by
  refine ⟨fun p kind mode publish driver hone => p.tried_eq_handedOn_iff hone kind mode publish
    driver, ?_⟩
  intro g command driver answers past later hreachable hdistinct hnone hanswers after p hp hbulk
    status
  have hempty : g.settings.prefixes.isEmpty = true := by
    rw [hnone]
    rfl
  have hcovers := (g.decideOn_always command).value (.unchanging driver) []
  change Decision.Covers ((g.decideOn command).valueWith driver) _ _ at hcovers
  obtain ⟨hids, hpasses⟩ := (bulk_iff_passesTrial hanswers hempty command p hp).mp hbulk
  have hobjects : command.objects ≠ [] := by
    obtain ⟨-, rid, hmem, -⟩ := hcovers.placed hp
    exact List.ne_nil_of_mem hmem
  have hafter : after = g.carryOut ((g.decideOn command).valueWith driver) := by
    rw [← g.conclude_of_objects hobjects]
    change ((g.perform command).run (.unchanging driver) past).value = _
    rw [value_perform, Dialogue.run_unchanging]
    rfl
  have hsettings : after.settings = g.settings := by rw [hafter, settings_carryOut]
  have hsound : after.Sound := by
    rw [hafter]
    exact hreachable.sound.carryOut hcovers hdistinct.objects_nodup
  have hrow := hreachable.sound.mem_rowsAt_of_placed hempty hcovers hdistinct.objects_nodup hp hbulk
  rw [← hafter] at hrow
  have hstatus : status = none ∨ status = some .success := by
    cases hcase : status with
    | none => exact .inl rfl
    | some written =>
      right
      change status.getD .success = .success at hpasses
      rwa [hcase, Option.getD_some, ← Option.some_inj] at hpasses
  refine ⟨PartitionTable.holds_iff.mpr ⟨_, _, hrow, rfl⟩, hstatus, ?_⟩
  have hwrites := hsound.writes_iff (hsettings ▸ hempty) (by rwa [kind, hsettings]) hrow later
  rw [hsettings, and_iff_right hids] at hwrites
  refine hwrites.trans ⟨fun hsuccess hleft => ?_, hstatus.resolve_left⟩
  exact absurd (hleft.symm.trans hsuccess) (Option.some_ne_none _).symm

/-- The driver that fails one row answers row by row. -/
theorem describes_rowFails (failing : RowKey) (kind : ObjectKind) :
    RowAnswers.Describes ⟨fun _ _ => False,
      fun _ _ key => some (if key = failing then .failure else .success)⟩
      (rowFails failing) kind where
  fails_iff keys ids mode := iff_of_false (fun ⟨_, herror⟩ => nomatch herror) id
  status_eq := by
    rintro keys ids mode _ i key ⟨⟩ hkey
    simp only [hkey, Option.some_inj]

/-- Of two ports that are tried together one passes: it is read in bulk, and the next pass writes
fields of it. -/
theorem trial_and_pass_agree_iff_two_ports :
    let settings := GroupSettings.initial
      (GroupSpec.stats "Port Counter" .portStat "PORT_COUNTER_ID_LIST" none) "PORTS"
    let driver := rowFails (.object 0x102)
    let command : GroupCommand :=
      .addMany [1, 2] [0x101, 0x102] ["SAI_PORT_STAT_IF_IN_OCTETS"] none
    let g : StatsGroup .portStat := initial settings
    let after := ((g.perform command).run (.unchanging driver) []).value
    (∀ p ∈ after.partitions.values,
      p.tried g.kind .read driver = p.handedOn g.kind .read (fun _ => pure ()) driver) ∧
    (∃ p ∈ ((g.decideOn command).valueWith driver).placements, p.vid = 1 ∧ p.bulk = true) ∧
    ∃ field text, (ObjectId.text 1, field, text) ∈
      fieldsOf (after.poll.run (.unchanging driver) []).events := by
  intro settings driver command g after
  have hplaced : ∃ p ∈ ((g.decideOn command).valueWith driver).placements,
      p.vid = 1 ∧ p.bulk = true := by
    decide +kernel
  have hsizes : ∀ p ∈ after.partitions.values, p.chunkSize = 0 := by decide +kernel
  obtain ⟨hverdicts, hfields⟩ := @trial_and_pass_agree_iff .portStat
  refine ⟨fun p hp => ?_, hplaced, ?_⟩
  · refine (hverdicts p g.kind .read _ driver (.inl (hsizes p hp))).mpr ?_
    rintro _ ⟨⟩ i -
    exact Option.some_ne_none _
  · obtain ⟨p, hp, hvid, hbulk⟩ := hplaced
    obtain ⟨-, -, hwrites⟩ := hfields g command driver _ [] [] (.initial _) (by decide) rfl
      (describes_rowFails _ _) p hp hbulk
    rw [← hvid]
    exact hwrites.mpr (Option.some_ne_none _)

/-- A driver that answers every bulk read and writes nothing. -/
def silent : Driver
  | .read _ _ ids => .ok (ids.map fun _ => 0)
  | .clear .. => .ok ()
  | .bulkRead .. => .ok ⟨fun _ => none, fun _ => none⟩
  | .capabilities .. => .error (.status .failure)
  | .attributes _ _ ids => .ok (ids.map fun _ => "")
  | .switchOf object => object

/-- A port whose row the driver leaves alone passes its trial and is read in bulk, and no pass hands
its row on. -/
theorem silent_port_is_never_read :
    let settings := GroupSettings.initial
      (GroupSpec.stats "Port Counter" .portStat "PORT_COUNTER_ID_LIST" none) "PORTS"
    let added := (initial settings : StatsGroup .portStat).perform
      (.add 1 0x101 ["SAI_PORT_STAT_IF_IN_OCTETS"] none)
    let g := (added.run (.unchanging silent) []).value
    g.partitions.values.map (fun p => (p.tried g.kind .read silent,
      p.handedOn g.kind .read (fun _ => pure ()) silent)) = [([objectRow 1 0x101], [])] ∧
    fieldsOf (g.poll.run (.unchanging silent) []).events = [] := by
  decide +kernel

end StatsGroup

end CounterPolling
