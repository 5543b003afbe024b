import CounterPolling.Proofs.Dialogue.Transcript
import CounterPolling.Proofs.Group.Changes
import CounterPolling.Proofs.Group.Reading

/-!
# Registering an object again

A registration that finds counters to read takes the place of the earlier one: from then on the
object is read under the new driver's id for exactly these counters, or not at all. One that finds
none gives up before it drops anything, and leaves the object as it was read before. Main
statement: `Group.registration_replaces_iff`.
-/

namespace CounterPolling

/-- The driver's id that a row is read under. -/
def RowKey.rid : RowKey → ObjectId
  | .object rid => rid
  | .bucket _ eni _ => eni

namespace StatsGroup

variable {family : CounterFamily} {g : StatsGroup family} {vid rid : ObjectId}

/-- The counters asked for that the group has found supported. -/
def offered (g : StatsGroup family) (names : List String) : List (CounterId family) :=
  g.discovery.select (family.requested names)

/-- A decision on one object goes by the counters that are found supported. -/
theorem decideAdd_supported (g : StatsGroup family) (vid rid : ObjectId) (names : List String)
    (asked : Option ReadMode) :
    (g.decideAdd vid rid names asked).Always fun decision =>
      decision.supported = decision.discovery.select (family.requested names) := by
  unfold decideAdd
  simp only [discover_eq, Dialogue.always_bind, Dialogue.always_pure]
  refine (readRequested_always family names).mono ?_
  rintro _ rfl
  refine Dialogue.always_of_forall (fun discovery => ?_) _
  split
  · next hnone => exact (List.isEmpty_iff.mp hnone).symm
  · exact Dialogue.always_bind_of_forall fun _ => rfl

/-- After a decision on one object, what is registered for it are the supported counters, under the
driver's id that it came with. -/
theorem registers_carryOut (h : g.Exclusive) {decision : Decision family} {own : Option ReadMode}
    (hcovers : decision.Covers own [(vid, rid)]) (hsupported : decision.supported ≠ [])
    {row : Row} (hvid : row.vid = vid) {id : CounterId family} :
    (g.carryOut decision).Registers row id ↔
      row.key = .object rid ∧ id ∈ decision.supported := by
  obtain ⟨⟨placed, registration, bulk⟩, hplacements, hentry⟩ :=
    List.map_eq_singleton_iff.mp (hcovers.entries_eq hsupported)
  cases hentry
  have hrow : row = objectRow vid rid ↔ row.key = .object rid := by
    rw [objectRow, ← hvid]
    exact ⟨fun heq => congrArg Row.key heq, fun hkey => congrArg (Row.mk row.vid) hkey⟩
  rw [Registers, singles_carryOut, hplacements]
  simp only [reads_carryOut h hcovers, hplacements, Placement.Adds, hvid]
  cases bulk with
  | true => simp [hrow]
  | false => simp

end StatsGroup

namespace MeterGroup

variable {g : MeterGroup} {switch vid rid : ObjectId} {ids : List BucketCounter}

/-- The rows of an interface that stands in one place are read for the counters of that place,
under the driver's id of the interface. -/
theorem StandsIn.of_mem (h : g.StandsIn switch vid rid ids) (honly : g.OnlyIn vid ids)
    (hsound : g.Sound) {row : Row} (hvid : row.vid = vid)
    {ids' : List BucketCounter} {p : Partition .meterBucketStat}
    (hp : g.partitions.get? ids' = some p) (hrow : row ∈ p.rows) :
    p.ids = ids ∧ row.key.rid = rid := by
  obtain rfl := honly ids' p hp (Partition.holds_iff_mem.mpr ⟨row, hrow, hvid⟩)
  obtain ⟨q, count, hq, -, -, hblock⟩ := h
  obtain rfl := Option.some.inj (hp.symm.trans hq)
  refine ⟨(hsound.filed ids' p hp).2.1, ?_⟩
  have hmem : row ∈ p.rowsOf vid := List.mem_filter.mpr ⟨hrow, beq_iff_eq.mpr hvid⟩
  rw [hblock.rowsOf_eq fun _ => vid_of_mem_bucketRows] at hmem
  simp only [bucketRows, eniBuckets, List.map_map, List.mem_map] at hmem
  obtain ⟨meterClass, -, rfl⟩ := hmem
  rfl

end MeterGroup

namespace Group

variable {group after : Group} {vid rid : ObjectId}

/-- An object is read, under one driver's id only, and for exactly some counters. -/
structure ReadAs (group : Group) (vid rid : ObjectId) (counters : List Int) : Prop where
  exists_row : ∃ row raw, row.vid = vid ∧ group.Reads row raw
  rows : ∀ row raw, row.vid = vid → group.Reads row raw →
    row.key.rid = rid ∧ ∀ raw', group.Reads row raw' ↔ raw' ∈ counters

/-- What counts is which counters are read for which rows. -/
theorem ReadAs.of_reads {counters : List Int} (h : group.ReadAs vid rid counters)
    (hreads : ∀ row raw, after.Reads row raw ↔ group.Reads row raw) :
    after.ReadAs vid rid counters where
  exists_row := by
    obtain ⟨row, raw, hvid, hread⟩ := h.exists_row
    exact ⟨row, raw, hvid, (hreads row raw).mpr hread⟩
  rows row raw hvid hread := by
    obtain ⟨hrid, hcounters⟩ := h.rows row raw hvid ((hreads row raw).mp hread)
    exact ⟨hrid, fun raw' => (hreads row raw').trans (hcounters raw')⟩

theorem ReadAs.counters_ne_nil {counters : List Int} (h : group.ReadAs vid rid counters) :
    counters ≠ [] := by
  obtain ⟨row, raw, hvid, hread⟩ := h.exists_row
  obtain ⟨-, hcounters⟩ := h.rows row raw hvid hread
  exact List.ne_nil_of_mem ((hcounters raw).mp hread)

/-- The counters asked for that may be read: those known and, where a group finds out, those that
it has found supported. -/
def offered (group : Group) (names : List String) : List Int :=
  match group with
  | stats _ g => CounterId.raws (g.offered names)
  | attributes family _ => CounterId.raws (AttributeGroup.offered family names)
  | meterBuckets g => CounterId.raws (g.offered names)

/-- The number of rows of an object of a switch: one for each bucket, where buckets are read. -/
def rowsUnder (group : Group) (home : ObjectId) : Nat :=
  match group with
  | meterBuckets g => (g.countsBySwitch.get? home).getD 0
  | _ => 1

/-- A registration of an object of a switch finds something to read: rows, and counters. -/
def Finds (group : Group) (home : ObjectId) (names : List String) : Prop :=
  0 < group.rowsUnder home ∧ group.offered names ≠ []

instance (group : Group) (home : ObjectId) (names : List String) :
    Decidable (group.Finds home names) := by
  unfold Finds
  infer_instance

/-- In a group of meter buckets a registration finds what it finds there. -/
theorem finds_meterBuckets {g : MeterGroup} {home : ObjectId} {names : List String} :
    (meterBuckets g).Finds home names ↔ g.Finds home names := by
  unfold Finds MeterGroup.Finds offered CounterId.raws
  rw [Ne, List.map_eq_nil_iff]
  rfl

section Registrations

/-- What a registration does is told by what is known once it is over. If it finds nothing to read,
everything stays. If it finds something, the object is read anew for just that, or not at all. -/
inductive Settles (group : Group) (home vid rid : ObjectId) (names : List String)
    (after : Group) : Prop
  | stays : ¬ after.Finds home names → after.vids = group.vids →
    (∀ row raw, after.Reads row raw ↔ group.Reads row raw) → Settles group home vid rid names after
  | goes : after.Finds home names → vid ∉ after.vids → Settles group home vid rid names after
  | renewed : after.Finds home names → after.ReadAs vid rid (after.offered names) →
    Settles group home vid rid names after

/-- A registration settles in a group of counters what was found supported. -/
theorem stats_add_settles {family : CounterFamily} {g : StatsGroup family} (h : g.Exclusive)
    (home vid rid : ObjectId) (names : List String) (asked : Option ReadMode) :
    (g.add vid rid names asked).Always fun after =>
      (stats family g).Settles home vid rid names (stats family after) := by
  rw [StatsGroup.add_eq, Dialogue.always_bind]
  refine ((g.decideAdd_always vid rid names asked).and
    (g.decideAdd_supported vid rid names asked)).mono ?_
  rintro decision ⟨hcovers, hsupported⟩
  rw [Dialogue.always_pure]
  have hoffered : (g.carryOut decision).offered names = decision.supported := by
    rw [hsupported, StatsGroup.offered, StatsGroup.discovery_carryOut]
  by_cases hnone : decision.supported = []
  · have hafter : g.carryOut decision = { g with discovery := decision.discovery } := by
      rw [StatsGroup.carryOut, hcovers.placements_eq_nil hnone]
      rfl
    refine .stays (fun hfinds => hfinds.2 ?_) ?_ fun row raw => ?_
    · rw [offered, hoffered, hnone]
      rfl
    · rw [hafter]
      rfl
    · rw [hafter]
      rfl
  · have hreads : ∀ {row raw}, row.vid = vid → ((stats family (g.carryOut decision)).Reads row raw ↔
        row.key = .object rid ∧ raw ∈ CounterId.raws decision.supported) := by
      intro row raw hvid
      rw [CounterId.raws, List.mem_map]
      simp only [Reads, StatsGroup.registers_carryOut h hcovers hnone hvid, and_assoc,
        exists_and_left]
    obtain ⟨id, hid⟩ := List.exists_mem_of_ne_nil _ hnone
    refine .renewed ⟨Nat.one_pos, ?_⟩
      ⟨⟨objectRow vid rid, id.raw, rfl, ?_⟩, fun row raw hvid hread => ?_⟩
    · change CounterId.raws _ ≠ []
      rw [hoffered]
      exact List.ne_nil_of_mem (List.mem_map_of_mem hid)
    · exact (hreads rfl).mpr ⟨rfl, List.mem_map_of_mem hid⟩
    · obtain ⟨hkey, -⟩ := (hreads hvid).mp hread
      refine ⟨congrArg RowKey.rid hkey, fun raw' => ?_⟩
      rw [hreads hvid, and_iff_right hkey, offered, hoffered]

theorem attributes_add_settles {family : CounterFamily} (g : AttributeGroup family)
    (home vid rid : ObjectId) (names : List String) :
    (g.add vid rid names).Always fun after =>
      (attributes family g).Settles home vid rid names (attributes family after) := by
  refine (g.add_always vid rid names).mono ?_
  rintro after (⟨hnone, rfl⟩ | ⟨hsome, rfl⟩)
  · refine .stays (fun hfinds => hfinds.2 ?_) rfl fun _ _ => Iff.rfl
    rw [offered, hnone]
    rfl
  · obtain ⟨id, hid⟩ := List.exists_mem_of_ne_nil _ hsome
    have hget := SortedMap.get?_insert_self g.objects vid
      ⟨rid, AttributeGroup.offered family names⟩
    refine .renewed ⟨Nat.one_pos, List.ne_nil_of_mem (List.mem_map_of_mem hid)⟩
      ⟨⟨objectRow vid rid, id.raw, rfl, _, hget, rfl, List.mem_map_of_mem hid⟩, ?_⟩
    rintro row raw rfl ⟨list, hlist, hkey, -⟩
    obtain rfl := Option.some.inj (hget.symm.trans hlist)
    refine ⟨congrArg RowKey.rid hkey, fun raw' => ⟨?_, fun hmem => ⟨_, hget, hkey, hmem⟩⟩⟩
    rintro ⟨list', hlist', -, hmem⟩
    obtain rfl := Option.some.inj (hget.symm.trans hlist')
    exact hmem

theorem meterBuckets_add_settles {g : MeterGroup} (h : g.Sound) {home vid rid : ObjectId}
    {names : List String} {after : MeterGroup} (hsettles : g.Settles home vid rid names after) :
    (meterBuckets g).Settles home vid rid names (meterBuckets after) := by
  cases hsettles with
  | stays hkept hnone =>
    refine .stays (finds_meterBuckets.not.mpr hnone) ?_ fun row raw => ?_
    · rw [vids, MeterGroup.vids, hkept.interfaces_eq]
      rfl
    · rw [Reads, hkept.partitions_eq]
      rfl
  | goes hdropped hfinds =>
    refine .goes (finds_meterBuckets.mpr hfinds) fun hvid => ?_
    rw [vids, MeterGroup.vids, hdropped.interfaces_eq] at hvid
    exact (MeterGroup.mem_vids_untrack.mp hvid).1 rfl
  | @renewed known count hdropped hcount hpos hoffered =>
    have habsent : known.interfaces.get? vid = none := by
      rw [hdropped.interfaces_eq]
      exact g.get?_untrack_self vid
    have hknown := hdropped.sound (h.untrack vid)
    obtain ⟨hstands, honly⟩ := hknown.put_self habsent hcount hpos rid (known.offered names)
    have hafter : (known.put vid rid (known.offered names) (eniBuckets home rid count)).Sound :=
      hknown.put habsent hoffered (CounterId.ascending_toList _) hcount hpos
    have htracked : vid ∈ (known.put vid rid (known.offered names)
        (eniBuckets home rid count)).vids := by
      rw [MeterGroup.vids, ← SortedMap.contains_iff, SortedMap.contains_iff_get?]
      exact ⟨rid, known.interfaces_put_self vid rid _ _⟩
    refine .renewed (finds_meterBuckets.mpr ⟨?_, hoffered⟩) ⟨?_, ?_⟩
    · change 0 < (known.countsBySwitch.get? home).getD 0
      rwa [hcount]
    · refine (Sound.mem_vids_iff ?_).mp htracked
      exact hafter
    · rintro row raw hvid ⟨ids, p, hp, hrow, -⟩
      obtain ⟨hids, hrid⟩ := hstands.of_mem honly hafter hvid hp hrow
      refine ⟨hrid, fun raw' => ⟨?_, fun hmem => ⟨ids, p, hp, hrow, hids ▸ hmem⟩⟩⟩
      rintro ⟨ids', p', hp', hrow', hmem⟩
      obtain ⟨hids', -⟩ := hstands.of_mem honly hafter hvid hp' hrow'
      rwa [hids'] at hmem

/-- A registration in a sound group of any kind settles what it finds. -/
theorem Sound.add_settles (h : group.Sound) (vid rid : ObjectId) (names : List String)
    (asked : Option ReadMode) (switch : Switch) (past : List Event) :
    group.Settles (switch past (.switchOf rid)) vid rid names
      ((group.add vid rid names asked).run switch past).value := by
  cases group with
  | stats family g =>
    rw [Group.add, Dialogue.value_run_map]
    exact (stats_add_settles (StatsGroup.Sound.exclusive h) _ vid rid names asked).value switch past
  | attributes family g =>
    rw [Group.add, Dialogue.value_run_map]
    exact (attributes_add_settles g _ vid rid names).value switch past
  | meterBuckets g =>
    rw [Group.add, Dialogue.value_run_map, MeterGroup.add_eq, Dialogue.value_run_bind,
      Dialogue.run_question]
    exact meterBuckets_add_settles h ((g.addOn_settles _ vid rid names).value switch _)

end Registrations

/-- After any commands that register no object twice, with any answers of the driver, the objects
that a group tracks are those that it reads. A registration that comes next leaves its object
untracked, or read under the new driver's id for exactly the counters asked for that are supported
then, if and only if it finds any such counters (and buckets, where they are what is read), or the
object was in this state before. One that finds none leaves everything as it was read before. -/
theorem registration_replaces_iff (h : group.Reachable) (vid rid : ObjectId) (names : List String)
    (asked : Option ReadMode) (switch : Switch) (past : List Event) :
    let after := ((group.add vid rid names asked).run switch past).value
    let home := switch past (.switchOf rid)
    (∀ other, other ∈ after.vids ↔ ∃ row raw, row.vid = other ∧ after.Reads row raw) ∧
    (vid ∉ after.vids ∨ after.ReadAs vid rid (after.offered names) ↔
      after.Finds home names ∨ vid ∉ group.vids ∨ group.ReadAs vid rid (after.offered names)) ∧
    (¬ after.Finds home names →
      after.vids = group.vids ∧ ∀ row raw, after.Reads row raw ↔ group.Reads row raw) := by
  intro after home
  have hafter : after.Sound := (h.sound.add vid rid names asked).value switch past
  refine ⟨fun other => hafter.mem_vids_iff, ?_⟩
  cases h.sound.add_settles vid rid names asked switch past with
  | stays hnone hvids hreads =>
    have hsame : after.ReadAs vid rid (after.offered names) ↔
        group.ReadAs vid rid (after.offered names) :=
      ⟨fun h => h.of_reads fun row raw => (hreads row raw).symm, fun h => h.of_reads hreads⟩
    refine ⟨?_, fun _ => ⟨hvids, hreads⟩⟩
    rw [or_iff_right hnone, ← hvids, ← hsame]
  | goes hfinds hvid =>
    exact ⟨iff_of_true (.inl hvid) (.inl hfinds), fun hnone => absurd hfinds hnone⟩
  | renewed hfinds hread =>
    exact ⟨iff_of_true (.inr hread) (.inl hfinds), fun hnone => absurd hfinds hnone⟩

/-- A driver that reads everything as zero but one counter, which it cannot read. -/
def lacks (counter : Int) : Driver
  | .read _ _ ids => if counter ∈ ids then .error (.status .failure) else .ok (ids.map fun _ => 0)
  | request => StatsGroup.rowFails (.object 0) request

/-- A port that is registered again, under another id and with other counters, is read under the
new id for the one of them that can be read. -/
theorem registration_replaces_iff_two_ids :
    let spec := GroupSpec.stats "Port Counter" .portStat "PORT_COUNTER_ID_LIST" none
    let names := ["SAI_PORT_STAT_IF_OUT_OCTETS", "SAI_PORT_STAT_IF_IN_UCAST_PKTS"]
    let switch : Switch := .unchanging (lacks 9)
    let start := initial (GroupSettings.initial spec "PORTS")
    let group := ((start.perform (.add 1 0x101 ["SAI_PORT_STAT_IF_IN_OCTETS"] none)).run switch
      []).value
    let after := ((group.add 1 0x102 names none).run switch []).value
    group.vids = [1] ∧ after.Finds (switch [] (.switchOf 0x102)) names ∧
      after.ReadAs 1 0x102 [1] := by
  intro spec names switch start group after
  have hreached : group.Reachable := .perform _ switch [] (.initial _) trivial
  have hvids : group.vids = [1] := by decide +kernel
  have hfinds : after.Finds (switch [] (.switchOf 0x102)) names := by decide +kernel
  have hoffered : after.offered names = [1] := by decide +kernel
  have htracked : 1 ∈ after.vids := by decide +kernel
  obtain ⟨-, hreplaced, -⟩ := registration_replaces_iff hreached 1 0x102 names none switch []
  refine ⟨hvids, hfinds, ?_⟩
  rw [← hoffered]
  exact (hreplaced.mpr (.inl hfinds)).resolve_left (not_not_intro htracked)

/-- A port that is registered again, with a counter that cannot be read, is still tracked, and
read under the id and for the counter that it came with at first. -/
theorem port_read_under_its_old_id :
    let spec := GroupSpec.stats "Port Counter" .portStat "PORT_COUNTER_ID_LIST" none
    let names := ["SAI_PORT_STAT_IF_OUT_OCTETS"]
    let switch : Switch := .unchanging (lacks 9)
    let start := initial (GroupSettings.initial spec "PORTS")
    let group := ((start.perform (.add 1 0x101 ["SAI_PORT_STAT_IF_IN_OCTETS"] none)).run switch
      []).value
    let after := ((group.add 1 0x102 names none).run switch []).value
    ¬ (1 ∉ after.vids ∨ after.ReadAs 1 0x102 (after.offered names)) ∧
      (readsOf (after.poll.run switch []).events).map Event.request? =
        [some (.bulkRead .port [.object 0x101] [0] .read)] := by
  intro spec names switch start group after
  have htracked : 1 ∈ after.vids := by decide +kernel
  have hnone : after.offered names = [] := by decide +kernel
  refine ⟨?_, by decide +kernel⟩
  rintro (huntracked | hread)
  · exact huntracked htracked
  · exact hread.counters_ne_nil hnone

end Group

end CounterPolling
