import CounterPolling.Proofs.Group.Batches
import CounterPolling.Proofs.Group.Independence

/-!
# Registering an object twice

A registration that is repeated finds out what it found out before, drops what it made, and makes
it again. With a driver that never changes nothing comes of it: the partitions that go with the
object come back with it, and the object is again behind the others in each of them. Main
statement: `Group.add_twice`.
-/

namespace CounterPolling

variable {driver : Driver} {vid rid : ObjectId}

namespace StatsGroup

variable {family : CounterFamily} {g : StatsGroup family}

/-- An object that was not tracked may be tracked and dropped. -/
theorem Sound.untrack_put (h : g.Sound) (habsent : vid ∉ g.vids) (bulk : Bool)
    (registration : Registration family) : (g.put bulk vid registration).untrack vid = g := by
  have hsingle : g.singles.contains vid = false := by
    rw [Bool.eq_false_iff]
    exact fun hsingle => habsent (mem_vids.mpr (.inl hsingle))
  cases bulk with
  | false =>
    have hput : (g.singles.insert vid registration).contains vid = true :=
      SortedMap.contains_insert.mpr (.inl rfl)
    change (g.putSingle vid registration).untrack vid = g
    rw [putSingle, StatsGroup.untrack, if_pos hput]
    dsimp only
    rw [SortedMap.erase_insert hsingle]
  | true =>
    have hrow : ∀ row ∈ [objectRow vid registration.rid], row.vid ∈ [vid] := by
      intro row hrow
      rw [List.mem_singleton.mp hrow]
      exact List.mem_cons_self
    have hothers : ∀ other ∈ [vid], other ∉ g.vids := by
      intro other hother
      rwa [List.mem_singleton.mp hother]
    change (g.putBulk vid registration).untrack vid = g
    rw [putBulk, StatsGroup.untrack, if_neg (Bool.eq_false_iff.mp hsingle)]
    dsimp only
    rw [PartitionTable.remove, ← SortedMap.apartFrom_singleton,
      PartitionTable.apartFrom_addShares hrow, h.partitions_apartFrom hothers]

/-- Tracking an object anew twice is tracking it anew once. -/
theorem Sound.renew_renew (h : g.Sound) (p : Placement family) :
    (g.renew p).renew p = g.renew p := by
  have habsent : p.vid ∉ (g.untrack p.vid).vids := by
    rw [mem_vids, contains_untrack, holds_untrack h.exclusive]
    exact fun hmem => hmem.elim (fun hsingle => hsingle.1 rfl) fun hbulk => hbulk.1 rfl
  calc
    (g.renew p).renew p =
        (((g.untrack p.vid).put p.bulk p.vid p.registration).untrack p.vid).put p.bulk p.vid
          p.registration := rfl
    _ = g.renew p := by
      rw [(h.untrack p.vid).untrack_put habsent]
      rfl

/-- What registering an object comes to: it is tracked anew, unless no counter that it asks for is
supported. -/
theorem valueWith_add (g : StatsGroup family) (driver : Driver) (vid rid : ObjectId)
    (names : List String) (asked : Option ReadMode) :
    let known := g.learnt driver rid (g.settings.modeFor asked) names
    (g.add vid rid names asked).valueWith driver =
      (g.placements driver (known.select (family.requested names)) (g.settings.objectMode asked)
        [(vid, rid)]).foldl renew { g with discovery := known } := by
  intro known
  have hdecision : (g.decideAdd vid rid names asked).valueWith driver =
      ⟨known, known.select (family.requested names),
        g.placements driver (known.select (family.requested names))
          (g.settings.objectMode asked) [(vid, rid)]⟩ := by
    simp only [decideAdd, Dialogue.valueWith_bind, valueWith_discover,
      GroupSettings.modeFor_objectMode, List.isEmpty_iff]
    unfold placements
    split
    · next hnone =>
      rw [Dialogue.valueWith_bind, Dialogue.valueWith_pure]
      exact congrArg (Decision.mk known · []) hnone.symm
    · rw [Dialogue.valueWith_bind, Dialogue.valueWith_pure]
      rfl
  rw [add_eq, Dialogue.valueWith_bind, Dialogue.valueWith_pure, hdecision, carryOut_single]

theorem Sound.add_add (h : g.Sound) (driver : Driver) (vid rid : ObjectId) (names : List String)
    (asked : Option ReadMode) :
    let once := (g.add vid rid names asked).valueWith driver
    (once.add vid rid names asked).valueWith driver = once := by
  intro once
  let known := g.learnt driver rid (g.settings.modeFor asked) names
  have honce : once = _ := g.valueWith_add driver vid rid names asked
  have hsettings : once.settings = g.settings := by
    rw [honce]
    exact foldl_keeps StatsGroup.settings settings_renew _ _
  have hdiscovery : once.discovery = known := by
    rw [honce]
    exact foldl_keeps StatsGroup.discovery discovery_renew _ _
  have hlearnt : once.learnt driver rid (g.settings.modeFor asked) names = known :=
    g.learnt_idem rid _ names hsettings hdiscovery
  have hsame : ({ once with discovery := known } : StatsGroup family) = once := by
    rw [← hdiscovery]
  have htwice := once.valueWith_add driver vid rid names asked
  dsimp only at htwice
  rw [hsettings, hlearnt, placements_congr hsettings, ← hsettings, hsame] at htwice
  rw [htwice, hsettings]
  have hknown : ({ g with discovery := known } : StatsGroup family).Sound :=
    ⟨h.exclusive, h.table, h.singles⟩
  -- the placements are none, or that of the object
  rw [honce]
  unfold placements
  split
  · rfl
  · exact hknown.renew_renew _

end StatsGroup

namespace MeterGroup

variable {g : MeterGroup} {switch : ObjectId}

/-- An interface that was not tracked may be tracked and dropped. -/
theorem Sound.untrack_put (h : g.Sound) (habsent : g.interfaces.get? vid = none)
    (rid : ObjectId) (ids : List BucketCounter) (keys : List RowKey) :
    (g.put vid rid ids keys).untrack vid = g := by
  have hcontains := SortedMap.contains_eq_false_iff.mpr habsent
  have hput : (g.put vid rid ids keys).interfaces.contains vid = true :=
    SortedMap.contains_insert.mpr (.inl rfl)
  have hinterfaces : (g.put vid rid ids keys).interfaces.erase vid = g.interfaces :=
    SortedMap.erase_insert hcontains rid
  have hpartitions : (g.put vid rid ids keys).partitions.apartFrom [vid] =
      g.partitions.apartFrom [vid] := by
    refine SortedMap.apartFrom_addRows rfl fun row hrow => ?_
    obtain ⟨key, -, rfl⟩ := List.mem_map.mp hrow
    exact List.mem_cons_self
  have hothers : ∀ other ∈ [vid], other ∉ g.vids := by
    intro other hother hmem
    rw [List.mem_singleton.mp hother, vids, ← SortedMap.contains_iff, hcontains] at hmem
    exact Bool.false_ne_true hmem
  rw [MeterGroup.untrack, if_pos hput, hinterfaces, ← SortedMap.apartFrom_singleton, hpartitions,
    h.partitions_apartFrom hothers]
  rfl

theorem untrack_of_absent (h : g.interfaces.get? vid = none) : g.untrack vid = g := by
  have hcontains := Bool.eq_false_iff.mp (SortedMap.contains_eq_false_iff.mpr h)
  rw [untrack, if_neg hcontains]

/-- The number of buckets that a switch answers with. -/
def bucketCount? (driver : Driver) (switch : ObjectId) : Option Nat :=
  (driver (.attributes .switch switch bucketCountIds)).toOption.bind fun values =>
    values.head?.bind Text.word?

/-- What asking for the number of buckets comes to. -/
theorem valueWith_askBucketCount (g : MeterGroup) (driver : Driver) (switch : ObjectId) :
    (g.askBucketCount switch).valueWith driver =
      match g.countsBySwitch.get? switch with
      | some count => (g, some count)
      | none =>
        match bucketCount? driver switch with
        | none => (g, none)
        | some count =>
          ({ g with countsBySwitch := g.countsBySwitch.insert switch count }, some count) := by
  unfold askBucketCount bucketCount?
  cases g.countsBySwitch.get? switch with
  | some count => rfl
  | none =>
    dsimp only
    rw [Dialogue.valueWith_bind, Dialogue.valueWith_question]
    cases driver (.attributes .switch switch bucketCountIds) with
    | error error => rfl
    | ok values =>
      dsimp only [Except.toOption, Option.bind_some]
      cases values.head?.bind Text.word? with
      | none => rfl
      | some count => rfl

/-- What is known of the number of buckets is not asked for again, and what cannot be known is
asked for in vain again. -/
theorem valueWith_askBucketCount_again {after : MeterGroup}
    (h : after.countsBySwitch =
      ((g.askBucketCount switch).valueWith driver).1.countsBySwitch) :
    (after.askBucketCount switch).valueWith driver =
      (after, ((g.askBucketCount switch).valueWith driver).2) := by
  rw [valueWith_askBucketCount] at h ⊢
  rw [valueWith_askBucketCount]
  cases hknown : g.countsBySwitch.get? switch with
  | some count =>
    rw [hknown] at h
    rw [h, hknown]
  | none =>
    rw [hknown] at h
    cases hanswer : bucketCount? driver switch with
    | none =>
      rw [hanswer] at h
      rw [h, hknown]
    | some count =>
      rw [hanswer] at h
      rw [h, SortedMap.get?_insert_self]

/-- What a group knows after it found out about some counters with an interface as the example. -/
def learnt (g : MeterGroup) (driver : Driver) (switch rid : ObjectId) (names : List String) :
    Discovery .meterBucketStat :=
  g.discovery.refreshed g.settings.spec g.settings.mode
    (driver.capabilityList? CounterFamily.meterBucketStat.kind rid)
    (fun id => (g.attempt switch rid id).valueWith driver)
    (CounterFamily.requested .meterBucketStat names)

/-- What placing an interface comes to. -/
theorem valueWith_place (g : MeterGroup) (driver : Driver) (switch vid rid : ObjectId)
    (ids : List BucketCounter) (count : Nat) :
    (g.place switch vid rid ids count).valueWith driver =
      if trialPasses ((tryBulkRead .meterBucket (eniBuckets switch rid count)
        (CounterId.raws ids) g.settings.mode).valueWith driver) then
        g.put vid rid ids (eniBuckets switch rid count)
      else g := by
  unfold place
  rw [Dialogue.valueWith_bind]
  cases (tryBulkRead .meterBucket (eniBuckets switch rid count) (CounterId.raws ids)
    g.settings.mode).valueWith driver with
  | error error => rfl
  | ok statuses =>
    have htrial : trialPasses (.ok statuses) = statuses.all Status.isSuccess := rfl
    rw [htrial]
    dsimp only
    by_cases hall : statuses.all Status.isSuccess = true
    · rw [if_pos hall, if_pos hall]
      rfl
    · rw [if_neg hall, if_neg hall]
      rfl

/-- What registering an interface that has buckets comes to. -/
theorem valueWith_addWithBuckets (g : MeterGroup) (driver : Driver) (switch vid rid : ObjectId)
    (names : List String) (count : Nat) :
    let known := { g with discovery := g.learnt driver switch rid names }
    (g.addWithBuckets switch vid rid names count).valueWith driver =
      if known.offered names = [] then known
      else ((known.untrack vid).place switch vid rid (known.offered names) count).valueWith
        driver := by
  have hrequested : (readRequested .meterBucketStat names).valueWith driver =
      CounterFamily.requested .meterBucketStat names :=
    (readRequested_always _ names).value (.unchanging driver) []
  intro known
  unfold addWithBuckets
  simp only [Dialogue.valueWith_bind, hrequested, Discovery.valueWith_refresh, List.isEmpty_iff]
  change (if known.offered names = [] then _ else _ : Dialogue MeterGroup).valueWith driver = _
  split
  · rfl
  · rfl

/-- A placement that is undone leaves what was there before it. -/
theorem Sound.untrack_place (h : g.Sound) (habsent : g.interfaces.get? vid = none)
    (driver : Driver) (switch rid : ObjectId) (ids : List BucketCounter) (count : Nat) :
    ((g.place switch vid rid ids count).valueWith driver).untrack vid = g := by
  rw [valueWith_place]
  split
  · exact h.untrack_put habsent rid ids _
  · exact untrack_of_absent habsent

theorem settings_place (g : MeterGroup) (driver : Driver) (switch vid rid : ObjectId)
    (ids : List BucketCounter) (count : Nat) :
    ((g.place switch vid rid ids count).valueWith driver).settings = g.settings := by
  rw [valueWith_place]
  split <;> rfl

theorem discovery_place (g : MeterGroup) (driver : Driver) (switch vid rid : ObjectId)
    (ids : List BucketCounter) (count : Nat) :
    ((g.place switch vid rid ids count).valueWith driver).discovery = g.discovery := by
  rw [valueWith_place]
  split <;> rfl

theorem countsBySwitch_place (g : MeterGroup) (driver : Driver) (switch vid rid : ObjectId)
    (ids : List BucketCounter) (count : Nat) :
    ((g.place switch vid rid ids count).valueWith driver).countsBySwitch = g.countsBySwitch := by
  rw [valueWith_place]
  split <;> rfl

theorem Sound.addWithBuckets_again (h : g.Sound) (driver : Driver) (switch vid rid : ObjectId)
    (names : List String) (count : Nat) :
    let once := (g.addWithBuckets switch vid rid names count).valueWith driver
    once.countsBySwitch = g.countsBySwitch ∧
      (once.addWithBuckets switch vid rid names count).valueWith driver = once := by
  intro once
  let known : MeterGroup := { g with discovery := g.learnt driver switch rid names }
  have hknown : known.Sound := ⟨h.filed, h.stands, h.absent⟩
  have honce : once =
      if known.offered names = [] then known
      else ((known.untrack vid).place switch vid rid (known.offered names) count).valueWith
        driver :=
    g.valueWith_addWithBuckets driver switch vid rid names count
  obtain ⟨hsettings, hdiscovery, hcounts⟩ : once.settings = g.settings ∧
      once.discovery = known.discovery ∧ once.countsBySwitch = g.countsBySwitch := by
    rw [honce]
    split
    · exact ⟨rfl, rfl, rfl⟩
    · rw [settings_place, discovery_place, countsBySwitch_place, settings_untrack,
        discovery_untrack, countsBySwitch_untrack]
      exact ⟨rfl, rfl, rfl⟩
  refine ⟨hcounts, ?_⟩
  have hattempt : once.attempt switch rid = g.attempt switch rid := by
    funext id
    rw [attempt, attempt, hsettings]
  have hlearnt : once.learnt driver switch rid names = once.discovery := by
    rw [learnt, hsettings, hdiscovery, hattempt]
    exact Discovery.refreshed_refreshed _ _ _ _ _ _
  have hoffered : once.offered names = known.offered names := by
    rw [offered, offered, hdiscovery]
  rw [valueWith_addWithBuckets, hlearnt]
  change (if once.offered names = [] then once
    else ((once.untrack vid).place switch vid rid (once.offered names) count).valueWith driver) =
      once
  rw [hoffered]
  split
  · rfl
  · next hsome =>
    rw [if_neg hsome] at honce
    rw [honce, (hknown.untrack vid).untrack_place (known.get?_untrack_self vid)]

theorem Sound.addOn_again (h : g.Sound) (driver : Driver) (switch vid rid : ObjectId)
    (names : List String) :
    let once := (g.addOn switch vid rid names).valueWith driver
    (once.addOn switch vid rid names).valueWith driver = once := by
  intro once
  have hasked : (((g.askBucketCount switch).valueWith driver).1).Sound :=
    ((g.askBucketCount_always switch).value (.unchanging driver) []).1.sound h
  have hagain : once.countsBySwitch =
      ((g.askBucketCount switch).valueWith driver).1.countsBySwitch →
      (once.askBucketCount switch).valueWith driver =
        (once, ((g.askBucketCount switch).valueWith driver).2) :=
    valueWith_askBucketCount_again
  have honce : once = ((g.addOn switch vid rid names).valueWith driver) := rfl
  unfold addOn at honce ⊢
  rw [Dialogue.valueWith_bind] at honce ⊢
  generalize (g.askBucketCount switch).valueWith driver = asked at *
  obtain ⟨known, count?⟩ := asked
  match count? with
  | some (count + 1) =>
    obtain ⟨hcounts, htwice⟩ :=
      Sound.addWithBuckets_again hasked driver switch vid rid names (count + 1)
    dsimp only at honce
    rw [← honce] at hcounts htwice
    rw [hagain hcounts]
    exact htwice
  | some 0 =>
    have hsame : once = known := honce
    rw [hagain (congrArg countsBySwitch hsame)]
    rfl
  | none =>
    have hsame : once = known := honce
    rw [hagain (congrArg countsBySwitch hsame)]
    rfl

end MeterGroup

/-- In a group of attributes the second registration puts there what stands there. -/
theorem AttributeGroup.add_add {family : CounterFamily} (g : AttributeGroup family)
    (driver : Driver) (vid rid : ObjectId) (names : List String) :
    let once := (g.add vid rid names).valueWith driver
    (once.add vid rid names).valueWith driver = once := by
  intro once
  have honce := (g.add_always vid rid names).value (.unchanging driver) []
  have htwice := (once.add_always vid rid names).value (.unchanging driver) []
  rcases htwice with ⟨-, hsame⟩ | ⟨hoffered, hput⟩
  · exact hsame
  · obtain ⟨hnone, -⟩ | ⟨-, hfirst⟩ := honce
    · exact absurd hnone hoffered
    · change once = _ at hfirst
      refine hput.trans ?_
      rw [hfirst]
      dsimp only
      rw [SortedMap.insert_insert]

namespace Group

variable {group : Group}

/-- After any commands that register no object twice, and with a driver that never changes,
registering an object twice leaves a group of any kind in the state that registering it once leaves
it in: with the same objects under the same ids, the same partitions with the same rows in the same
order, and the same found out. -/
theorem add_twice (h : group.Reachable) (driver : Driver) (vid rid : ObjectId)
    (names : List String) (asked : Option ReadMode) :
    (group.add vid rid names asked >>= fun once => once.add vid rid names asked).valueWith driver =
      (group.add vid rid names asked).valueWith driver := by
  have hsound := h.sound
  rw [Dialogue.valueWith_bind]
  cases group with
  | stats family g =>
    have hg : g.Sound := hsound
    rw [add, Dialogue.valueWith_map, add, Dialogue.valueWith_map, hg.add_add]
  | meterBuckets g =>
    have hg : g.Sound := hsound
    have htwice := hg.addOn_again driver (driver (.switchOf rid)) vid rid names
    rw [add, Dialogue.valueWith_map, add, Dialogue.valueWith_map, MeterGroup.add_eq,
      Dialogue.valueWith_bind, Dialogue.valueWith_question, MeterGroup.add_eq,
      Dialogue.valueWith_bind, Dialogue.valueWith_question, htwice]
  | attributes family g =>
    rw [add, Dialogue.valueWith_map, add, Dialogue.valueWith_map, AttributeGroup.add_add]

/-- Of two ports that share a partition the first is registered again, twice, and stands behind the
other as after once. -/
theorem add_twice_two_ports :
    let spec := GroupSpec.stats "Port Counter" .portStat "PORT_COUNTER_ID_LIST" none
    let names := ["SAI_PORT_STAT_IF_IN_OCTETS"]
    let driver := StatsGroup.rowFails (.object 0)
    let start := initial (GroupSettings.initial spec "PORTS")
    let group := ((start.perform (.addMany [1, 2] [0x101, 0x102] names none)).run
      (.unchanging driver) []).value
    let once := (group.add 1 0x103 names none).valueWith driver
    group.partitions.map PartitionView.vids = [[1, 2]] ∧
      once.partitions.map PartitionView.vids = [[2, 1]] ∧
      (group.add 1 0x103 names none >>= fun once => once.add 1 0x103 names none).valueWith driver =
        once := by
  intro spec names driver start group once
  have hreached : group.Reachable := .perform _ _ [] (.initial _) (by decide)
  exact ⟨by decide +kernel, by decide +kernel, add_twice hreached driver 1 0x103 names none⟩

end Group

end CounterPolling
