import CounterPolling.Proofs.Group.Command
import CounterPolling.Proofs.Partition.Verdicts

/-!
# Trials by a driver that judges row by row

A driver may judge each row of a bulk read by itself. Whichever way such a driver is asked, it
comes to the same decision: an object is read in bulk exactly if each of its counters can be
read in its row. A driver may even have a rule for bulk reads, by which some counters spoil any
of them. Main statements: `bulk_iff_readable`, `bulk_iff` and `valueWith_decideOn_congr`.
-/

namespace CounterPolling

/-- A row passes a trial unless the driver reports otherwise. -/
def BulkFill.Passes (fill : BulkFill) (row : Nat) : Prop :=
  (fill.status row).getD .success = .success

/-- The driver judges each row of a bulk read by itself: a row alone is read exactly if each
counter can be read there, and a read of more rows fails as a whole or judges each of them so. -/
structure Driver.JudgesRows (driver : Driver) (kind : ObjectKind)
    (Readable : ReadMode → RowKey → Int → Prop) : Prop where
  alone : ∀ mode key ids,
    (∃ fill, driver (.bulkRead kind [key] ids mode) = .ok fill ∧ fill.Passes 0) ↔
      ∀ id ∈ ids, Readable mode key id
  together : ∀ {mode keys ids fill i key}, driver (.bulkRead kind keys ids mode) = .ok fill →
    keys[i]? = some key → (fill.Passes i ↔ ∀ id ∈ ids, Readable mode key id)

/-- What a driver makes of bulk reads, counter by counter. -/
structure BulkRules where
  /-- A bulk read of the counter fails. -/
  Refuses : Int → Prop
  /-- The counter can be read in the row of a key. -/
  Readable : RowKey → Int → Prop
  /-- The value of the counter in the row of a key. -/
  value : RowKey → Int → UInt64

namespace BulkRules

/-- The counter can be read in bulk in the row of a key. -/
def Admits (rules : BulkRules) (key : RowKey) (id : Int) : Prop :=
  ¬ rules.Refuses id ∧ rules.Readable key id

/-- All counters of a registration can be read in bulk. -/
def AdmitsAll {family : CounterFamily} (rules : BulkRules) (r : Registration family) : Prop :=
  ∀ id ∈ r.ids, rules.Admits (.object r.rid) id.raw

/-- The driver follows the rules with every bulk read of a kind of object, in either mode: it
fails if it refuses a counter and not otherwise, reports for each row whether all its counters
are readable, and delivers their values then. Of other requests nothing is said. -/
structure Governs (rules : BulkRules) (driver : Driver) (kind : ObjectKind) : Prop where
  fails_iff : ∀ keys ids mode,
    (∃ error, driver (.bulkRead kind keys ids mode) = .error error) ↔ ∃ id ∈ ids, rules.Refuses id
  reports : ∀ {keys ids mode fill i key}, driver (.bulkRead kind keys ids mode) = .ok fill →
    keys[i]? = some key →
      ∃ status, fill.status i = some status ∧
        (status = .success ↔ ∀ id ∈ ids, rules.Readable key id)
  delivers : ∀ {keys ids mode fill i key j id},
    driver (.bulkRead kind keys ids mode) = .ok fill → keys[i]? = some key →
      (∀ id ∈ ids, rules.Readable key id) → ids[j]? = some id →
        fill.counter (i * ids.length + j) = some (rules.value key id)

theorem Governs.exists_fill {rules : BulkRules} {driver : Driver} {kind : ObjectKind}
    (h : rules.Governs driver kind) {keys : List RowKey} {ids : List Int} {mode : ReadMode}
    (hids : ∀ id ∈ ids, ¬ rules.Refuses id) :
    ∃ fill, driver (.bulkRead kind keys ids mode) = .ok fill := by
  cases hanswer : driver (.bulkRead kind keys ids mode) with
  | ok fill => exact ⟨fill, rfl⟩
  | error error =>
    obtain ⟨id, hid, hrefuses⟩ := (h.fails_iff keys ids mode).mp ⟨error, hanswer⟩
    exact absurd hrefuses (hids id hid)

theorem Governs.not_refuses {rules : BulkRules} {driver : Driver} {kind : ObjectKind}
    (h : rules.Governs driver kind) {keys : List RowKey} {ids : List Int} {mode : ReadMode}
    {fill : BulkFill} (hanswer : driver (.bulkRead kind keys ids mode) = .ok fill) :
    ∀ id ∈ ids, ¬ rules.Refuses id := by
  intro id hid hrefuses
  obtain ⟨error, herror⟩ := (h.fails_iff keys ids mode).mpr ⟨id, hid, hrefuses⟩
  rw [hanswer] at herror
  cases herror

/-- A row of a successful bulk read passes a trial exactly if all its counters are admitted. -/
theorem Governs.passes_iff {rules : BulkRules} {driver : Driver} {kind : ObjectKind}
    (h : rules.Governs driver kind) {keys : List RowKey} {ids : List Int} {mode : ReadMode}
    {fill : BulkFill} {i : Nat} {key : RowKey}
    (hanswer : driver (.bulkRead kind keys ids mode) = .ok fill) (hkey : keys[i]? = some key) :
    fill.Passes i ↔ ∀ id ∈ ids, rules.Admits key id := by
  obtain ⟨status, hstatus, hsuccess⟩ := h.reports hanswer hkey
  have hrefuses := h.not_refuses hanswer
  rw [BulkFill.Passes, hstatus, Option.getD_some, hsuccess]
  exact ⟨fun hall id hid => ⟨hrefuses id hid, hall id hid⟩, fun hall id hid => (hall id hid).2⟩

/-- Whoever follows rules for bulk reads judges each row by itself. -/
theorem Governs.judgesRows {rules : BulkRules} {driver : Driver} {kind : ObjectKind}
    (h : rules.Governs driver kind) : driver.JudgesRows kind fun _ => rules.Admits where
  alone mode key ids := by
    constructor
    · rintro ⟨fill, hfill, hpasses⟩
      exact (h.passes_iff hfill rfl).mp hpasses
    · intro hadmits
      obtain ⟨fill, hfill⟩ : ∃ fill, driver (.bulkRead kind [key] ids mode) = .ok fill :=
        h.exists_fill fun id hid => (hadmits id hid).1
      exact ⟨fill, hfill, (h.passes_iff hfill rfl).mpr hadmits⟩
  together := h.passes_iff

section Driver

variable (rules : BulkRules) [DecidablePred rules.Refuses]
  [∀ key, DecidablePred (rules.Readable key)]

/-- What a bulk read writes by the rules, with its slots row by row. -/
def fill (keys : List RowKey) (ids : List Int) : BulkFill where
  status row := (keys[row]?).map fun key =>
    if ∀ id ∈ ids, rules.Readable key id then .success else .failure
  counter slot := (keys[slot / ids.length]?).bind fun key =>
    (ids[slot % ids.length]?).map (rules.value key)

/-- A driver that follows the rules, and reads counters of single objects as zero. -/
def driver : Driver
  | .read _ _ ids => .ok (ids.map fun _ => 0)
  | .clear .. => .ok ()
  | .bulkRead _ keys ids _ =>
    if ∃ id ∈ ids, rules.Refuses id then .error (.status .failure) else .ok (rules.fill keys ids)
  | .capabilities .. => .error (.status .failure)
  | .attributes _ _ ids => .ok (ids.map fun _ => "")
  | .switchOf object => object

/-- There is a driver for any rules. -/
theorem governs_driver (kind : ObjectKind) : rules.Governs rules.driver kind where
  fails_iff keys ids mode := by
    rw [driver]
    split
    · next hrefuses => exact iff_of_true ⟨_, rfl⟩ hrefuses
    · next hrefuses => exact iff_of_false (fun ⟨error, herror⟩ => by cases herror) hrefuses
  reports := by
    intro keys ids mode fill i key hfill hkey
    rw [driver] at hfill
    split at hfill
    · cases hfill
    · cases hfill
      refine ⟨if ∀ id ∈ ids, rules.Readable key id then .success else .failure, ?_, ?_⟩
      · simp only [BulkRules.fill, hkey, Option.map_some]
      · split
        · next hreadable => exact iff_of_true rfl hreadable
        · next hreadable => exact iff_of_false (by decide) hreadable
  delivers := by
    intro keys ids mode fill i key j id hfill hkey hreadable hid
    rw [driver] at hfill
    split at hfill
    · cases hfill
    · cases hfill
      have hj : j < ids.length := (List.getElem?_eq_some_iff.mp hid).1
      have hrow : (i * ids.length + j) / ids.length = i := by
        rw [Nat.mul_comm, Nat.mul_add_div (Nat.zero_lt_of_lt hj), Nat.div_eq_of_lt hj,
          Nat.add_zero]
      have hcolumn : (i * ids.length + j) % ids.length = j := by
        rw [Nat.mul_comm, Nat.mul_add_mod, Nat.mod_eq_of_lt hj]
      simp only [BulkRules.fill, hrow, hcolumn, hkey, hid, Option.bind_some, Option.map_some]

end Driver

end BulkRules

variable {family : CounterFamily} {rules : BulkRules} {driver : Driver}

namespace StatsGroup

variable {g : StatsGroup family} {Readable : ReadMode → RowKey → Int → Prop}

/-- All counters of a registration can be read in the row of its object. -/
def AllReadable (g : StatsGroup family) (Readable : ReadMode → RowKey → Int → Prop)
    (r : Registration family) : Prop :=
  ∀ id ∈ r.ids, Readable (g.settings.modeFor r.mode) (.object r.rid) id.raw

/-- An object passes a trial of its own exactly if its bulk read succeeds and its row passes. -/
theorem trial_eq_true_iff (r : Registration family) :
    (g.trial r).valueWith driver = true ↔
      ∃ fill, driver (.bulkRead g.kind [.object r.rid] (CounterId.raws r.ids)
        (g.settings.modeFor r.mode)) = .ok fill ∧ fill.Passes 0 := by
  unfold trial
  rw [Dialogue.valueWith_bind, valueWith_tryBulkRead, Dialogue.valueWith_pure]
  cases driver (.bulkRead g.kind [.object r.rid] (CounterId.raws r.ids)
    (g.settings.modeFor r.mode)) with
  | error error => simp [Except.map, trialPasses]
  | ok fill => simp [Except.map, trialPasses, BulkFill.statuses, BulkFill.Passes]

/-- An object passes a trial of its own exactly if all its counters can be read. -/
theorem trial_iff (h : driver.JudgesRows g.kind Readable) (r : Registration family) :
    (g.trial r).valueWith driver = true ↔ g.AllReadable Readable r := by
  have hraws : (∀ raw ∈ CounterId.raws r.ids,
      Readable (g.settings.modeFor r.mode) (.object r.rid) raw) ↔ g.AllReadable Readable r :=
    List.forall_mem_map
  rw [← hraws, ← h.alone]
  exact trial_eq_true_iff r

/-- An object that need not be tried by itself has passed the trial of each share. -/
theorem passes_of_not_alone {mode : ReadMode} {vids rids : List ObjectId} {i : Nat}
    {vid rid : ObjectId} (hvid : vids[i]? = some vid) (hrid : rids[i]? = some rid)
    {share : Share family} {shares : List (Share family)}
    (halone : vid ∉ (g.trySharesTogether mode vids (rids.map RowKey.object)
      (share :: shares)).valueWith driver) :
    (∃ fill, driver (.bulkRead g.kind (rids.map RowKey.object) (CounterId.raws share.ids) mode) =
        .ok fill ∧ fill.Passes i) ∧
      vid ∉ (g.trySharesTogether mode vids (rids.map RowKey.object) shares).valueWith driver := by
  rw [trySharesTogether, Dialogue.valueWith_bind, valueWith_tryBulkRead] at halone
  cases hanswer : driver (.bulkRead g.kind (rids.map RowKey.object) (CounterId.raws share.ids)
    mode) with
  | error error =>
    rw [hanswer] at halone
    exact absurd (List.mem_of_getElem? hvid) halone
  | ok fill =>
    rw [hanswer] at halone
    simp only [Except.map, Dialogue.valueWith_bind, Dialogue.valueWith_pure, List.mem_append,
      not_or] at halone
    obtain ⟨hfailed, hlater⟩ := halone
    have hstatus : (fill.statuses .success (rids.map RowKey.object).length)[i]? =
        some ((fill.status i).getD .success) := by
      have hlength : i < rids.length := (List.getElem?_eq_some_iff.mp hrid).1
      simp [BulkFill.statuses, hlength]
    refine ⟨⟨fill, rfl, ?_⟩, hlater⟩
    by_contra hbad
    apply hfailed
    unfold failedAmong
    rw [List.mem_filterMap]
    refine ⟨(vid, (fill.status i).getD .success), ?_, ?_⟩
    · exact List.mem_iff_getElem?.mpr ⟨i, List.getElem?_zip_eq_some.mpr ⟨hvid, hstatus⟩⟩
    · rw [if_neg (by simpa [BulkFill.Passes] using hbad)]

/-- An object that need not be tried by itself can be read for all counters of all shares. -/
theorem readable_of_not_alone (h : driver.JudgesRows g.kind Readable) {mode : ReadMode}
    {vids rids : List ObjectId} {i : Nat} {vid rid : ObjectId} (hvid : vids[i]? = some vid)
    (hrid : rids[i]? = some rid) {shares : List (Share family)}
    (halone : vid ∉ (g.trySharesTogether mode vids (rids.map RowKey.object) shares).valueWith
      driver) :
    ∀ share ∈ shares, ∀ id ∈ share.ids, Readable mode (.object rid) id.raw := by
  induction shares with
  | nil => exact fun share hshare => absurd hshare List.not_mem_nil
  | cons first rest ih =>
    have hkey : (rids.map RowKey.object)[i]? = some (.object rid) := by
      rw [List.getElem?_map, hrid, Option.map_some]
    obtain ⟨⟨fill, hanswer, hpasses⟩, hlater⟩ := passes_of_not_alone hvid hrid halone
    rw [List.forall_mem_cons]
    refine ⟨?_, ih hlater⟩
    intro id hid
    exact (h.together hanswer hkey).mp hpasses _ (List.mem_map_of_mem hid)

section Trials

variable {Q : Registration family → Prop}

/-- Each of some objects is read in bulk exactly if it has a property, provided that trials find out
about the property and that those have it that are not tried by themselves. -/
theorem decideEach_bulk_iff (htrial : ∀ r, (g.trial r).valueWith driver = true ↔ Q r)
    {ids : List (CounterId family)} {own : Option ReadMode} {alone : List ObjectId}
    {objects : List (ObjectId × ObjectId)}
    (hnot : ∀ object ∈ objects, object.1 ∉ alone → Q ⟨object.2, ids, own⟩) :
    ∀ p ∈ (g.decideEach ids own alone objects).valueWith driver,
      p.bulk = true ↔ Q p.registration := by
  induction objects with
  | nil => exact fun p hp => absurd hp List.not_mem_nil
  | cons object rest ih =>
    obtain ⟨hobject, hrest⟩ := List.forall_mem_cons.mp hnot
    rw [decideEach]
    split
    · simp only [Dialogue.valueWith_bind, Dialogue.valueWith_pure, List.forall_mem_cons]
      exact ⟨htrial ⟨object.2, ids, own⟩, ih hrest⟩
    · next halone =>
      simp only [Dialogue.valueWith_bind, Dialogue.valueWith_pure, List.forall_mem_cons]
      refine ⟨iff_of_true trivial (hobject ?_), ih hrest⟩
      simpa using halone

/-- An object is read in bulk exactly if it has a property that trials find out about: those of
single objects in any case, and those of the shares for objects that they leave alone. -/
theorem bulk_iff_of_trials (htrial : ∀ r, (g.trial r).valueWith driver = true ↔ Q r)
    (htogether : ∀ {vids rids : List ObjectId} {i : Nat} {vid rid : ObjectId}
      {ids : List (CounterId family)} {own : Option ReadMode}, CounterId.Ascending ids →
      ids ≠ [] → vids[i]? = some vid → rids[i]? = some rid →
      vid ∉ (g.trySharesTogether (g.settings.modeFor own) vids (rids.map RowKey.object)
        (g.settings.prefixes.split g.settings.chunkSize ids)).valueWith driver →
      Q ⟨rid, ids, own⟩) (command : GroupCommand) :
    ∀ p ∈ ((g.decideOn command).valueWith driver).placements,
      p.bulk = true ↔ Q p.registration := by
  have hnone : ∀ discovery : Discovery family,
      ∀ p ∈ (⟨discovery, [], []⟩ : Decision family).placements,
        p.bulk = true ↔ Q p.registration :=
    fun _ p hp => absurd hp List.not_mem_nil
  cases command with
  | add vid rid names asked =>
    simp only [decideOn, decideAdd, discover_eq, Dialogue.valueWith_bind, Dialogue.valueWith_pure]
    split
    · exact hnone _
    · simp only [Dialogue.valueWith_bind, Dialogue.valueWith_pure, List.forall_mem_singleton]
      exact htrial _
  | addMany vids rids names asked =>
    simp only [decideOn, decideAddMany]
    split
    · exact hnone _
    · next hlength =>
      split
      · exact hnone _
      · next first others =>
        simp only [discover_eq, Dialogue.valueWith_bind, Dialogue.valueWith_pure]
        split
        · exact hnone _
        · next hsupported =>
          simp only [Dialogue.valueWith_bind, Dialogue.valueWith_pure]
          apply decideEach_bulk_iff htrial
          intro object hobject halone
          obtain ⟨i, hi⟩ := List.mem_iff_getElem?.mp hobject
          obtain ⟨hvid, hrid⟩ := List.getElem?_zip_eq_some.mp hi
          have hne := fun hnil => hsupported (List.isEmpty_iff.mpr hnil)
          exact htogether (CounterId.ascending_toList _) hne hvid hrid halone
  | _ => exact hnone _

end Trials

/-- An object is read in bulk exactly if all its counters can be read in its row. -/
theorem bulk_iff_readable (h : driver.JudgesRows g.kind Readable) (command : GroupCommand) :
    ∀ p ∈ ((g.decideOn command).valueWith driver).placements,
      p.bulk = true ↔ g.AllReadable Readable p.registration := by
  refine bulk_iff_of_trials (trial_iff h) (fun hasc _ hvid hrid halone id hid => ?_) command
  obtain ⟨share, hshare, hmem⟩ := (PrefixConfig.exists_mem_split_iff hasc).mpr hid
  exact readable_of_not_alone h hvid hrid halone share hshare id hmem

/-- An object is read in bulk exactly if the rules admit all its counters. -/
theorem bulk_iff (h : rules.Governs driver g.kind) (command : GroupCommand) :
    ∀ p ∈ ((g.decideOn command).valueWith driver).placements,
      p.bulk = true ↔ rules.AdmitsAll p.registration :=
  bulk_iff_readable h.judgesRows command

end StatsGroup

/-- Two settings that differ at most in chunk sizes, prefixes and plugins. -/
structure GroupSettings.ReadAlike (settings settings' : GroupSettings) : Prop where
  spec : settings.spec = settings'.spec
  owner : settings.owner = settings'.owner
  mode : settings.mode = settings'.mode

namespace GroupSettings.ReadAlike

variable {settings settings' : GroupSettings}

theorem objectMode (h : settings.ReadAlike settings') (asked : Option ReadMode) :
    settings.objectMode asked = settings'.objectMode asked := by
  simp only [GroupSettings.objectMode, h.spec]

theorem modeFor (h : settings.ReadAlike settings') (asked : Option ReadMode) :
    settings.modeFor asked = settings'.modeFor asked := by
  simp only [GroupSettings.modeFor, h.objectMode, h.mode]

theorem refresh (h : settings.ReadAlike settings') (object : ObjectId) (mode : ReadMode)
    (attempt : CounterId family → Dialogue Bool) (requested : List (CounterId family))
    (known : Discovery family) :
    Discovery.refresh settings object mode attempt requested known =
      Discovery.refresh settings' object mode attempt requested known := by
  have hreport : settings.report = settings'.report := by
    funext event
    simp only [GroupSettings.report, h.spec, h.owner]
  simp only [Discovery.refresh, h.spec, hreport]

end GroupSettings.ReadAlike

namespace StatsGroup

variable {g g' : StatsGroup family}

theorem attempt_congr (h : g.kind = g'.kind) : g.attempt = g'.attempt := by
  funext rid mode id
  unfold attempt
  generalize g.kind = kind at h ⊢
  subst h
  refine congrArg _ (funext fun answer => ?_)
  cases answer with
  | error error => rfl
  | ok values =>
    cases mode with
    | read => rfl
    | readAndClear =>
      dsimp only
      refine congrArg _ (funext fun answer => ?_)
      cases answer <;> rfl

/-- Groups that know the same and read alike find out the same and see the same supported. -/
theorem known_congr (driver : Driver) (hsettings : g.settings.ReadAlike g'.settings)
    (hdiscovery : g.discovery = g'.discovery) (command : GroupCommand) :
    ((g.decideOn command).valueWith driver).discovery =
        ((g'.decideOn command).valueWith driver).discovery ∧
      ((g.decideOn command).valueWith driver).supported =
        ((g'.decideOn command).valueWith driver).supported := by
  have hattempt := attempt_congr (congrArg GroupSpec.kind hsettings.spec : g.kind = g'.kind)
  cases command with
  | add vid rid names asked =>
    simp only [decideOn, decideAdd, discover_eq, Dialogue.valueWith_bind, Dialogue.valueWith_pure,
      hsettings.objectMode, hsettings.modeFor, hsettings.refresh, hattempt, hdiscovery]
    split
    · simp only [Dialogue.valueWith_bind, Dialogue.valueWith_pure, and_self]
    · simp only [Dialogue.valueWith_bind, Dialogue.valueWith_pure, and_self]
  | addMany vids rids names asked =>
    simp only [decideOn, decideAddMany]
    split
    · simp only [Dialogue.valueWith_bind, Dialogue.valueWith_pure, hdiscovery, and_self]
    · split
      · simp only [Dialogue.valueWith_pure, hdiscovery, and_self]
      · simp only [discover_eq, Dialogue.valueWith_bind, Dialogue.valueWith_pure,
          hsettings.objectMode, hsettings.modeFor, hsettings.refresh, hattempt, hdiscovery]
        split
        · simp only [Dialogue.valueWith_bind, Dialogue.valueWith_pure, and_self]
        · simp only [Dialogue.valueWith_bind, Dialogue.valueWith_pure, and_self]
  | _ => exact ⟨hdiscovery, rfl⟩

/-- Placements of the same entries that agree on what is read in bulk are the same. -/
theorem placements_eq {P : ObjectId × Registration family → Prop}
    {placements placements' : List (Placement family)}
    (hentries : placements.map Placement.entry = placements'.map Placement.entry)
    (hbulk : ∀ p ∈ placements, p.bulk = true ↔ P p.entry)
    (hbulk' : ∀ p ∈ placements', p.bulk = true ↔ P p.entry) : placements = placements' := by
  induction placements generalizing placements' with
  | nil => exact (List.map_eq_nil_iff.mp hentries.symm).symm
  | cons p rest ih =>
    cases placements' with
    | nil => cases hentries
    | cons p' rest' =>
      rw [List.forall_mem_cons] at hbulk hbulk'
      obtain ⟨hentry, hrest⟩ := List.cons.inj hentries
      have heq : p = p' := by
        obtain ⟨hvid, hregistration⟩ := Prod.mk.inj hentry
        have hflag : p.bulk = p'.bulk := by
          rw [Bool.eq_iff_iff, hbulk.1, hbulk'.1, hentry]
        cases p
        cases p'
        cases hvid
        cases hregistration
        cases hflag
        rfl
      rw [heq, ih hrest hbulk.2 hbulk'.2]

/-- Groups that know the same and read alike come to the same decisions, whatever their chunk
sizes and prefixes, with a driver that judges row by row. -/
theorem valueWith_decideOn_congr (h : rules.Governs driver g.kind)
    (hsettings : g.settings.ReadAlike g'.settings) (hdiscovery : g.discovery = g'.discovery)
    (command : GroupCommand) :
    (g.decideOn command).valueWith driver = (g'.decideOn command).valueWith driver := by
  have h' : rules.Governs driver g'.kind := by
    rwa [kind, ← hsettings.spec]
  obtain ⟨hknown, hsupported⟩ := known_congr driver hsettings hdiscovery command
  have hcovers := (g.decideOn_always command).value (.unchanging driver) []
  have hcovers' := (g'.decideOn_always command).value (.unchanging driver) []
  have hbulk := bulk_iff h command
  have hbulk' := bulk_iff h' command
  change Decision.Covers ((g.decideOn command).valueWith driver) _ _ at hcovers
  change Decision.Covers ((g'.decideOn command).valueWith driver) _ _ at hcovers'
  generalize (g.decideOn command).valueWith driver = decision at *
  generalize (g'.decideOn command).valueWith driver = decision' at *
  have hplacements : decision.placements = decision'.placements := by
    by_cases hnil : decision.supported = []
    · rw [hcovers.placements_eq_nil hnil, hcovers'.placements_eq_nil (hsupported ▸ hnil)]
    · apply placements_eq (P := fun entry => rules.AdmitsAll entry.2) _ hbulk hbulk'
      rw [hcovers.entries_eq hnil, hcovers'.entries_eq (hsupported ▸ hnil), hsupported,
        hsettings.objectMode]
  cases decision
  cases decision'
  cases hknown
  cases hsupported
  cases hplacements
  rfl

end StatsGroup

end CounterPolling
