import CounterPolling.Proofs.Group.Buckets
import CounterPolling.Proofs.Group.Exclusive

/-!
# Registrations of interfaces, and their histories

A registration of an interface gives up at many points, before or after it drops the earlier one.
Whatever the driver answers it comes to one of three outcomes: the earlier registration stays, it
is gone, or the interface is tracked with all of its buckets. Main statements:
`MeterGroup.addOn_always`, and `MeterGroup.interfaces_tracked_whole` for whole histories.
-/

namespace CounterPolling

namespace MeterGroup

variable {g after : MeterGroup} {vid rid : ObjectId}

section Outcomes

/-- Registers an interface of a switch. -/
def addOn (g : MeterGroup) (switch vid rid : ObjectId) (names : List String) :
    Dialogue MeterGroup := do
  let (g, count?) ← g.askBucketCount switch
  match count? with
  | some (count + 1) => g.addWithBuckets switch vid rid names (count + 1)
  | _ =>
    g.settings.report (.noBuckets vid)
    return g

/-- A registration asks for the switch first. -/
theorem add_eq (g : MeterGroup) (vid rid : ObjectId) (names : List String) :
    g.add vid rid names =
      Dialogue.question (.switchOf rid) >>= fun switch => g.addOn switch vid rid names := rfl

/-- What a registration of an interface of a switch can come to. -/
inductive Outcome (g : MeterGroup) (switch vid rid : ObjectId) : MeterGroup → Prop
  /-- An earlier registration stays as it was. -/
  | kept {after : MeterGroup} : Retains g after → Outcome g switch vid rid after
  /-- The interface is not tracked any more. -/
  | dropped {after : MeterGroup} : Retains (g.untrack vid) after → Outcome g switch vid rid after
  /-- The interface is tracked with all buckets that the switch is known to have for it. -/
  | placed {known : MeterGroup} {ids : List BucketCounter} {count : Nat} :
    Retains (g.untrack vid) known → ids ≠ [] → CounterId.Ascending ids →
    known.countsBySwitch.get? switch = some count → 0 < count →
    Outcome g switch vid rid (known.put vid rid ids (eniBuckets switch rid count))

theorem Retains.untrack (h : Retains g after) (vid : ObjectId) :
    Retains (g.untrack vid) (after.untrack vid) := by
  obtain ⟨hsettings, hinterfaces, hpartitions, hcounts⟩ := h
  unfold MeterGroup.untrack
  rw [hinterfaces]
  split
  · exact ⟨hsettings, rfl, by rw [hpartitions], hcounts⟩
  · exact ⟨hsettings, hinterfaces, hpartitions, hcounts⟩

/-- What is found out about counters is not part of what is tracked. -/
theorem Retains.withDiscovery (h : Retains g after) (discovery : Discovery .meterBucketStat) :
    Retains g { after with discovery := discovery } :=
  ⟨h.settings_eq, h.interfaces_eq, h.partitions_eq, h.counts⟩

theorem countsBySwitch_untrack (g : MeterGroup) (vid : ObjectId) :
    (g.untrack vid).countsBySwitch = g.countsBySwitch := by
  unfold untrack
  split <;> rfl

theorem discovery_untrack (g : MeterGroup) (vid : ObjectId) :
    (g.untrack vid).discovery = g.discovery := by
  unfold untrack
  split <;> rfl

/-- The answer on the number of buckets is what is known of it from then on. -/
theorem askBucketCount_always (g : MeterGroup) (switch : ObjectId) :
    (g.askBucketCount switch).Always fun found =>
      Retains g found.1 ∧ found.1.countsBySwitch.get? switch = found.2 := by
  unfold askBucketCount
  cases hknown : g.countsBySwitch.get? switch with
  | some count => exact ⟨.refl g, hknown⟩
  | none =>
    refine Dialogue.always_bind_of_forall fun answer => ?_
    cases answer with
    | error error => exact ⟨.refl g, hknown⟩
    | ok values =>
      dsimp only
      cases values.head?.bind Text.word? with
      | none => exact ⟨.refl g, hknown⟩
      | some count =>
        refine ⟨⟨rfl, rfl, rfl, fun other known hother => ?_⟩, SortedMap.get?_insert_self _ _ _⟩
        have hne : switch ≠ other := by
          rintro rfl
          rw [hknown] at hother
          cases hother
        rw [SortedMap.get?_insert_of_ne _ _ hne]
        exact hother

/-- The counters asked for that the group has found supported. -/
def offered (g : MeterGroup) (names : List String) : List BucketCounter :=
  g.discovery.select (CounterFamily.requested .meterBucketStat names)

/-- A registration under a switch finds something to read: buckets, and supported counters. -/
def Finds (g : MeterGroup) (switch : ObjectId) (names : List String) : Prop :=
  0 < (g.countsBySwitch.get? switch).getD 0 ∧ g.offered names ≠ []

/-- What a registration does is told by what is known once it is over. Without anything to read the
earlier registration stays. Otherwise it goes, and the interface is tracked anew with the supported
counters, or not at all. -/
inductive Settles (g : MeterGroup) (switch vid rid : ObjectId) (names : List String) :
    MeterGroup → Prop
  | stays {after : MeterGroup} : Retains g after → ¬ after.Finds switch names →
    Settles g switch vid rid names after
  | goes {after : MeterGroup} : Retains (g.untrack vid) after → after.Finds switch names →
    Settles g switch vid rid names after
  | renewed {known : MeterGroup} {count : Nat} : Retains (g.untrack vid) known →
    known.countsBySwitch.get? switch = some count → 0 < count → known.offered names ≠ [] →
    Settles g switch vid rid names
      (known.put vid rid (known.offered names) (eniBuckets switch rid count))

/-- In every branch a registration settles as what is known in the end tells. -/
theorem addOn_settles (g : MeterGroup) (switch vid rid : ObjectId) (names : List String) :
    (g.addOn switch vid rid names).Always (g.Settles switch vid rid names) := by
  refine (g.askBucketCount_always switch).bind ?_
  rintro ⟨known, count?⟩ ⟨hknown, hcount⟩
  dsimp only at hknown hcount ⊢
  split
  · next count =>
    refine (readRequested_always _ names).bind ?_
    rintro _ rfl
    refine Dialogue.always_bind_of_forall fun discovery => ?_
    have hfoundOut := hknown.withDiscovery discovery
    dsimp only
    generalize hinformed : { known with discovery := discovery } = informed at hfoundOut ⊢
    have hoffered : (informed.untrack vid).offered names =
        discovery.select (CounterFamily.requested .meterBucketStat names) := by
      rw [offered, discovery_untrack, ← hinformed]
    have hbuckets : (informed.untrack vid).countsBySwitch.get? switch = some (count + 1) := by
      rw [countsBySwitch_untrack, ← hinformed]
      exact hcount
    split
    · next hnone =>
      refine Dialogue.always_bind_of_forall fun _ => .stays hfoundOut fun hfinds => hfinds.2 ?_
      rw [offered, ← hinformed]
      exact List.isEmpty_iff.mp hnone
    · next hsome =>
      rw [List.isEmpty_iff, ← hoffered] at hsome
      rw [← hoffered]
      -- from here on the earlier registration is gone
      have hdropped := hfoundOut.untrack vid
      have hfinds : (informed.untrack vid).Finds switch names := by
        refine ⟨?_, hsome⟩
        rw [hbuckets, Option.getD_some]
        exact Nat.succ_pos count
      refine Dialogue.always_bind_of_forall fun trial => ?_
      cases trial with
      | error error => exact Dialogue.always_bind_of_forall fun _ => .goes hdropped hfinds
      | ok statuses =>
        dsimp only
        split
        · exact .renewed hdropped hbuckets (Nat.succ_pos count) hsome
        · exact Dialogue.always_bind_of_forall fun _ => .goes hdropped hfinds
  · next hnone =>
    refine Dialogue.always_bind_of_forall fun _ => .stays hknown fun hfinds => ?_
    obtain ⟨hpos, -⟩ := hfinds
    rw [hcount] at hpos
    match count?, hpos with
    | some (count + 1), _ => exact hnone count rfl

/-- In every branch a registration comes to one of the outcomes. -/
theorem addOn_always (g : MeterGroup) (switch vid rid : ObjectId) (names : List String) :
    (g.addOn switch vid rid names).Always (g.Outcome switch vid rid) := by
  refine (g.addOn_settles switch vid rid names).mono fun after hsettles => ?_
  cases hsettles with
  | stays hkept _ => exact .kept hkept
  | goes hdropped _ => exact .dropped hdropped
  | renewed hdropped hcount hpos hoffered =>
    exact .placed hdropped hoffered (CounterId.ascending_toList _) hcount hpos

/-- Against a switch a registration comes to an outcome for the switch id that is answered. -/
theorem add_outcome (g : MeterGroup) (vid rid : ObjectId) (names : List String)
    (switch : Switch) (past : List Event) :
    g.Outcome (switch past (.switchOf rid)) vid rid ((g.add vid rid names).run switch past).value :=
  by
  rw [add_eq, Dialogue.value_run_bind, Dialogue.run_question]
  exact (g.addOn_always _ vid rid names).value switch _

theorem add_always (g : MeterGroup) (vid rid : ObjectId) (names : List String) :
    (g.add vid rid names).Always fun after => ∃ switch, g.Outcome switch vid rid after := by
  rw [add_eq]
  refine Dialogue.always_bind_of_forall fun switch => ?_
  exact (g.addOn_always switch vid rid names).mono fun _ h => ⟨switch, h⟩

/-- No registration changes what the group was told. -/
theorem Outcome.settings_eq {switch : ObjectId} (h : g.Outcome switch vid rid after) :
    after.settings = g.settings := by
  cases h with
  | kept hkept => exact hkept.settings_eq
  | dropped hdropped => exact hdropped.settings_eq.trans (g.settings_untrack vid)
  | placed hdropped _ _ _ _ => exact hdropped.settings_eq.trans (g.settings_untrack vid)

theorem Outcome.sound {switch : ObjectId} (h : g.Outcome switch vid rid after)
    (hsound : g.Sound) : after.Sound := by
  cases h with
  | kept hkept => exact hkept.sound hsound
  | dropped hdropped => exact hdropped.sound (hsound.untrack vid)
  | placed hdropped hids hasc hcount hpos =>
    refine (hdropped.sound (hsound.untrack vid)).put ?_ hids hasc hcount hpos
    rw [hdropped.interfaces_eq]
    exact g.get?_untrack_self vid

/-- What a registration leaves of an interface: what was there, nothing, or all of its buckets. -/
inductive Leaves (g : MeterGroup) (switch vid rid : ObjectId) (after : MeterGroup) : Prop
  | unchanged : after.interfaces.get? vid = g.interfaces.get? vid →
    after.rowsOf vid = g.rowsOf vid → Leaves g switch vid rid after
  | nothing : after.interfaces.get? vid = none → after.rowsOf vid = [] →
    Leaves g switch vid rid after
  | whole (count : Nat) : after.interfaces.get? vid = some rid →
    after.countsBySwitch.get? switch = some count → 0 < count →
    after.rowsOf vid = bucketRows switch vid rid count → Leaves g switch vid rid after

/-- No outcome leaves some of the buckets only. -/
theorem Outcome.leaves {switch : ObjectId} (h : g.Outcome switch vid rid after)
    (hsound : g.Sound) : g.Leaves switch vid rid after := by
  have hafter := h.sound hsound
  cases h with
  | kept hkept =>
    refine .unchanged (by rw [hkept.interfaces_eq]) ?_
    rw [rowsOf, hkept.partitions_eq, rowsOf]
  | dropped hdropped =>
    have hnone : after.interfaces.get? vid = none := by
      rw [hdropped.interfaces_eq]
      exact g.get?_untrack_self vid
    exact .nothing hnone (hafter.rowsOf_eq_nil hnone)
  | @placed known ids count hdropped hids hasc hcount hpos =>
    have habsent : known.interfaces.get? vid = none := by
      rw [hdropped.interfaces_eq]
      exact g.get?_untrack_self vid
    have hknown := hdropped.sound (hsound.untrack vid)
    obtain ⟨hstands, honly⟩ := hknown.put_self habsent hcount hpos rid ids
    obtain ⟨count', hcount', hpos', hrows⟩ := hstands.rowsOf_eq honly
    exact .whole count' (known.interfaces_put_self vid rid ids _) hcount' hpos' hrows

end Outcomes

section Histories

/-- Does what a command says. -/
def perform (g : MeterGroup) : GroupCommand → Dialogue MeterGroup
  | .add vid rid names _ => g.add vid rid names
  | .addMany vids rids names _ =>
    Dialogue.carry (fun g object => g.add object.1 object.2 names) g (vids.zip rids)
  | .remove vid => g.remove vid
  | .removeAll => return g.withoutObjects
  | .resize chunkSize => return g.withChunkSize chunkSize
  | .regroup prefixes => return { g with settings := { g.settings with prefixes := prefixes } }
  | .changeMode mode => return { g with settings := { g.settings with mode := mode } }
  | .addPlugins plugins => return { g with settings := g.settings.withPlugins plugins }
  | .dropPlugins => return { g with settings := { g.settings with plugins := ∅ } }
  | .runPlugins arguments => do
    (Group.meterBuckets g).runPlugins arguments
    return g
  | .poll => do
    g.poll
    return g

/-- A group of meter buckets does what its commands say. -/
theorem perform_meterBuckets (g : MeterGroup) (command : GroupCommand) :
    (Group.meterBuckets g).perform command = Group.meterBuckets <$> g.perform command := by
  cases command with
  | addMany vids rids names asked =>
    exact Dialogue.carry_map (fun _ _ => rfl) g (vids.zip rids)
  | runPlugins arguments =>
    rw [Group.perform, perform, map_bind]
    rfl
  | poll =>
    rw [Group.perform, perform, map_bind]
    rfl
  | _ => rfl

theorem Sound.withSettings (h : g.Sound) (settings : GroupSettings) :
    { g with settings := settings }.Sound :=
  ⟨h.filed, h.stands, h.absent⟩

theorem Sound.withoutObjects (g : MeterGroup) : g.withoutObjects.Sound where
  filed _ _ hp := absurd hp (by simp [MeterGroup.withoutObjects])
  stands _ _ hrid := absurd hrid (by simp [MeterGroup.withoutObjects])
  absent _ _ _ _ hp := absurd hp (by simp [MeterGroup.withoutObjects])

/-- Another chunk size leaves all rows where they are. -/
theorem Sound.withChunkSize (h : g.Sound) (size : Nat) : (g.withChunkSize size).Sound := by
  have hget : ∀ {ids p}, (g.withChunkSize size).partitions.get? ids = some p →
      ∃ q, g.partitions.get? ids = some q ∧ p = q.withChunkSize size := by
    intro ids p hp
    rw [MeterGroup.withChunkSize, SortedMap.get?_map, Option.map_eq_some_iff] at hp
    obtain ⟨q, hq, rfl⟩ := hp
    exact ⟨q, hq, rfl⟩
  constructor
  · intro ids p hp
    obtain ⟨q, hq, rfl⟩ := hget hp
    exact h.filed ids q hq
  · intro vid rid hrid
    obtain ⟨switch, ids, ⟨p, count, hp, hcount, hpos, hblock⟩, honly⟩ := h.stands vid rid hrid
    refine ⟨switch, ids, ⟨p.withChunkSize size, count, ?_, hcount, hpos,
      hblock.withChunkSize size⟩, fun ids' p' hp' hheld => ?_⟩
    · rw [MeterGroup.withChunkSize, SortedMap.get?_map, hp]
      rfl
    · obtain ⟨q, hq, rfl⟩ := hget hp'
      exact honly ids' q hq hheld
  · intro vid hnone ids p hp hheld
    obtain ⟨q, hq, rfl⟩ := hget hp
    exact h.absent vid hnone ids q hq hheld

/-- Every command keeps interfaces whole, in every branch. -/
theorem Sound.perform (h : g.Sound) (command : GroupCommand) :
    (g.perform command).Always Sound := by
  cases command with
  | add vid rid names asked =>
    exact (g.add_always vid rid names).mono fun after ⟨switch, houtcome⟩ => houtcome.sound h
  | addMany vids rids names asked =>
    refine Dialogue.Always.carry (fun before hbefore object _ => ?_) h
    exact (before.add_always object.1 object.2 names).mono fun after ⟨switch, houtcome⟩ =>
      houtcome.sound hbefore
  | remove vid =>
    rw [MeterGroup.perform, MeterGroup.remove]
    split
    · exact h.untrack vid
    · exact Dialogue.always_bind_of_forall fun _ => h
  | removeAll => exact Sound.withoutObjects g
  | resize chunkSize => exact h.withChunkSize chunkSize
  | runPlugins arguments => exact Dialogue.always_bind_of_forall fun _ => h
  | poll => exact Dialogue.always_bind_of_forall fun _ => h
  | _ => exact h.withSettings _

/-- A state that commands bring a group to, whatever the driver answers to each. -/
inductive Reachable : MeterGroup → Prop
  | initial (settings : GroupSettings) : Reachable (MeterGroup.initial settings)
  | perform {g : MeterGroup} (command : GroupCommand) (switch : Switch) (past : List Event) :
    Reachable g → Reachable ((g.perform command).run switch past).value

theorem Reachable.sound (h : g.Reachable) : g.Sound := by
  induction h with
  | initial settings => exact sound_initial settings
  | perform command switch past _ ih => exact (ih.perform command).value switch past

/-- After any commands with any answers of the driver, an interface is tracked exactly if it has
rows. Its rows are then those of all the buckets that its switch is known to have, under the
driver's id that it was registered with, side by side in one partition and nowhere else. No
partition is without rows, and each has counters that ascend. A registration that comes next
leaves what was there, nothing, or all of the buckets. -/
theorem interfaces_tracked_whole (h : g.Reachable) :
    (∀ vid, vid ∈ g.vids ↔ ∃ ids p, g.partitions.get? ids = some p ∧ p.holds vid = true) ∧
    (∀ vid rid, g.interfaces.get? vid = some rid →
      ∃ switch ids, g.StandsIn switch vid rid ids ∧ g.OnlyIn vid ids) ∧
    (∀ ids p, g.partitions.get? ids = some p →
      p.rows ≠ [] ∧ p.ids = ids ∧ ids ≠ [] ∧ CounterId.Ascending ids) ∧
    ∀ vid rid names switch past, g.Leaves (switch past (.switchOf rid)) vid rid
      ((g.add vid rid names).run switch past).value := by
  have hsound := h.sound
  refine ⟨fun vid => hsound.mem_vids_iff, hsound.stands, hsound.filed, ?_⟩
  intro vid rid names switch past
  exact (g.add_outcome vid rid names switch past).leaves hsound

/-- A driver of a switch with two buckets for each interface, one of which cannot be read. -/
def twoBuckets (failing : RowKey) : Driver
  | .attributes .. => .ok ["2"]
  | .switchOf _ => 0x21000000000000
  | request => StatsGroup.rowFails failing request

/-- Two interfaces with two buckets each, the second of which is registered again under an id with
a bucket that cannot be read. -/
theorem interfaces_tracked_whole_two_interfaces :
    let spec := { GroupSpec.stats "DASH Meter Bucket Counter" .eniStat
        "DASH_METER_COUNTER_ID_LIST" none with content := .meterBuckets, usesCapabilities := false }
    let names := ["SAI_METER_BUCKET_ENTRY_STAT_OUTBOUND_BYTES"]
    let switch : Switch := .unchanging (twoBuckets (.bucket 0x21000000000000 0x103 1))
    let start := MeterGroup.initial (GroupSettings.initial spec "ENIS")
    let g := ((start.perform (.addMany [1, 2] [0x101, 0x102] names none)).run switch []).value
    let after := ((g.add 2 0x103 names).run switch []).value
    g.vids = [1, 2] ∧ (∃ ids p, g.partitions.get? ids = some p ∧ p.holds 2 = true) ∧
      (∃ switch ids, g.StandsIn switch 1 0x101 ids ∧ g.OnlyIn 1 ids) ∧
      g.rowsOf 2 = bucketRows 0x21000000000000 2 0x102 2 ∧
      g.Leaves 0x21000000000000 2 0x103 after ∧ after.vids = [1] ∧ after.rowsOf 2 = [] := by
  intro spec names switch start g after
  have hreached : g.Reachable := .perform _ switch [] (.initial _)
  obtain ⟨htracked, hstands, -, hleaves⟩ := interfaces_tracked_whole hreached
  have hvids : g.vids = [1, 2] := by decide +kernel
  refine ⟨hvids, (htracked 2).mp ?_, hstands 1 0x101 ?_, ?_, hleaves 2 0x103 names switch [], ?_,
    ?_⟩
  · rw [hvids]
    decide
  · decide +kernel
  · decide +kernel
  · decide +kernel
  · decide +kernel

end Histories

end MeterGroup

end CounterPolling
