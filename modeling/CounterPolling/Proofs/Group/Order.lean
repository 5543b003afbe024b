import CounterPolling.Proofs.Counter.Rewording
import CounterPolling.Proofs.Group.Findings
import CounterPolling.Proofs.Group.Regrouping
import CounterPolling.Proofs.Group.Repetition

/-!
# The order of registrations

Where counters are found out alike for all objects, registrations of different objects come to the
same in any order: which counters are found supported is promised from the start, and tracking two
objects anew in either order leaves the same rows under each key, up to their order. Main
statements: `agree_renew_renew`, and `registrations_in_any_order` for whole sequences.
-/

namespace CounterPolling

variable {family : CounterFamily} {driver : Driver}

namespace StatsGroup

variable {g g' g'' : StatsGroup family} {p q : Placement family} {vid vid' : ObjectId}

/-- The groups track the same objects by themselves, and have the same rows under each key, be it in
another order. What they have found out may differ. -/
structure Agree (g g' : StatsGroup family) : Prop where
  settings : g.settings = g'.settings
  singles : g.singles = g'.singles
  rowsAt : ∀ key, (g.partitions.rowsAt key).Perm (g'.partitions.rowsAt key)

namespace Agree

theorem refl (g : StatsGroup family) : g.Agree g := ⟨rfl, rfl, fun _ => .refl _⟩

theorem symm (h : g.Agree g') : g'.Agree g :=
  ⟨h.settings.symm, h.singles.symm, fun key => (h.rowsAt key).symm⟩

theorem trans (h : g.Agree g') (h' : g'.Agree g'') : g.Agree g'' where
  settings := h.settings.trans h'.settings
  singles := h.singles.trans h'.singles
  rowsAt key := (h.rowsAt key).trans (h'.rowsAt key)

theorem of_sameRows (h : g.SameRows g') : g.Agree g' :=
  ⟨h.settings, h.singles, fun key => .of_eq (h.rowsAt key)⟩

theorem withDiscovery (g : StatsGroup family) (discovery : Discovery family) :
    Agree { g with discovery := discovery } g :=
  ⟨rfl, rfl, fun _ => .refl _⟩

theorem untrack (h : g.Agree g') (vid : ObjectId) : (g.untrack vid).Agree (g'.untrack vid) where
  settings := by rw [settings_untrack, settings_untrack, h.settings]
  singles := by rw [singles_untrack, singles_untrack, h.singles]
  rowsAt key := by
    rw [rowsAt_untrack, rowsAt_untrack, h.singles]
    split
    · exact h.rowsAt key
    · exact (h.rowsAt key).filter _

theorem put (h : g.Agree g') (p : Placement family) :
    (g.put p.bulk p.vid p.registration).Agree (g'.put p.bulk p.vid p.registration) where
  settings := by rw [settings_put, settings_put, h.settings]
  singles := by
    cases p.bulk with
    | true => exact h.singles
    | false => exact congrArg (SortedMap.insert · p.vid p.registration) h.singles
  rowsAt key := by
    cases p.bulk with
    | true =>
      change ((g.putBulk p.vid p.registration).partitions.rowsAt key).Perm
        ((g'.putBulk p.vid p.registration).partitions.rowsAt key)
      rw [rowsAt_putBulk, rowsAt_putBulk, h.settings]
      exact (h.rowsAt key).append_right _
    | false => exact h.rowsAt key

theorem renew (h : g.Agree g') (p : Placement family) : (g.renew p).Agree (g'.renew p) :=
  (h.untrack p.vid).put p

theorem foldl_renew (h : g.Agree g') (placements : List (Placement family)) :
    (placements.foldl StatsGroup.renew g).Agree (placements.foldl StatsGroup.renew g') := by
  induction placements generalizing g g' with
  | nil => exact h
  | cons p rest ih => exact ih (h.renew p)

end Agree

section Diamond

/-- Two objects may be dropped in either order. -/
theorem sameRows_untrack_untrack (g : StatsGroup family) (vid vid' : ObjectId) :
    ((g.untrack vid).untrack vid').SameRows ((g.untrack vid').untrack vid) where
  settings := by simp only [settings_untrack]
  discovery := by simp only [discovery_untrack]
  singles := by
    rw [singles_untrack, singles_untrack, singles_untrack, singles_untrack, SortedMap.erase_comm]
  rowsAt key := by
    by_cases hsame : vid = vid'
    · rw [hsame]
    · have hcontains : ∀ {vid vid' : ObjectId}, vid ≠ vid' →
          (g.untrack vid).singles.contains vid' = g.singles.contains vid' := by
        intro vid vid' hne
        rw [Bool.eq_iff_iff, contains_untrack]
        exact and_iff_right (Ne.symm hne)
      simp only [rowsAt_untrack, hcontains hsame, hcontains (Ne.symm hsame)]
      split
      · rfl
      · split
        · rfl
        · rw [List.filter_comm]

/-- Two objects may be placed in either order, and stand in that order where they share a key. -/
theorem agree_put_put (g : StatsGroup family) (h : p.vid ≠ q.vid) :
    ((g.put p.bulk p.vid p.registration).put q.bulk q.vid q.registration).Agree
      ((g.put q.bulk q.vid q.registration).put p.bulk p.vid p.registration) where
  settings := by simp only [settings_put]
  singles := by
    cases p.bulk with
    | true => cases q.bulk <;> rfl
    | false =>
      cases q.bulk with
      | true => rfl
      | false => exact g.singles.insert_comm h p.registration q.registration
  rowsAt key := by
    cases p.bulk with
    | false => cases q.bulk <;> exact .refl _
    | true =>
      cases q.bulk with
      | false => exact .refl _
      | true =>
        change (((g.putBulk p.vid p.registration).putBulk q.vid
            q.registration).partitions.rowsAt key).Perm
          (((g.putBulk q.vid q.registration).putBulk p.vid p.registration).partitions.rowsAt key)
        rw [rowsAt_putBulk, rowsAt_putBulk, rowsAt_putBulk, rowsAt_putBulk, List.append_assoc,
          List.append_assoc]
        exact List.perm_append_comm.append_left _

/-- Two objects may be tracked anew in either order. -/
theorem agree_renew_renew (g : StatsGroup family) (h : p.vid ≠ q.vid) :
    ((g.renew p).renew q).Agree ((g.renew q).renew p) := by
  have hdrop : ∀ {p q : Placement family}, p.vid ≠ q.vid →
      ((g.renew p).renew q).Agree ((((g.untrack p.vid).untrack q.vid).put p.bulk p.vid
        p.registration).put q.bulk q.vid q.registration) := by
    intro p q hne
    exact (Agree.of_sameRows ((g.untrack p.vid).sameRows_untrack_put p hne)).put q
  have huntracked := Agree.of_sameRows (g.sameRows_untrack_untrack p.vid q.vid)
  exact ((hdrop h).trans (((huntracked.put p).put q).trans (agree_put_put _ h))).trans
    (hdrop h.symm).symm

/-- Placements of different objects may be made in any order. -/
theorem agree_foldl_renew_of_perm {placements placements' : List (Placement family)}
    (h : placements.Perm placements') (hnodup : (placements.map Placement.vid).Nodup)
    (g : StatsGroup family) : (placements.foldl renew g).Agree (placements'.foldl renew g) := by
  induction h generalizing g with
  | nil => exact .refl g
  | cons p _ ih => exact ih (List.nodup_cons.mp hnodup).2 (g.renew p)
  | swap p q rest =>
    have hne : q.vid ≠ p.vid := by
      obtain ⟨hfirst, -⟩ := List.nodup_cons.mp hnodup
      exact fun heq => hfirst (heq ▸ List.mem_cons_self)
    exact (g.agree_renew_renew hne).foldl_renew rest
  | trans hfirst _ ih ih' =>
    exact (ih hnodup g).trans (ih' ((hfirst.map Placement.vid).nodup_iff.mp hnodup) g)

end Diamond

end StatsGroup

/-- Lists whose members are related one by one have the same image under what does not tell related
members apart. -/
theorem map_eq_of_forall₂ {α β : Type} {R : α → α → Prop} {f : α → β} {list list' : List α}
    (h : List.Forall₂ R list list') (hf : ∀ a b, R a b → f a = f b) : list.map f = list'.map f := by
  rw [← List.forall₂_eq_eq_eq, List.forall₂_map_left_iff, List.forall₂_map_right_iff]
  exact h.imp hf

/-- A call that registers one object. -/
structure AddCall where
  vid : ObjectId
  rid : ObjectId
  names : List String
  asked : Option ReadMode
  deriving DecidableEq

/-- The calls are the same but for the words of their lists of names. -/
structure AddCall.SaysAs (family : CounterFamily) (call call' : AddCall) : Prop where
  vid_eq : call.vid = call'.vid
  rid_eq : call.rid = call'.rid
  asked_eq : call.asked = call'.asked
  names : Rewords family call.names call'.names

namespace StatsGroup

variable {g g' : StatsGroup family} {mode : ReadMode} {calls calls' : List AddCall}

/-- Registers objects one after the other, each with counters of its own. -/
def addAll (g : StatsGroup family) (calls : List AddCall) : Dialogue (StatsGroup family) :=
  Dialogue.carry (fun g call => g.add call.vid call.rid call.names call.asked) g calls

/-- The placement that a call comes to, if it finds a counter to read. -/
def placementOf (g : StatsGroup family) (driver : Driver) (mode : ReadMode) (call : AddCall) :
    List (Placement family) :=
  g.placements driver (g.chosen driver call.rid mode call.names) (g.settings.objectMode call.asked)
    [(call.vid, call.rid)]

/-- Where the same is promised, a call comes to the same in other words. -/
theorem placementOf_eq (hsettings : g'.settings = g.settings)
    (hpromises : ∀ object id, g'.Promises driver object mode id ↔ g.Promises driver object mode id)
    {call call' : AddCall} (h : call.SaysAs family call') :
    g'.placementOf driver mode call' = g.placementOf driver mode call := by
  obtain ⟨vid, rid, names, asked⟩ := call
  obtain ⟨vid', rid', names', asked'⟩ := call'
  obtain ⟨rfl, rfl, rfl, hnames⟩ := h
  unfold placementOf
  dsimp only
  rw [chosen_eq (hpromises _) fun id => (hnames.mem_requested_iff id).symm, hsettings,
    placements_congr hsettings]

theorem vids_placementOf_sublist (g : StatsGroup family) (driver : Driver) (mode : ReadMode)
    (calls : List AddCall) :
    ((calls.flatMap (g.placementOf driver mode)).map Placement.vid).Sublist
      (calls.map AddCall.vid) := by
  induction calls with
  | nil => exact .refl _
  | cons call rest ih =>
    rw [List.flatMap_cons, List.map_append]
    have hfirst : ((g.placementOf driver mode call).map Placement.vid).Sublist [call.vid] := by
      unfold placementOf placements
      split
      · exact List.nil_sublist _
      · exact .refl _
    exact hfirst.append ih

/-- What calls come to is placing their objects as was settled before the first of them. -/
theorem valueWith_addAll (halike : driver.SupportsAlike g.kind family.kind)
    (hmode : ∀ call ∈ calls, g.settings.modeFor call.asked = mode) :
    ((g.addAll calls).valueWith driver).Agree
      ((calls.flatMap (g.placementOf driver mode)).foldl renew g) := by
  induction calls generalizing g with
  | nil => exact .refl g
  | cons call rest ih =>
    obtain ⟨hfirst, hrest⟩ := List.forall_mem_cons.mp hmode
    let known := g.learnt driver call.rid mode call.names
    let next := (g.placementOf driver mode call).foldl renew { g with discovery := known }
    have hadd : (g.add call.vid call.rid call.names call.asked).valueWith driver = next := by
      have hvalue := g.valueWith_add driver call.vid call.rid call.names call.asked
      rw [hfirst] at hvalue
      exact hvalue
    have hsettings : next.settings = g.settings :=
      foldl_keeps StatsGroup.settings settings_renew _ _
    have hdiscovery : next.discovery = known :=
      foldl_keeps StatsGroup.discovery discovery_renew _ _
    have hkind : next.kind = g.kind := congrArg (fun settings => settings.spec.kind) hsettings
    have hpromises : ∀ object id,
        next.Promises driver object mode id ↔ g.Promises driver object mode id := by
      intro object id
      rw [promises_congr (hkind ▸ halike) object call.rid, promises_congr halike object call.rid]
      exact promises_learnt hsettings hdiscovery
    have hplacements : next.placementOf driver mode = g.placementOf driver mode := by
      funext other
      exact placementOf_eq hsettings hpromises ⟨rfl, rfl, rfl, .reorder (.refl _)⟩
    have hlater := ih (g := next) (hkind ▸ halike) fun other hother =>
      (congrArg (·.modeFor other.asked) hsettings).trans (hrest other hother)
    rw [hplacements] at hlater
    rw [addAll, Dialogue.carry, Dialogue.valueWith_bind, hadd, List.flatMap_cons,
      List.foldl_append]
    exact hlater.trans (((Agree.withDiscovery g known).foldl_renew _).foldl_renew _)

section Histories

/-- A state that commands bring a group to, with any answers of the driver; they may register an
object more than once. -/
inductive Attained : StatsGroup family → Prop
  | initial (settings : GroupSettings) : Attained (StatsGroup.initial settings)
  | perform {g : StatsGroup family} (command : GroupCommand) (switch : Switch)
    (past : List Event) : Attained g → Attained ((g.perform command).run switch past).value

theorem Attained.filed (h : g.Attained) : g.Filed := by
  induction h with
  | initial settings => exact PartitionTable.filedWith_empty _ _
  | perform command switch past _ ih =>
    rw [value_perform]
    exact ih.conclude ((decideOn_always _ command).value switch past)

theorem Attained.addAll (h : g.Attained) (driver : Driver) (calls : List AddCall) :
    ((g.addAll calls).valueWith driver).Attained := by
  unfold StatsGroup.addAll
  induction calls generalizing g with
  | nil => exact h
  | cons call rest ih =>
    rw [Dialogue.carry, Dialogue.valueWith_bind]
    exact ih (h.perform (.add call.vid call.rid call.names call.asked) _ _)

end Histories

/-- Rightly filed partitions with the same rows under each key have the same keys and names. -/
theorem Agree.names_eq (h : g.Agree g') (hfiled : g.Filed) (hfiled' : g'.Filed)
    (key : PartitionKey family) :
    (g.partitions.get? key).map Partition.name = (g'.partitions.get? key).map Partition.name := by
  have hrows := h.rowsAt key
  have habsent : ∀ {table : PartitionTable family}, table.get? key = none →
      table.rowsAt key = [] := by
    intro table hnone
    rw [PartitionTable.rowsAt, hnone]
    rfl
  cases hp : g.partitions.get? key with
  | none =>
    cases hp' : g'.partitions.get? key with
    | none => rfl
    | some p' =>
      rw [habsent hp, PartitionTable.rowsAt_eq hp'] at hrows
      exact absurd hrows.nil_eq.symm (hfiled' key p' hp').1.rows_ne_nil
  | some p =>
    cases hp' : g'.partitions.get? key with
    | none =>
      rw [habsent hp', PartitionTable.rowsAt_eq hp] at hrows
      exact absurd hrows.eq_nil (hfiled key p hp).1.rows_ne_nil
    | some p' =>
      obtain ⟨hfits, -⟩ := hfiled key p hp
      obtain ⟨hfits', -⟩ := hfiled' key p' hp'
      obtain ⟨c, hname, hclass⟩ := hfits.one_class
      obtain ⟨c', hname', hclass'⟩ := hfits'.one_class
      obtain ⟨id, hid⟩ := List.exists_mem_of_ne_nil _ hfits.ids_ne_nil
      rw [← h.settings] at hname' hclass'
      rw [Option.map_some, Option.map_some, hname, hname', ← hclass id hid, ← hclass' id hid]

/-- With a driver that never changes and tells of all objects alike which counters are supported,
registrations of different objects in one effective mode may come in any order, and their lists of
names in other words: the same objects are tracked by themselves, with the same counters, there are
the same partitions under the same names, and each has the same rows. -/
theorem registrations_in_any_order (h : g.Attained)
    (halike : driver.SupportsAlike g.kind family.kind)
    (hmode : ∀ call ∈ calls, g.settings.modeFor call.asked = mode)
    (hvids : (calls.map AddCall.vid).Nodup) {reordered : List AddCall}
    (hperm : calls.Perm reordered)
    (hreworded : List.Forall₂ (AddCall.SaysAs family) reordered calls') :
    let after := (g.addAll calls).valueWith driver
    let after' := (g.addAll calls').valueWith driver
    after.singles = after'.singles ∧
      (∀ key, (after.partitions.get? key).map Partition.name =
        (after'.partitions.get? key).map Partition.name) ∧
      ∀ key, (after.partitions.rowsAt key).Perm (after'.partitions.rowsAt key) := by
  intro after after'
  have hasked : reordered.map AddCall.asked = calls'.map AddCall.asked :=
    map_eq_of_forall₂ hreworded fun _ _ hsays => hsays.asked_eq
  have hmode' : ∀ call ∈ calls', g.settings.modeFor call.asked = mode := by
    intro call' hcall'
    have hmem := hasked ▸ List.mem_map_of_mem hcall'
    obtain ⟨call, hcall, heq⟩ := List.mem_map.mp hmem
    rw [← heq]
    exact hmode call (hperm.mem_iff.mpr hcall)
  have hplacements : reordered.flatMap (g.placementOf driver mode) =
      calls'.flatMap (g.placementOf driver mode) := by
    rw [List.flatMap_def, List.flatMap_def]
    exact congrArg List.flatten (map_eq_of_forall₂ hreworded fun _ _ hsays =>
      (placementOf_eq rfl (fun _ _ => Iff.rfl) hsays).symm)
  have hagree : after.Agree after' := by
    have hnodup := (g.vids_placementOf_sublist driver mode calls).nodup hvids
    have hsame := agree_foldl_renew_of_perm (hperm.flatMap_right _) hnodup g
    rw [hplacements] at hsame
    exact ((valueWith_addAll halike hmode).trans hsame).trans (valueWith_addAll halike hmode').symm
  refine ⟨hagree.singles, fun key => ?_, hagree.rowsAt⟩
  exact hagree.names_eq (h.addAll driver calls).filed (h.addAll driver calls').filed key

/-- Two ports that come to a third one, in either order and in other words. -/
theorem registrations_in_any_order_two_ports :
    let settings : GroupSettings :=
      { GroupSettings.initial (GroupSpec.stats "Port Counter" .portStat "PORT_COUNTER_ID_LIST" none)
          "PORTS" with
        prefixes := ⟨[⟨["SAI_PORT_STAT_IF_IN"], 1⟩]⟩ }
    let rules : BulkRules := ⟨fun _ => False, fun _ _ => True, fun _ _ => 7⟩
    let octetsIn := "SAI_PORT_STAT_IF_IN_OCTETS"
    let octetsOut := "SAI_PORT_STAT_IF_OUT_OCTETS"
    let g := ((initial settings : StatsGroup .portStat).perform
      (.add 3 0x103 [octetsIn] none)).valueWith rules.driver
    let after := (g.addAll [⟨1, 0x101, [octetsIn], none⟩,
      ⟨2, 0x102, [octetsIn, octetsOut], none⟩]).valueWith rules.driver
    let after' := (g.addAll [⟨2, 0x102, ["OCTETS", " " ++ octetsOut ++ "  ", octetsIn, octetsIn],
      none⟩, ⟨1, 0x101, [octetsIn], none⟩]).valueWith rules.driver
    after.partitions.values.map Partition.vids = [[3, 1, 2], [2]] ∧
      after'.partitions.values.map Partition.vids = [[3, 2, 1], [2]] ∧
      after.singles = after'.singles ∧
      (∀ key, (after.partitions.get? key).map Partition.name =
        (after'.partitions.get? key).map Partition.name) ∧
      ∀ key, (after.partitions.rowsAt key).Perm (after'.partitions.rowsAt key) := by
  intro settings rules octetsIn octetsOut g after after'
  refine ⟨by decide +kernel, by decide +kernel, ?_⟩
  have hattained : g.Attained := .perform _ _ _ (.initial settings)
  have hpadded : Rewords .portStat [octetsOut, octetsIn, octetsIn]
      [" " ++ octetsOut ++ "  ", octetsIn, octetsIn] :=
    .pad octetsOut _ (List.all_eq_true.mp (by decide +kernel))
      (List.all_eq_true.mp (by decide +kernel))
  have hsays : Rewords .portStat [octetsIn, octetsOut]
      ["OCTETS", " " ++ octetsOut ++ "  ", octetsIn, octetsIn] :=
    (Rewords.repeated octetsIn [octetsOut]).trans
      ((Rewords.reorder (by decide)).trans (hpadded.trans (.unknown _ (by decide +kernel))))
  have hreworded : List.Forall₂ (AddCall.SaysAs .portStat)
      [⟨2, 0x102, [octetsIn, octetsOut], none⟩, ⟨1, 0x101, [octetsIn], none⟩]
      [⟨2, 0x102, ["OCTETS", " " ++ octetsOut ++ "  ", octetsIn, octetsIn], none⟩,
        ⟨1, 0x101, [octetsIn], none⟩] :=
    .cons ⟨rfl, rfl, rfl, hsays⟩ (.cons ⟨rfl, rfl, rfl, .reorder (.refl _)⟩ .nil)
  exact registrations_in_any_order hattained (rules.supportsAlike_driver g.kind _)
    (by decide +kernel : ∀ call ∈ ([⟨1, 0x101, [octetsIn], none⟩,
      ⟨2, 0x102, [octetsIn, octetsOut], none⟩] : List AddCall),
        g.settings.modeFor call.asked = .read)
    (by decide) (.swap _ _ _) hreworded

end StatsGroup

end CounterPolling
