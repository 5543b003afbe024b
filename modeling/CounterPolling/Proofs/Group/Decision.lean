import CounterPolling.Group.Stats
import CounterPolling.Proofs.Data.Membership
import CounterPolling.Proofs.Dialogue.Branches
import CounterPolling.Proofs.Chunking.Classes

/-!
# Deciding and carrying out registrations

A registration first asks the driver, and then changes the group. The questions lead to a
decision: what was found out, which counters are supported, and which way each object is to
be tracked. Carrying a decision out asks nothing. Main statements: `add_eq` and
`addMany_eq`, by which registering is deciding and then carrying out.
-/

namespace CounterPolling

/-- What every step of a fold keeps, the fold keeps. -/
theorem foldl_keeps {α β γ : Type} (field : β → γ) {step : β → α → β}
    (h : ∀ b a, field (step b a) = field b) (list : List α) (start : β) :
    field (list.foldl step start) = field start := by
  induction list generalizing start with
  | nil => rfl
  | cons a rest ih => rw [List.foldl_cons, ih, h]

/-- The names asked for are told by themselves which counters are meant. -/
theorem readRequested_always (family : CounterFamily) (names : List String) :
    (readRequested family names).Always (· = family.requested names) :=
  Dialogue.always_bind_of_forall fun _ => rfl

/-- The way that an object is to be tracked. -/
structure Placement (family : CounterFamily) where
  vid : ObjectId
  registration : Registration family
  /-- Whether the object is read in bulk. -/
  bulk : Bool

/-- The object of a placement with what is read for it. -/
def Placement.entry {family : CounterFamily} (p : Placement family) :
    ObjectId × Registration family :=
  (p.vid, p.registration)

/-- What the questions of a registration lead to. -/
structure Decision (family : CounterFamily) where
  /-- What is known about the family afterwards. -/
  discovery : Discovery family
  /-- The supported ones of the counters asked for. -/
  supported : List (CounterId family)
  /-- The objects to be tracked, in the order of the registration. -/
  placements : List (Placement family)

namespace StatsGroup

variable {family : CounterFamily}

/-- Tries to read an object in bulk, by itself. -/
def trial (g : StatsGroup family) (registration : Registration family) : Dialogue Bool := do
  let outcome ← tryBulkRead g.kind [.object registration.rid]
    (CounterId.raws registration.ids) (g.settings.modeFor registration.mode)
  return trialPasses outcome

/-- Decides on the registration of one object. -/
def decideAdd (g : StatsGroup family) (vid rid : ObjectId) (names : List String)
    (asked : Option ReadMode) : Dialogue (Decision family) := do
  let own := g.settings.objectMode asked
  let (known, ids) ← g.discover rid names (g.settings.modeFor own)
  if ids.isEmpty then
    g.settings.report (.nothingSupported vid)
    return ⟨known.discovery, [], []⟩
  else
    let bulk ← g.trial ⟨rid, ids, own⟩
    return ⟨known.discovery, ids, [⟨vid, ⟨rid, ids, own⟩, bulk⟩]⟩

/-- Decides on each of a number of objects, with a trial of its own for some of them. -/
def decideEach (g : StatsGroup family) (ids : List (CounterId family)) (own : Option ReadMode)
    (alone : List ObjectId) : List (ObjectId × ObjectId) → Dialogue (List (Placement family))
  | [] => return []
  | object :: rest => do
    let bulk ← if alone.contains object.1 then g.trial ⟨object.2, ids, own⟩ else pure true
    let later ← decideEach g ids own alone rest
    return ⟨object.1, ⟨object.2, ids, own⟩, bulk⟩ :: later

/-- Decides on the registration of objects with the same counters. -/
def decideAddMany (g : StatsGroup family) (vids rids : List ObjectId) (names : List String)
    (asked : Option ReadMode) : Dialogue (Decision family) := do
  if vids.length ≠ rids.length then
    g.settings.report (.unevenLists vids.length rids.length)
    return ⟨g.discovery, [], []⟩
  else
    match rids with
    | [] => return ⟨g.discovery, [], []⟩
    | first :: _ =>
      let own := g.settings.objectMode asked
      let mode := g.settings.modeFor own
      let (known, ids) ← g.discover first names mode
      if ids.isEmpty then
        g.settings.report (.nothingSupportedByAll vids.length)
        return ⟨known.discovery, [], []⟩
      else
        let shares := g.settings.prefixes.split g.settings.chunkSize ids
        let alone ← g.trySharesTogether mode vids (rids.map RowKey.object) shares
        let placements ← g.decideEach ids own alone (vids.zip rids)
        return ⟨known.discovery, ids, placements⟩

/-- Stops tracking each of a number of objects. -/
def untrackAll (g : StatsGroup family) (vids : List ObjectId) : StatsGroup family :=
  vids.foldl untrack g

/-- Tracks objects the way that was decided, one after the other. -/
def settle (g : StatsGroup family) (placements : List (Placement family)) : StatsGroup family :=
  placements.foldl (fun g p => g.put p.bulk p.vid p.registration) g

/-- Carries a decision out: earlier registrations are dropped before new ones are made. -/
def carryOut (g : StatsGroup family) (decision : Decision family) : StatsGroup family :=
  ({ g with discovery := decision.discovery }.untrackAll
    (decision.placements.map Placement.vid)).settle decision.placements

section Settings

variable (g : StatsGroup family)

@[simp]
theorem settings_untrack (vid : ObjectId) : (g.untrack vid).settings = g.settings := by
  unfold untrack
  split <;> rfl

@[simp]
theorem settings_put (bulk : Bool) (vid : ObjectId) (registration : Registration family) :
    (g.put bulk vid registration).settings = g.settings := by
  cases bulk <;> rfl

@[simp]
theorem discovery_untrack (vid : ObjectId) : (g.untrack vid).discovery = g.discovery := by
  unfold untrack
  split <;> rfl

@[simp]
theorem discovery_put (bulk : Bool) (vid : ObjectId) (registration : Registration family) :
    (g.put bulk vid registration).discovery = g.discovery := by
  cases bulk <;> rfl

@[simp]
theorem settings_untrackAll (vids : List ObjectId) :
    (g.untrackAll vids).settings = g.settings :=
  foldl_keeps StatsGroup.settings settings_untrack vids g

@[simp]
theorem discovery_untrackAll (vids : List ObjectId) :
    (g.untrackAll vids).discovery = g.discovery :=
  foldl_keeps StatsGroup.discovery discovery_untrack vids g

@[simp]
theorem settings_settle (placements : List (Placement family)) :
    (g.settle placements).settings = g.settings :=
  foldl_keeps StatsGroup.settings (fun _ _ => settings_put _ _ _ _) placements g

@[simp]
theorem discovery_settle (placements : List (Placement family)) :
    (g.settle placements).discovery = g.discovery :=
  foldl_keeps StatsGroup.discovery (fun _ _ => discovery_put _ _ _ _) placements g

@[simp]
theorem settings_carryOut (decision : Decision family) :
    (g.carryOut decision).settings = g.settings := by
  rw [carryOut, settings_settle, settings_untrackAll]

@[simp]
theorem discovery_carryOut (decision : Decision family) :
    (g.carryOut decision).discovery = decision.discovery := by
  rw [carryOut, discovery_settle, discovery_untrackAll]

theorem trial_congr {g h : StatsGroup family} (hsettings : g.settings = h.settings)
    (registration : Registration family) : g.trial registration = h.trial registration := by
  simp only [trial, kind, hsettings]

theorem trySharesTogether_congr {g h : StatsGroup family} (hsettings : g.settings = h.settings)
    (mode : ReadMode) (vids : List ObjectId) (keys : List RowKey)
    (shares : List (Share family)) :
    g.trySharesTogether mode vids keys shares = h.trySharesTogether mode vids keys shares := by
  induction shares with
  | nil => rfl
  | cons share shares ih =>
    have hkind : g.kind = h.kind := congrArg (fun settings => settings.spec.kind) hsettings
    rw [trySharesTogether, trySharesTogether, ih, hkind]

theorem decideEach_congr {g h : StatsGroup family} (hsettings : g.settings = h.settings)
    (ids : List (CounterId family)) (own : Option ReadMode) (alone : List ObjectId)
    (objects : List (ObjectId × ObjectId)) :
    g.decideEach ids own alone objects = h.decideEach ids own alone objects := by
  induction objects with
  | nil => rfl
  | cons object rest ih => rw [decideEach, decideEach, ih, trial_congr hsettings]

end Settings

/-- Every object of a list is decided on, in order, with the counters and mode given. -/
theorem decideEach_always (g : StatsGroup family) (ids : List (CounterId family))
    (own : Option ReadMode) (alone : List ObjectId) (objects : List (ObjectId × ObjectId)) :
    (g.decideEach ids own alone objects).Always fun placements =>
      placements.map Placement.entry =
        objects.map fun object => (object.1, ⟨object.2, ids, own⟩) := by
  induction objects with
  | nil => rfl
  | cons object rest ih =>
    rw [decideEach]
    have hlater : ∀ bulk, (g.decideEach ids own alone rest >>= fun later =>
        pure (⟨object.1, ⟨object.2, ids, own⟩, bulk⟩ :: later)).Always fun placements =>
          placements.map Placement.entry =
            (object :: rest).map fun object => (object.1, ⟨object.2, ids, own⟩) := by
      intro bulk
      rw [Dialogue.always_bind]
      refine ih.mono fun later hlater => ?_
      rw [Dialogue.always_pure, List.map_cons, List.map_cons, hlater, Placement.entry]
    split
    · rw [Dialogue.always_bind]
      exact Dialogue.always_of_forall hlater _
    · exact hlater true

theorem carryOut_nil (g : StatsGroup family) (discovery : Discovery family)
    (supported : List (CounterId family)) :
    g.carryOut ⟨discovery, supported, []⟩ = { g with discovery := discovery } := rfl

/-- What finding out changes is what is known. -/
theorem discover_eq (g : StatsGroup family) (rid : ObjectId) (names : List String)
    (mode : ReadMode) :
    g.discover rid names mode = do
      let requested ← readRequested family names
      let discovery ← Discovery.refresh g.settings rid mode (g.attempt rid mode) requested
        g.discovery
      return ({ g with discovery := discovery }, discovery.select requested) := rfl

theorem place_eq (g : StatsGroup family) (vid : ObjectId) (registration : Registration family) :
    g.place vid registration = do
      return g.put (← g.trial registration) vid registration := by
  simp [place, trial]

/-- Registering an object is deciding and then carrying out. -/
theorem add_eq (g : StatsGroup family) (vid rid : ObjectId) (names : List String)
    (asked : Option ReadMode) :
    g.add vid rid names asked = do
      return g.carryOut (← g.decideAdd vid rid names asked) := by
  simp only [add, decideAdd, discover_eq, bind_assoc, pure_bind]
  congr 1
  funext requested
  congr 1
  funext discovery
  split
  · simp [GroupSettings.report, carryOut_nil]
  · rw [place_eq, trial_congr (settings_untrack _ _)]
    simp only [bind_assoc, pure_bind]
    rfl

/-- Trying and tracking objects in turn is deciding on all of them and then tracking them. -/
theorem carry_place_eq (g : StatsGroup family) (ids : List (CounterId family))
    (own : Option ReadMode) (alone : List ObjectId) (objects : List (ObjectId × ObjectId))
    (start : StatsGroup family) (hstart : start.settings = g.settings) :
    Dialogue.carry
        (fun g (entry : ObjectId × ObjectId) =>
          let registration : Registration family := ⟨entry.2, ids, own⟩
          if alone.contains entry.1 then g.place entry.1 registration
          else return g.putBulk entry.1 registration)
        start objects =
      (do return start.settle (← g.decideEach ids own alone objects)) := by
  induction objects generalizing start with
  | nil => rfl
  | cons object rest ih =>
    have hput : ∀ bulk, (start.put bulk object.1 ⟨object.2, ids, own⟩).settings = g.settings :=
      fun bulk => (settings_put start _ _ _).trans hstart
    rw [Dialogue.carry, decideEach]
    by_cases halone : alone.contains object.1 = true
    · rw [if_pos halone, place_eq, trial_congr hstart]
      simp only [if_pos halone, bind_assoc, pure_bind]
      exact congrArg _ (funext fun bulk => ih _ (hput bulk))
    · simp only [if_neg halone, pure_bind, bind_assoc]
      exact ih _ (hput true)

/-- Registering objects together is deciding and then carrying out. -/
theorem addMany_eq (g : StatsGroup family) (vids rids : List ObjectId) (names : List String)
    (asked : Option ReadMode) :
    g.addMany vids rids names asked = do
      return g.carryOut (← g.decideAddMany vids rids names asked) := by
  unfold addMany decideAddMany
  by_cases hlength : vids.length = rids.length
  · rw [if_neg (not_not.mpr hlength), if_neg (not_not.mpr hlength)]
    cases rids with
    | nil => simp [carryOut_nil]
    | cons first rest =>
      simp only [discover_eq, bind_assoc, pure_bind]
      refine congrArg _ (funext fun requested => ?_)
      refine congrArg _ (funext fun discovery => ?_)
      split
      · simp [GroupSettings.report, carryOut_nil]
      · simp only [bind_assoc, pure_bind]
        have hsame : (({ g with discovery } : StatsGroup family).untrackAll vids).settings =
            g.settings := settings_untrackAll _ vids
        have hkind := trySharesTogether_congr hsame
        unfold untrackAll at hsame hkind
        rw [hkind, hsame]
        refine congrArg _ (funext fun alone => ?_)
        rw [carry_place_eq _ _ _ _ _ _ rfl, decideEach_congr hsame]
        refine (decideEach_always g _ _ alone _).bind_congr fun placements hplacements => ?_
        have hvids : placements.map Placement.vid = vids := by
          have hfst := congrArg (List.map Prod.fst) hplacements
          rw [List.map_map, List.map_map] at hfst
          exact hfst.trans (List.map_fst_zip hlength.le)
        rw [carryOut, hvids]
        rfl
  · rw [if_pos hlength, if_pos hlength]
    simp [GroupSettings.report, carryOut_nil]

end StatsGroup

end CounterPolling
