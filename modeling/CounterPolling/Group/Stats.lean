import CounterPolling.Group.Discovery
import CounterPolling.Partition.Merge
import CounterPolling.Partition.Sweep

/-!
# Groups of counters

A group of counters tracks objects in two ways. Objects that can be read in bulk share
partitions, divided by counter prefix; the others are read one at a time. Where an object
belongs is decided by a trial when it registers.
-/

namespace CounterPolling

/-- What is read for an object that is read by itself. -/
structure Registration (family : CounterFamily) where
  /-- The driver's id of the object. -/
  rid : ObjectId
  /-- The counters read. -/
  ids : List (CounterId family)
  /-- The read mode that the object came with, if it did. -/
  mode : Option ReadMode
  deriving DecidableEq

/-- The objects of a group of counters, and how they are read. -/
structure StatsGroup (family : CounterFamily) where
  /-- What the group was told. -/
  settings : GroupSettings
  /-- What the group has found out. -/
  discovery : Discovery family
  /-- The objects that are read one at a time. -/
  singles : SortedMap ObjectId (Registration family)
  /-- The objects that are read in bulk. -/
  partitions : PartitionTable family
  deriving DecidableEq

/-- The row of an object in a bulk read. -/
def objectRow (vid rid : ObjectId) : Row := ⟨vid, .object rid⟩

/-- The members of one list whose status in the other is no success. -/
def failedAmong (vids : List ObjectId) (statuses : List Status) : List ObjectId :=
  (vids.zip statuses).filterMap fun entry =>
    if entry.2.isSuccess then none else some entry.1

namespace StatsGroup

variable {family : CounterFamily}

/-- A group that tracks nothing. -/
def initial (settings : GroupSettings) : StatsGroup family :=
  ⟨settings, Discovery.initial, ∅, ∅⟩

/-- The kind of the group's objects. -/
def kind (g : StatsGroup family) : ObjectKind := g.settings.spec.kind

/-- Whether an object is tracked, in either way. -/
def tracks (g : StatsGroup family) (vid : ObjectId) : Bool :=
  g.singles.contains vid || g.partitions.holds vid

/-- Whether any object is tracked. -/
def tracksAny (g : StatsGroup family) : Bool :=
  !g.singles.isEmpty || g.partitions.any fun _ p => !p.isEmpty

/-- The objects tracked, ascending. -/
def vids (g : StatsGroup family) : List ObjectId :=
  SortedSet.toList
    (SortedSet.ofList (g.singles.keys ++ g.partitions.values.flatMap Partition.vids))

/-- Drops an object from where it is tracked. -/
def untrack (g : StatsGroup family) (vid : ObjectId) : StatsGroup family :=
  if g.singles.contains vid then { g with singles := g.singles.erase vid }
  else { g with partitions := g.partitions.remove vid }

/-- Tracks an object by itself. -/
def putSingle (g : StatsGroup family) (vid : ObjectId) (registration : Registration family) :
    StatsGroup family :=
  { g with singles := g.singles.insert vid registration }

/-- Adds an object to the partitions that its counters divide into. -/
def putBulk (g : StatsGroup family) (vid : ObjectId) (registration : Registration family) :
    StatsGroup family :=
  let shares := g.settings.prefixes.split g.settings.chunkSize registration.ids
  { g with
    partitions :=
      g.partitions.addShares registration.mode [objectRow vid registration.rid] shares }

/-- Tracks an object in the way that the outcome of its trial allows. -/
def put (g : StatsGroup family) (bulk : Bool) (vid : ObjectId)
    (registration : Registration family) : StatsGroup family :=
  if bulk then g.putBulk vid registration else g.putSingle vid registration

/-- Tries to read a counter of an object, and to clear it in the mode that clears. -/
def attempt (g : StatsGroup family) (rid : ObjectId) (mode : ReadMode)
    (id : CounterId family) : Dialogue Bool := do
  match ← Dialogue.question (.read g.kind rid [id.raw]) with
  | .error _ => return false
  | .ok _ =>
    match mode with
    | .read => return true
    | .readAndClear =>
      match ← Dialogue.question (.clear g.kind rid [id.raw]) with
      | .error _ => return false
      | .ok _ => return true

/-- Finds out which of the counters asked for can be read, with one object as the example. -/
def discover (g : StatsGroup family) (rid : ObjectId) (names : List String)
    (mode : ReadMode) : Dialogue (StatsGroup family × List (CounterId family)) := do
  let requested ← readRequested family names
  let discovery ←
    Discovery.refresh g.settings rid mode (g.attempt rid mode) requested g.discovery
  return ({ g with discovery := discovery }, discovery.select requested)

/-- Tracks an object as a trial of its own decides. -/
def place (g : StatsGroup family) (vid : ObjectId) (registration : Registration family) :
    Dialogue (StatsGroup family) := do
  let mode := g.settings.modeFor registration.mode
  let trial ←
    tryBulkRead g.kind [.object registration.rid] (CounterId.raws registration.ids) mode
  return g.put (trialPasses trial) vid registration

/-- Registers an object, in place of an earlier registration. -/
def add (g : StatsGroup family) (vid rid : ObjectId) (names : List String)
    (asked : Option ReadMode) : Dialogue (StatsGroup family) := do
  let own := g.settings.objectMode asked
  let (g, ids) ← g.discover rid names (g.settings.modeFor own)
  if ids.isEmpty then
    g.settings.report (.nothingSupported vid)
    return g
  else (g.untrack vid).place vid ⟨rid, ids, own⟩

/-- Tries each share over all objects; the objects that must be tried by themselves. -/
def trySharesTogether (g : StatsGroup family) (mode : ReadMode) (vids : List ObjectId)
    (keys : List RowKey) : List (Share family) → Dialogue (List ObjectId)
  | [] => return []
  | share :: shares => do
    match ← tryBulkRead g.kind keys (CounterId.raws share.ids) mode with
    | .error _ => return vids
    | .ok statuses =>
      return failedAmong vids statuses ++ (← trySharesTogether g mode vids keys shares)

/-- Registers objects with the same counters, tried together first. -/
def addMany (g : StatsGroup family) (vids rids : List ObjectId) (names : List String)
    (asked : Option ReadMode) : Dialogue (StatsGroup family) := do
  if vids.length ≠ rids.length then
    g.settings.report (.unevenLists vids.length rids.length)
    return g
  else
    match rids with
    | [] => return g
    | first :: _ =>
      let own := g.settings.objectMode asked
      let mode := g.settings.modeFor own
      let (g, ids) ← g.discover first names mode
      if ids.isEmpty then
        g.settings.report (.nothingSupportedByAll vids.length)
        return g
      else
        let g := vids.foldl untrack g
        let shares := g.settings.prefixes.split g.settings.chunkSize ids
        let alone ← g.trySharesTogether mode vids (rids.map RowKey.object) shares
        Dialogue.carry
          (fun g entry =>
            let registration : Registration family := ⟨entry.2, ids, own⟩
            if alone.contains entry.1 then g.place entry.1 registration
            else return g.putBulk entry.1 registration)
          g (vids.zip rids)

/-- Stops tracking an object. -/
def remove (g : StatsGroup family) (vid : ObjectId) : Dialogue (StatsGroup family) := do
  if g.tracks vid then return g.untrack vid
  else
    g.settings.report (.notTracked vid)
    return g

/-- Stops tracking every object. -/
def withoutObjects (g : StatsGroup family) : StatsGroup family :=
  { g with singles := ∅, partitions := ∅ }

/-- Reads one object by itself and writes its row. -/
def pollSingle (g : StatsGroup family) (vid : ObjectId)
    (registration : Registration family) : Dialogue Unit := do
  let raws := CounterId.raws registration.ids
  match ← Dialogue.question (.read g.kind registration.rid raws) with
  | .error error => g.settings.report (.readFailed vid error)
  | .ok values =>
    if values.length ≠ raws.length then
      g.settings.report (.unevenRead vid values.length raws.length)
    else
      match g.settings.modeFor registration.mode with
      | .read => pure ()
      | .readAndClear =>
        match ← Dialogue.question (.clear g.kind registration.rid raws) with
        | .error error => g.settings.report (.clearFailed vid error)
        | .ok _ => pure ()
      Dialogue.output (.row vid.text (rowFields registration.ids values))

/-- Reads a partition and writes a row for each of its rows that was read. -/
def pollPartition (g : StatsGroup family) (mode : Option ReadMode)
    (p : Partition family) : Dialogue Sweep :=
  p.sweep g.kind (g.settings.modeFor mode) fun reading =>
    Dialogue.output (.row reading.row.vid.text (rowFields p.ids reading.values))

/-- Reads every object and writes its rows. -/
def poll (g : StatsGroup family) : Dialogue Unit := do
  Dialogue.each (fun entry => g.pollSingle entry.1 entry.2) g.singles.entries
  Dialogue.each
    (fun entry => do
      let _ ← g.pollPartition entry.1.mode entry.2)
    g.partitions.entries

/-- Changes the chunk size of counters that no prefix covers. -/
def withChunkSize (g : StatsGroup family) (chunkSize : Nat) : StatsGroup family :=
  { g with
    settings := { g.settings with chunkSize := chunkSize }
    partitions := g.partitions.resize fun name =>
      if name = defaultShare then some chunkSize else none }

/--
Brings chunk sizes by prefix into force. With the prefixes in force already only sizes
change; otherwise the partitions are merged and divided anew, if they can be merged.
-/
def withPrefixes (g : StatsGroup family) (prefixes : PrefixConfig) :
    Except ConfigError (StatsGroup family) :=
  let settings := { g.settings with prefixes := prefixes }
  if PrefixConfig.DivideAlike g.settings.prefixes prefixes then
    .ok { g with settings, partitions := g.partitions.resize prefixes.sizeNamed? }
  else
    match g.partitions.merge? g.settings.prefixes with
    | none => .error (.conflictingPartitions g.settings.spec.name)
    | some sets =>
      .ok { g with
        settings
        partitions := PartitionTable.ofWholeSets prefixes settings.chunkSize sets }

end StatsGroup

end CounterPolling
