import CounterPolling.Group.Discovery
import CounterPolling.Partition.Sweep
import CounterPolling.Partition.Table

/-!
# Groups of meter buckets

Each network interface of a metering switch has one bucket for every meter class. The
buckets are read in bulk only: an interface whose buckets fail their trial is not
tracked. Most buckets count nothing, and only those that count something get a row.
-/

namespace CounterPolling

/-- The counters of meter buckets. -/
abbrev BucketCounter : Type := CounterId .meterBucketStat

/-- The switch attribute that tells how many buckets an interface has. -/
def bucketCountAttribute : String :=
  "SAI_SWITCH_ATTR_DASH_CAPS_MAX_METER_BUCKET_COUNT_PER_ENI"

/-- The number of the attribute that tells how many buckets an interface has. -/
def bucketCountIds : List Int :=
  (CounterFamily.rawOf? .switchAttribute bucketCountAttribute).toList

/-- The keys of the buckets of an interface, one for each meter class. -/
def eniBuckets (switch eni : ObjectId) (count : Nat) : List RowKey :=
  (List.range count).map fun meterClass => .bucket switch eni meterClass

/-- The network interfaces whose meter buckets are read. -/
structure MeterGroup where
  /-- What the group was told. -/
  settings : GroupSettings
  /-- What the group has found out. -/
  discovery : Discovery .meterBucketStat
  /-- Buckets of an interface, by switch. -/
  countsBySwitch : SortedMap ObjectId Nat
  /-- The interfaces, with the driver's ids of them. -/
  interfaces : SortedMap ObjectId ObjectId
  /-- The rows of all buckets, by counters read. -/
  partitions : SortedMap (List BucketCounter) (Partition .meterBucketStat)
  deriving DecidableEq

namespace MeterGroup

/-- A group that tracks nothing. -/
def initial (settings : GroupSettings) : MeterGroup :=
  ⟨settings, Discovery.initial, ∅, ∅, ∅⟩

/-- The interfaces tracked, ascending. -/
def vids (g : MeterGroup) : List ObjectId := g.interfaces.keys

/-- Drops an interface with the rows of its buckets. -/
def untrack (g : MeterGroup) (vid : ObjectId) : MeterGroup :=
  if g.interfaces.contains vid then
    { g with
      interfaces := g.interfaces.erase vid
      partitions := (g.partitions.map fun _ p => p.remove vid).filter fun _ p => !p.isEmpty }
  else g

/-- Finds out how many buckets an interface of a switch has; asked once for each switch. -/
def askBucketCount (g : MeterGroup) (switch : ObjectId) :
    Dialogue (MeterGroup × Option Nat) := do
  match g.countsBySwitch.get? switch with
  | some count => return (g, some count)
  | none =>
    match ← Dialogue.question (.attributes .switch switch bucketCountIds) with
    | .error error =>
      Dialogue.report (.ofInstance g.settings.owner (.bucketCountUnknown switch error))
      return (g, none)
    | .ok values =>
      match values.head?.bind Text.word? with
      | none => return (g, none)
      | some count =>
        return ({ g with countsBySwitch := g.countsBySwitch.insert switch count }, some count)

/-- Tries to read a counter of the first bucket of an interface. -/
def attempt (g : MeterGroup) (switch rid : ObjectId) (id : BucketCounter) :
    Dialogue Bool := do
  let trial ← tryBulkRead .meterBucket [.bucket switch rid 0] [id.raw] g.settings.mode
  return trialPasses trial

/-- Tracks an interface with all of its buckets. -/
def put (g : MeterGroup) (vid rid : ObjectId) (ids : List BucketCounter)
    (keys : List RowKey) : MeterGroup :=
  let present := (g.partitions.get? ids).getD ⟨defaultShare, g.settings.chunkSize, ids, []⟩
  { g with
    interfaces := g.interfaces.insert vid rid
    partitions := g.partitions.insert ids (present.addRows (keys.map (⟨vid, ·⟩))) }

/-- Tries all buckets of an interface, and tracks it if every one can be read. -/
def place (g : MeterGroup) (switch vid rid : ObjectId) (ids : List BucketCounter)
    (count : Nat) : Dialogue MeterGroup := do
  let keys := eniBuckets switch rid count
  match ← tryBulkRead .meterBucket keys (CounterId.raws ids) g.settings.mode with
  | .error error =>
    g.settings.report (.bucketsUnsupported vid error)
    return g
  | .ok statuses =>
    if statuses.all Status.isSuccess then return g.put vid rid ids keys
    else
      let failed := statuses.countP fun status => !status.isSuccess
      g.settings.report (.bucketsFailed vid failed statuses.length)
      return g

/-- Registers an interface whose switch has some number of buckets for it. -/
def addWithBuckets (g : MeterGroup) (switch vid rid : ObjectId) (names : List String)
    (count : Nat) : Dialogue MeterGroup := do
  let requested ← readRequested .meterBucketStat names
  let discovery ←
    Discovery.refresh g.settings rid g.settings.mode (g.attempt switch rid) requested
      g.discovery
  let g := { g with discovery := discovery }
  let ids := discovery.select requested
  if ids.isEmpty then
    g.settings.report (.nothingSupported vid)
    return g
  else (g.untrack vid).place switch vid rid ids count

/-- Registers an interface, in place of an earlier registration. -/
def add (g : MeterGroup) (vid rid : ObjectId) (names : List String) :
    Dialogue MeterGroup := do
  let switch ← Dialogue.question (.switchOf rid)
  let (g, count?) ← g.askBucketCount switch
  match count? with
  | some (count + 1) => g.addWithBuckets switch vid rid names (count + 1)
  | _ =>
    g.settings.report (.noBuckets vid)
    return g

/-- Stops tracking an interface. -/
def remove (g : MeterGroup) (vid : ObjectId) : Dialogue MeterGroup := do
  if g.interfaces.contains vid then return g.untrack vid
  else
    g.settings.report (.notTracked vid)
    return g

/-- Stops tracking every interface. -/
def withoutObjects (g : MeterGroup) : MeterGroup :=
  { g with interfaces := ∅, partitions := ∅ }

/-- The key of a bucket's row in the counters table. -/
def rowKey (vid : ObjectId) (meterClass : Nat) : String :=
  vid.text ++ ":" ++ toString meterClass

/-- Writes the row of a bucket that counted something. -/
def publish (ids : List BucketCounter) (reading : Reading) : Dialogue Unit :=
  if reading.values.all (· == 0) then pure ()
  else
    match reading.row.key with
    | .object _ => pure ()
    | .bucket _ _ meterClass =>
      Dialogue.output (.row (rowKey reading.row.vid meterClass) (rowFields ids reading.values))

/-- Reads every bucket and writes the rows of those that counted something. -/
def poll (g : MeterGroup) : Dialogue Unit :=
  Dialogue.each
    (fun entry => do
      let _ ← entry.2.sweep .meterBucket g.settings.mode (publish entry.2.ids))
    g.partitions.entries

/-- Changes the number of rows in one bulk read. -/
def withChunkSize (g : MeterGroup) (chunkSize : Nat) : MeterGroup :=
  { g with
    settings := { g.settings with chunkSize := chunkSize }
    partitions := g.partitions.map fun _ p => p.withChunkSize chunkSize }

end MeterGroup

end CounterPolling
