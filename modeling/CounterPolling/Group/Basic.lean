import CounterPolling.Group.Attributes
import CounterPolling.Group.MeterBuckets
import CounterPolling.Group.Stats

/-!
# Counter groups

A counter group is one of three: counters, attributes or meter buckets. What an instance
does with its groups it does with all three alike.
-/

namespace CounterPolling

/-- The objects of one counter group of an instance. -/
inductive Group
  | stats (family : CounterFamily) (group : StatsGroup family)
  | attributes (family : CounterFamily) (group : AttributeGroup family)
  | meterBuckets (group : MeterGroup)
  deriving DecidableEq

/-- What a partition looks like from outside its group. -/
structure PartitionView where
  /-- The share of a counter list that the partition stands for. -/
  name : String
  /-- Rows in one bulk read, zero for all at once. -/
  chunkSize : Nat
  /-- The names of the counters read. -/
  counters : List String
  /-- The object of each row. -/
  vids : List ObjectId
  deriving DecidableEq

/-- A partition as it looks from outside. -/
def Partition.view {family : CounterFamily} (p : Partition family) : PartitionView where
  name := p.name
  chunkSize := p.chunkSize
  counters := CounterId.names p.ids
  vids := p.vids

namespace Group

/-- A group with the given settings that tracks nothing. -/
def initial (settings : GroupSettings) : Group :=
  match settings.spec.content with
  | .stats family => stats family (StatsGroup.initial settings)
  | .attributes family => attributes family (AttributeGroup.initial settings)
  | .meterBuckets => meterBuckets (MeterGroup.initial settings)

/-- What the group was told. -/
def settings : Group → GroupSettings
  | stats _ g => g.settings
  | attributes _ g => g.settings
  | meterBuckets g => g.settings

/-- Changes what the group is told, objects untouched. -/
def mapSettings (change : GroupSettings → GroupSettings) : Group → Group
  | stats family g => stats family { g with settings := change g.settings }
  | attributes family g => attributes family { g with settings := change g.settings }
  | meterBuckets g => meterBuckets { g with settings := change g.settings }

/-- Registers an object. -/
def add (group : Group) (vid rid : ObjectId) (names : List String)
    (asked : Option ReadMode) : Dialogue Group :=
  match group with
  | stats family g => stats family <$> g.add vid rid names asked
  | attributes family g => attributes family <$> g.add vid rid names
  | meterBuckets g => meterBuckets <$> g.add vid rid names

/-- Registers objects one after the other. -/
def addEach (group : Group) (objects : List (ObjectId × ObjectId)) (names : List String)
    (asked : Option ReadMode) : Dialogue Group :=
  Dialogue.carry (fun g object => g.add object.1 object.2 names asked) group objects

/-- Registers objects that ask for the same counters. -/
def addMany (group : Group) (vids rids : List ObjectId) (names : List String)
    (asked : Option ReadMode) : Dialogue Group :=
  match group with
  | stats family g => stats family <$> g.addMany vids rids names asked
  | attributes .. | meterBuckets .. => group.addEach (vids.zip rids) names asked

/-- Stops tracking an object. -/
def remove (group : Group) (vid : ObjectId) : Dialogue Group :=
  match group with
  | stats family g => stats family <$> g.remove vid
  | attributes family g => attributes family <$> g.remove vid
  | meterBuckets g => meterBuckets <$> g.remove vid

/-- Stops tracking every object. -/
def withoutObjects : Group → Group
  | stats family g => stats family g.withoutObjects
  | attributes family g => attributes family g.withoutObjects
  | meterBuckets g => meterBuckets g.withoutObjects

/-- Reads every object and writes its rows. -/
def poll : Group → Dialogue Unit
  | stats _ g => g.poll
  | attributes _ g => g.poll
  | meterBuckets g => g.poll

/-- Whether any object is tracked. -/
def tracksAny : Group → Bool
  | stats _ g => g.tracksAny
  | attributes _ g => !g.objects.isEmpty
  | meterBuckets g => !g.interfaces.isEmpty

/-- The objects tracked, ascending. -/
def vids : Group → List ObjectId
  | stats _ g => g.vids
  | attributes _ g => g.vids
  | meterBuckets g => g.vids

/-- The objects that are read one at a time, ascending. -/
def singleVids : Group → List ObjectId
  | stats _ g => g.singles.keys
  | attributes _ g => g.vids
  | meterBuckets _ => []

/-- The partitions, in the order of their keys. -/
def partitions : Group → List PartitionView
  | stats _ g => g.partitions.values.map Partition.view
  | attributes .. => []
  | meterBuckets g => g.partitions.values.map Partition.view

/-- Changes the number of rows in one bulk read. -/
def withChunkSize (chunkSize : Nat) : Group → Group
  | stats family g => stats family (g.withChunkSize chunkSize)
  | attributes family g =>
    attributes family { g with settings := { g.settings with chunkSize := chunkSize } }
  | meterBuckets g => meterBuckets (g.withChunkSize chunkSize)

/-- Brings chunk sizes by prefix into force; only counters are divided by them. -/
def withPrefixes (prefixes : PrefixConfig) (group : Group) : Except ConfigError Group :=
  match group with
  | stats family g => stats family <$> g.withPrefixes prefixes
  | attributes .. | meterBuckets .. =>
    .ok (group.mapSettings fun settings => { settings with prefixes := prefixes })

/-- Changes the read mode of objects that have none of their own. -/
def withMode (mode : ReadMode) (group : Group) : Group :=
  group.mapSettings fun settings => { settings with mode := mode }

/-- Registers plugins with the group. -/
def withPlugins (plugins : List String) (group : Group) : Group :=
  group.mapSettings fun settings => settings.withPlugins plugins

/-- Drops every plugin. -/
def withoutPlugins (group : Group) : Group :=
  group.mapSettings fun settings => { settings with plugins := ∅ }

/-- Whether any plugin is registered. -/
def runsPlugins (group : Group) : Bool :=
  !group.settings.plugins.isEmpty

/-- Runs every plugin over the objects tracked, unless there are none. -/
def runPlugins (group : Group) (arguments : List String) : Dialogue Unit :=
  let objects := group.vids.map ObjectId.text
  if objects.isEmpty then pure ()
  else
    Dialogue.each (fun plugin => Dialogue.output (.plugin plugin objects arguments))
      (SortedSet.toList group.settings.plugins)

end Group

end CounterPolling
