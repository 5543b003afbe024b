import CounterPolling.Group.Basic
import CounterPolling.Group.Registry
import CounterPolling.Instance.Profile

/-!
# Polling instances

An instance polls counter groups of its own at an interval of its own. Groups come into
being when a field first feeds them, with the settings then in force.
-/

namespace CounterPolling

/-- A polling instance. -/
structure Instance where
  /-- The name of the instance. -/
  name : String
  /-- What the instance started from. -/
  profile : Profile
  /-- Whether polling is switched on. -/
  enabled : Bool
  /-- The poll interval in milliseconds; zero means never. -/
  interval : Nat
  /-- The read mode of objects that have none of their own. -/
  mode : ReadMode
  /-- The chunk size, once one is configured. -/
  chunkSize : Option Nat
  /-- Chunk sizes by counter prefix. -/
  prefixes : PrefixConfig
  /-- The groups by name. -/
  groups : SortedMap String Group
  /-- Whether the plugins were removed, so that the instance may end when it is empty. -/
  retired : Bool
  /-- Passes made. -/
  passes : Nat
  deriving DecidableEq

namespace Instance

/-- An instance that nothing has been configured for. -/
def initial (name : String) (profile : Profile) : Instance where
  name := name
  profile := profile
  enabled := false
  interval := profile.interval
  mode := profile.mode
  chunkSize := none
  prefixes := ∅
  groups := ∅
  retired := false
  passes := 0

/-- Whether a pass makes sense: polling is on, at some interval, and there is an object. -/
def isReady (i : Instance) : Bool :=
  i.enabled && decide (0 < i.interval) && i.groups.values.any Group.tracksAny

/-- Whether no group has an object or a plugin. -/
def isEmpty (i : Instance) : Bool :=
  i.groups.values.all fun g => !g.tracksAny && !g.runsPlugins

/-- Whether the instance may end. -/
def mayEnd (i : Instance) : Bool :=
  i.retired && i.isEmpty

/-- Reports an event of the instance. -/
def report (i : Instance) (event : InstanceNotice) : Dialogue Unit :=
  Dialogue.report (.ofInstance i.name event)

/-- A group as it comes into being: with the settings of the instance, tracking nothing. -/
def newGroup (i : Instance) (spec : GroupSpec) : Group :=
  Group.initial
    { GroupSettings.initial spec i.name with
      mode := i.mode
      chunkSize := i.chunkSize.getD 0
      prefixes := i.prefixes }

/-- The group of a specification, new if the instance has none yet. -/
def groupFor (i : Instance) (spec : GroupSpec) : Group :=
  (i.groups.get? spec.name).getD (i.newGroup spec)

/-- Puts a group in its place. -/
def putGroup (i : Instance) (spec : GroupSpec) (g : Group) : Instance :=
  { i with groups := i.groups.insert spec.name g }

/-- Changes every group. -/
def mapGroups (i : Instance) (change : Group → Group) : Instance :=
  { i with groups := i.groups.map fun _ g => change g }

/-- What plugins are handed: the names of database and table, and the interval in microseconds. -/
def pluginArguments (i : Instance) : List String :=
  [i.profile.database, i.profile.table, toString (i.interval * 1000)]

/-- Makes one pass: every group is read, the rows are committed, then plugins run. -/
def pass (i : Instance) : Dialogue Instance := do
  Dialogue.each Group.poll i.groups.values
  Dialogue.output .flush
  Dialogue.each (fun g => g.runPlugins i.pluginArguments) i.groups.values
  return { i with passes := i.passes + 1 }

end Instance

end CounterPolling
