import CounterPolling.Chunking.PrefixConfig
import CounterPolling.Counter.Id
import CounterPolling.Data.SortedSet
import CounterPolling.Dialogue
import CounterPolling.Group.Spec

/-!
# Settings of a group

What a group is told from outside: its specification, the instance it belongs to, and
what has been configured for it.
-/

namespace CounterPolling

/-- The settings of a group inside an instance. -/
structure GroupSettings where
  /-- What the group is. -/
  spec : GroupSpec
  /-- The name of the instance that the group belongs to. -/
  owner : String
  /-- The read mode of objects that have none of their own. -/
  mode : ReadMode
  /-- The plugins to run after a pass. -/
  plugins : SortedSet String
  /-- Rows in one bulk read of counters that no prefix covers, zero for all at once. -/
  chunkSize : Nat
  /-- Chunk sizes by prefix. -/
  prefixes : PrefixConfig
  deriving DecidableEq

namespace GroupSettings

/-- The settings of a group that nothing has been configured for. -/
def initial (spec : GroupSpec) (owner : String) : GroupSettings where
  spec := spec
  owner := owner
  mode := default
  plugins := ∅
  chunkSize := 0
  prefixes := ∅

/-- The read mode of an object of its own, in groups that allow one. -/
def objectMode (settings : GroupSettings) (asked : Option ReadMode) : Option ReadMode :=
  asked.filter fun _ => settings.spec.perObjectMode

/-- The read mode in force for an object. -/
def modeFor (settings : GroupSettings) (asked : Option ReadMode) : ReadMode :=
  (settings.objectMode asked).getD settings.mode

/-- Registers plugins with the group. -/
def withPlugins (settings : GroupSettings) (plugins : List String) : GroupSettings :=
  { settings with plugins := SortedSet.addAll settings.plugins plugins }

/-- Reports an event inside the group. -/
def report (settings : GroupSettings) (event : GroupNotice) : Dialogue Unit :=
  Dialogue.report (.ofGroup settings.owner settings.spec.name event)

end GroupSettings

/-- The known counters that a list of names asks for; unknown names are reported. -/
def readRequested (family : CounterFamily) (names : List String) :
    Dialogue (List (CounterId family)) := do
  Dialogue.each (fun name => Dialogue.report (.unknownCounter family name))
    (family.unknownNames names)
  return family.requested names

/-- The fields of a row: names of counters with the values read. -/
def rowFields {family : CounterFamily} (ids : List (CounterId family))
    (values : List UInt64) : List (String × String) :=
  (CounterId.names ids).zip (values.map fun value => toString value.toNat)

end CounterPolling
