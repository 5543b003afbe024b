import CounterPolling.Counter.Family

/-!
# Specifications of counter groups

A counter group polls one kind of object for the counters or attributes of one family.
Its specification says which configuration fields feed it and how it finds out what can
be read.
-/

namespace CounterPolling

/-- What a group polls. -/
inductive GroupContent
  /-- Counters, in bulk where possible and one object at a time otherwise. -/
  | stats (family : CounterFamily)
  /-- Attributes, one object at a time. -/
  | attributes (family : CounterFamily)
  /-- The counters of the meter buckets of network interfaces, in bulk. -/
  | meterBuckets
  deriving DecidableEq

/-- The specification of a group. -/
structure GroupSpec where
  /-- The name of the group in messages. -/
  name : String
  /-- The kind of the objects that register with the group. -/
  kind : ObjectKind
  /-- The field that lists the counters to poll for an object. -/
  idField : String
  /-- The field that lists the plugins of the group, if it takes any. -/
  pluginField : Option String
  /-- What the group polls. -/
  content : GroupContent
  /-- Whether an object may come with a read mode of its own. -/
  perObjectMode : Bool
  /-- Whether the driver's capability list is asked for. -/
  usesCapabilities : Bool
  /-- Whether every registration finds out anew what can be read. -/
  rediscovers : Bool
  /-- Whether counters once found readable stay so when found out anew. -/
  keepsSupported : Bool
  deriving DecidableEq

namespace GroupSpec

/-- A group of counters that asks for capabilities, once. -/
def stats (name : String) (family : CounterFamily) (idField : String)
    (pluginField : Option String) : GroupSpec where
  name := name
  kind := family.kind
  idField := idField
  pluginField := pluginField
  content := .stats family
  perObjectMode := false
  usesCapabilities := true
  rediscovers := false
  keepsSupported := false

/-- A group of attributes. -/
def attributes (name : String) (family : CounterFamily) (idField : String) : GroupSpec :=
  { stats name family idField none with
    content := .attributes family
    usesCapabilities := false }

end GroupSpec

end CounterPolling
