import CounterPolling.Instance.Basic

/-!
# Configuring an instance

Configuration arrives as fields, each a name with a value. A field is read into a setting
first, and a setting is then brought into force. A field that cannot be read is reported
and passed over.
-/

namespace CounterPolling

/-- The field of the read mode, for an instance and for a registration. -/
def modeField : String := "STATS_MODE"

/-- What a configuration field asks for. -/
inductive Setting
  /-- Poll at an interval of some milliseconds. -/
  | interval (milliseconds : Nat)
  /-- Switch polling on or off. -/
  | enabled (value : Bool)
  /-- Read in a mode. -/
  | mode (value : ReadMode)
  /-- Read rows in chunks of a size. -/
  | chunkSize (value : Nat)
  /-- Read rows in chunks of sizes chosen by counter prefix. -/
  | prefixes (value : PrefixConfig)
  /-- Run plugins after the passes of a group. -/
  | plugins (spec : GroupSpec) (names : List String)
  deriving DecidableEq

namespace Setting

/-- Reads the status of polling. -/
def readStatus (value : String) : Except ConfigError Bool :=
  if value = "enable" then .ok true
  else if value = "disable" then .ok false
  else .error (.invalidStatus value)

/-- Reads a number, or refuses the value. -/
def readWord (refusal : String → ConfigError) (value : String) : Except ConfigError Nat :=
  match Text.word? value with
  | some n => .ok n
  | none => .error (refusal value)

/-- Reads a read mode, or refuses the value. -/
def readMode (value : String) : Except ConfigError ReadMode :=
  match ReadMode.ofName? value with
  | some found => .ok found
  | none => .error (.invalidMode value)

/-- Reads a field; the event says why it is refused. -/
def ofField (field value : String) : Except InstanceNotice Setting :=
  if field = "POLL_INTERVAL" then
    ((readWord .invalidInterval value).map interval).mapError .refused
  else if field = "FLEX_COUNTER_STATUS" then
    ((readStatus value).map enabled).mapError .refused
  else if field = modeField then
    ((readMode value).map mode).mapError .refused
  else if field = "BULK_CHUNK_SIZE" then
    ((readWord .invalidChunkSize value).map chunkSize).mapError .refused
  else if field = "BULK_CHUNK_SIZE_PER_PREFIX" then
    ((PrefixConfig.parse value).map prefixes).mapError .refused
  else
    match GroupSpec.ofPluginField? field with
    | some spec => .ok (plugins spec (Text.pieces ',' value))
    | none => .error (.unknownField field)

end Setting

namespace Instance

/-- The refusals of the groups that cannot take chunk sizes by prefix, in order. -/
def prefixRefusals (i : Instance) (prefixes : PrefixConfig) : List ConfigError :=
  i.groups.values.filterMap fun g =>
    match g.withPrefixes prefixes with
    | .error refusal => some refusal
    | .ok _ => none

/--
Brings chunk sizes by prefix into force in each group that can take them. Groups to come
take them only if every present one did.
-/
def withPrefixes (i : Instance) (prefixes : PrefixConfig) : Instance :=
  { i.mapGroups (fun g => ((g.withPrefixes prefixes).toOption).getD g) with
    prefixes := if (i.prefixRefusals prefixes).isEmpty then prefixes else i.prefixes }

/-- Brings a setting into force. -/
def apply (i : Instance) : Setting → Instance
  | .interval milliseconds => { i with interval := milliseconds }
  | .enabled value => { i with enabled := value }
  | .mode value => { i.mapGroups (Group.withMode value) with mode := value }
  | .chunkSize value => { i.mapGroups (Group.withChunkSize value) with chunkSize := some value }
  | .prefixes value => i.withPrefixes value
  | .plugins spec names => i.putGroup spec ((i.groupFor spec).withPlugins names)

/-- The events that bringing a setting into force reports. -/
def eventsOf (i : Instance) : Setting → List InstanceNotice
  | .enabled true => [.enabled]
  | .enabled false => [.disabled]
  | .prefixes value => (i.prefixRefusals value).map .refused
  | .interval _ | .mode _ | .chunkSize _ | .plugins .. => []

/-- The instance after a field, and the events that the field gives rise to. -/
def applyField (i : Instance) (field : String × String) : Instance × List InstanceNotice :=
  match Setting.ofField field.1 field.2 with
  | .ok setting => (i.apply setting, i.eventsOf setting)
  | .error refusal => (i, [refusal])

/-- Configures an instance, field by field. -/
def configure (i : Instance) (fields : List (String × String)) : Dialogue Instance :=
  Dialogue.carry
    (fun i field => do
      let (after, events) := i.applyField field
      Dialogue.each i.report events
      return after)
    i fields

end Instance

end CounterPolling
