/-!
# Configuration errors

What can be wrong with a configuration field. A field in error is reported and not brought into
force; only chunk sizes by prefix may come into force in some groups and be refused by others.
-/

namespace CounterPolling

/-- Why a configuration value is refused. -/
inductive ConfigError
  /-- The poll interval is no 32-bit number. -/
  | invalidInterval (value : String)
  /-- The status is neither of the two known ones. -/
  | invalidStatus (value : String)
  /-- The read mode is neither of the two known ones. -/
  | invalidMode (value : String)
  /-- The chunk size is no 32-bit number. -/
  | invalidChunkSize (value : String)
  /-- The chunk sizes by counter prefix are malformed. -/
  | invalidPrefixConfig (value : String)
  /-- No group takes the field for this kind of object. -/
  | unknownGroup (subject : String)
  /-- The partitions of a group hold different objects and cannot be merged. -/
  | conflictingPartitions (group : String)
  deriving DecidableEq

namespace ConfigError

/-- The wording of an error. -/
def message : ConfigError → String
  | invalidInterval value => "Invalid poll interval: " ++ value
  | invalidStatus value => "Invalid counter status: " ++ value
  | invalidMode value => "Invalid stats mode: " ++ value
  | invalidChunkSize value => "Invalid bulk chunk size: " ++ value
  | invalidPrefixConfig value => "Invalid bulk chunk size per prefix: " ++ value
  | unknownGroup subject => "Unknown counter group: " ++ subject
  | conflictingPartitions group =>
    "Cannot merge bulk partitions of " ++ group ++ ": object sets differ"

end ConfigError

end CounterPolling
