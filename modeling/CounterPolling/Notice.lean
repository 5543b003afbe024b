import CounterPolling.ConfigError
import CounterPolling.Counter.Family
import CounterPolling.Object.Id
import CounterPolling.Switch.Status

/-!
# Notices

What polling reports to the log. A notice is the event it reports; the wording follows
from it.
-/

namespace CounterPolling

/-- How serious a notice is. -/
inductive Severity
  | error
  | warning
  | info
  deriving DecidableEq

/-- An event inside one counter group. -/
inductive GroupNotice
  /-- The capability list could not be had, so counters are tried one by one. -/
  | capabilitiesUnknown (error : DriverError)
  /-- None of the counters asked for can be read. -/
  | nothingSupported (vid : ObjectId)
  /-- None of the counters asked for can be read, on any of a number of objects. -/
  | nothingSupportedByAll (objects : Nat)
  /-- The lists of a bulk registration differ in length. -/
  | unevenLists (vids rids : Nat)
  /-- An object to remove is not there. -/
  | notTracked (vid : ObjectId)
  /-- A read answered with a wrong number of values. -/
  | unevenRead (vid : ObjectId) (values counters : Nat)
  /-- A read failed. -/
  | readFailed (vid : ObjectId) (error : DriverError)
  /-- Counters were read and could not be cleared. -/
  | clearFailed (vid : ObjectId) (error : DriverError)
  /-- None of the attributes asked for is known. -/
  | noKnownAttribute (vid : ObjectId)
  /-- An attribute read answered with a wrong number of values. -/
  | unevenAttributes (vid : ObjectId) (values ids : Nat)
  /-- An attribute read failed. -/
  | attributesFailed (vid : ObjectId) (error : DriverError)
  /-- The switch has no meter buckets, or does not tell how many. -/
  | noBuckets (vid : ObjectId)
  /-- Some meter buckets cannot be read. -/
  | bucketsFailed (vid : ObjectId) (failed total : Nat)
  /-- Meter buckets cannot be read in bulk. -/
  | bucketsUnsupported (vid : ObjectId) (error : DriverError)
  deriving DecidableEq

namespace GroupNotice

/-- How serious an event inside a group is. -/
def severity : GroupNotice → Severity
  | capabilitiesUnknown .. | nothingSupported .. | nothingSupportedByAll .. | notTracked ..
  | noKnownAttribute .. => .info
  | unevenRead .. | readFailed .. | clearFailed .. | unevenAttributes ..
  | attributesFailed .. => .warning
  | unevenLists .. | noBuckets .. | bucketsFailed .. | bucketsUnsupported .. => .error

/-- The wording of an event, which follows the name of the group. -/
def text : GroupNotice → String
  | capabilitiesUnknown error =>
    " capability query failed (" ++ error.message ++ "), probing counters"
  | nothingSupported vid =>
    " has no supported counters for " ++ vid.text ++ ", not tracking"
  | nothingSupportedByAll objects =>
    " has no supported counters for " ++ toString objects ++ " objects, not tracking"
  | unevenLists vids rids =>
    " bulk add with " ++ toString vids ++ " vids but " ++ toString rids ++ " rids"
  | notTracked vid => " is not tracking " ++ vid.text ++ ", nothing to remove"
  | unevenRead vid values counters =>
    " read of " ++ vid.text ++ " returned " ++ toString values ++ " values for " ++
      toString counters ++ " counters"
  | readFailed vid error => " failed to read " ++ vid.text ++ ": " ++ error.message
  | clearFailed vid error => " failed to clear " ++ vid.text ++ ": " ++ error.message
  | noKnownAttribute vid =>
    " got no known attributes for " ++ vid.text ++ ", not tracking"
  | unevenAttributes vid values ids =>
    " got " ++ toString values ++ " attribute values for " ++ toString ids ++ " ids of " ++
      vid.text
  | attributesFailed vid error =>
    " failed to get attributes of " ++ vid.text ++ ": " ++ error.message
  | noBuckets vid => " has no meter buckets for " ++ vid.text ++ ", not tracking"
  | bucketsFailed vid failed total =>
    " bulk read failed on " ++ toString failed ++ " of " ++ toString total ++
      " meter buckets of " ++ vid.text
  | bucketsUnsupported vid error =>
    " bulk read of meter buckets unsupported for " ++ vid.text ++ ": " ++ error.message

end GroupNotice

/-- An event of one polling instance. -/
inductive InstanceNotice
  /-- A configuration value is refused. -/
  | refused (error : ConfigError)
  /-- Polling is switched on. -/
  | enabled
  /-- Polling is switched off. -/
  | disabled
  /-- A configuration field has an unknown name. -/
  | unknownField (field : String)
  /-- A virtual id tells no known kind of object. -/
  | kindUnknown (vid : ObjectId)
  /-- The lists of a bulk registration differ in length. -/
  | unevenLists (kind : ObjectKind) (vids rids : Nat)
  /-- A registration asks for an unknown read mode. -/
  | invalidObjectMode (value field : String)
  /-- The group needs a read mode with every registration. -/
  | modeNeeded (group modeField field : String)
  /-- A registration asks for no counters. -/
  | nothingAsked (field group : String)
  /-- No group of the instance tracks objects of this kind. -/
  | noGroup (kind : ObjectKind) (vid : ObjectId)
  /-- The number of meter buckets of a switch could not be read. -/
  | bucketCountUnknown (switch : ObjectId) (error : DriverError)
  /-- The instance begins. -/
  | opened
  /-- The instance ends. -/
  | closed
  /-- There is no instance of this name. -/
  | unknownInstance
  deriving DecidableEq

namespace InstanceNotice

/-- How serious an event of an instance is. -/
def severity : InstanceNotice → Severity
  | enabled | disabled | nothingAsked .. | noGroup .. | opened | closed
  | unknownInstance => .info
  | refused .. | unknownField .. | kindUnknown .. | unevenLists .. | invalidObjectMode ..
  | modeNeeded .. | bucketCountUnknown .. => .error

/-- The wording of an event, which follows the name of the instance. -/
def text : InstanceNotice → String
  | refused error => error.message
  | enabled => "enabled"
  | disabled => "disabled"
  | unknownField field => "unknown configuration field " ++ field
  | kindUnknown vid => "cannot derive object type of " ++ vid.text
  | unevenLists kind vids rids =>
    "bulk add of " ++ kind.name ++ " with " ++ toString vids ++ " vids but " ++
      toString rids ++ " rids"
  | invalidObjectMode value field =>
    (ConfigError.invalidMode value).message ++ " (" ++ field ++ ")"
  | modeNeeded group modeField field =>
    group ++ " needs " ++ modeField ++ " alongside " ++ field
  | nothingAsked field group => "empty " ++ field ++ " for " ++ group ++ ", skipping"
  | noGroup kind vid =>
    "no group tracks " ++ kind.name ++ " objects, nothing to remove for " ++ vid.text
  | bucketCountUnknown switch error =>
    "failed to read meter bucket count of switch " ++ switch.text ++ ": " ++ error.message
  | opened => "flex counter instance created"
  | closed => "flex counter instance removed"
  | unknownInstance => "no such flex counter instance"

end InstanceNotice

/-- An event worth reporting. -/
inductive Notice
  /-- A list of counters holds a name that its family does not know. -/
  | unknownCounter (family : CounterFamily) (name : String)
  /-- A bulk read of the rows from one position up to another failed. -/
  | bulkReadFailed (kind : ObjectKind) (first past : Nat) (partition : String)
      (error : DriverError)
  /-- An event inside a group of an instance. -/
  | ofGroup (owner group : String) (event : GroupNotice)
  /-- An event of an instance. -/
  | ofInstance (owner : String) (event : InstanceNotice)
  deriving DecidableEq

namespace Notice

/-- How serious a notice is. -/
def severity : Notice → Severity
  | unknownCounter .. => .error
  | bulkReadFailed .. => .warning
  | ofGroup _ _ event => event.severity
  | ofInstance _ event => event.severity

/-- The wording of a notice. -/
def text : Notice → String
  | unknownCounter family name => "Unknown " ++ family.name ++ " name: " ++ name
  | bulkReadFailed kind first past partition error =>
    kind.name ++ ": bulk get of " ++ toString (past - first) ++ " rows [" ++
      toString first ++ ".." ++ toString past ++ ") in partition " ++ partition ++
      " failed: " ++ error.message
  | ofGroup owner group event => owner ++ ": " ++ group ++ event.text
  | ofInstance owner event => owner ++ ": " ++ event.text

end Notice

end CounterPolling
