import CounterPolling.Switch.ReadMode
import CounterPolling.Text.Document
import CounterPolling.Text.Unsigned

/-!
# Profiles

A profile holds what every instance of a process starts from: the names that plugins are
handed, and the settings in force until an instance is configured.
-/

namespace CounterPolling

/-- What the instances of a process have in common. -/
structure Profile where
  /-- The database of the counters, for plugins. -/
  database : String
  /-- The table of the counters, for plugins. -/
  table : String
  /-- The poll interval in milliseconds before one is configured. -/
  interval : Nat
  /-- The read mode before one is configured. -/
  mode : ReadMode
  /-- How the names of scheduler threads begin. -/
  threadName : String
  deriving DecidableEq

namespace Profile

/-- The profile of a process that was told nothing. -/
def standard : Profile where
  database := "COUNTERS_DB"
  table := "COUNTERS"
  interval := 0
  mode := default
  threadName := "flexcnt"

instance : Inhabited Profile := ⟨standard⟩

/-- Reads a profile from its members, each of which may be missing. -/
def ofMembers? (database table interval mode threadName : Option Document) :
    Option Profile := do
  let database ← Document.readOr standard.database Document.text? database
  let table ← Document.readOr standard.table Document.text? table
  let interval ←
    Document.readOr standard.interval (Document.below? Text.wordLimit) interval
  let mode ←
    Document.readOr standard.mode (fun d => d.choice?.bind ReadMode.ofName?) mode
  let threadName ← Document.readOr standard.threadName Document.text? threadName
  return ⟨database, table, interval, mode, threadName⟩

/--
Reads a profile from a record, in which unknown members are passed over, or from a list
of its members in order, the last of which may be missing.
-/
def ofDocument? : Document → Option Profile
  | .record members =>
    ofMembers? (Document.member? members "counters_db")
      (Document.member? members "counters_table")
      (Document.member? members "poll_interval_ms")
      (Document.member? members "stats_mode")
      (Document.member? members "thread_name_prefix")
  | .list members =>
    if members.length ≤ 5 then
      ofMembers? members[0]? members[1]? members[2]? members[3]? members[4]?
    else none
  | _ => none

/-- Writes a profile as a record of all its members. -/
def toDocument (profile : Profile) : Document :=
  .record
    [("counters_db", .text profile.database),
      ("counters_table", .text profile.table),
      ("poll_interval_ms", .whole profile.interval),
      ("stats_mode", .text profile.mode.name),
      ("thread_name_prefix", .text profile.threadName)]

end Profile

end CounterPolling
