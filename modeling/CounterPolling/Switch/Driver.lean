import CounterPolling.Object.Id
import CounterPolling.Switch.ReadMode
import CounterPolling.Switch.Status

/-!
# The switch driver

Everything learnt about a switch comes from six requests. A driver is the answer it
gives to each of them; each request fixes the type of its answer.
-/

namespace CounterPolling

/-- One line of a capability list: a counter and the modes it can be read in. -/
structure Capability where
  /-- The number of the counter. -/
  counter : Int
  /-- One bit for each mode. -/
  modes : Nat
  deriving DecidableEq

namespace Capability

/-- Whether the counter can be read in a mode. -/
def allows (capability : Capability) (mode : ReadMode) : Bool :=
  capability.modes.testBit mode.bit

end Capability

/--
What a successful bulk read writes: some of the status slots, one for each row, and some
of the counter slots, which run row by row.
-/
structure BulkFill where
  /-- What is written into the status slot of a row. -/
  status : Nat → Option Status
  /-- What is written into a counter slot. -/
  counter : Nat → Option UInt64

namespace BulkFill

/-- The statuses of the rows, where slots not written keep what they started with. -/
def statuses (fill : BulkFill) (start : Status) (rows : Nat) : List Status :=
  (List.range rows).map fun row => (fill.status row).getD start

/-- The counters of a row, where slots not written hold zero. -/
def counters (fill : BulkFill) (width row : Nat) : List UInt64 :=
  (List.range width).map fun column => (fill.counter (row * width + column)).getD 0

@[simp]
theorem length_statuses (fill : BulkFill) (start : Status) (rows : Nat) :
    (fill.statuses start rows).length = rows := by
  simp [statuses]

@[simp]
theorem length_counters (fill : BulkFill) (width row : Nat) :
    (fill.counters width row).length = width := by
  simp [counters]

end BulkFill

/-- A request to the driver. -/
inductive Request
  /-- Read counters of one object. -/
  | read (kind : ObjectKind) (object : ObjectId) (ids : List Int)
  /-- Set counters of one object back to zero. -/
  | clear (kind : ObjectKind) (object : ObjectId) (ids : List Int)
  /-- Read counters of many rows in one call. -/
  | bulkRead (kind : ObjectKind) (keys : List RowKey) (ids : List Int) (mode : ReadMode)
  /-- List what counters a kind of object has, in a list of bounded capacity. -/
  | capabilities (switch : ObjectId) (kind : ObjectKind) (capacity : Nat)
  /-- Read attributes of one object, each written out as text. -/
  | attributes (kind : ObjectKind) (object : ObjectId) (ids : List Int)
  /-- Name the switch that an object belongs to. -/
  | switchOf (object : ObjectId)
  deriving DecidableEq

/-- The type of the answer to a request. -/
@[reducible]
def Request.Answer : Request → Type
  | .read .. => Except DriverError (List UInt64)
  | .clear .. => Except DriverError Unit
  | .bulkRead .. => Except DriverError BulkFill
  | .capabilities .. => Except DriverError (List Capability)
  | .attributes .. => Except DriverError (List String)
  | .switchOf .. => ObjectId

/-- A driver at one moment: its answer to every request. -/
abbrev Driver : Type := (request : Request) → request.Answer

end CounterPolling
