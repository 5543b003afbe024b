import CounterPolling.Object.Kind
import CounterPolling.Text.Unsigned

/-!
# Object ids

Objects are known by 64-bit words. The control side of a switch uses virtual ids, whose
bits 48 to 55 tell the kind of the object; the driver uses ids of its own, which carry
no meaning here.
-/

namespace CounterPolling

/-- A 64-bit word that identifies an object. -/
abbrev ObjectId : Type := UInt64

namespace ObjectId

/-- Position of the kind's number inside a virtual id. -/
def kindShift : UInt64 := 48

/-- The bits below the kind's number. -/
def indexMask : UInt64 := 0xffffffffffff

/-- The kind of object that a virtual id tells, if it tells a known one. -/
def kind? (vid : ObjectId) : Option ObjectKind :=
  ObjectKind.ofCode? ((vid >>> kindShift) &&& 0xff).toNat

/-- The virtual id of the object of a kind with an index; higher bits of the index are dropped. -/
def virtual (kind : ObjectKind) (index : UInt64) : ObjectId :=
  (UInt64.ofNat kind.code <<< kindShift) ||| (index &&& indexMask)

/-- The text of an id, which also keys the object's row in the counters table. -/
def text (id : ObjectId) : String :=
  "oid:0x" ++ Text.hexadecimal id.toNat

end ObjectId

/-- The key of one row of a bulk read. -/
inductive RowKey
  /-- An object, by the driver's id. -/
  | object (id : ObjectId)
  /-- One meter class of an elastic network interface. -/
  | bucket (switch eni : ObjectId) (meterClass : Nat)
  deriving DecidableEq

end CounterPolling
