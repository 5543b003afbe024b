/-!
# Kinds of switch objects

The objects of a switch that carry counters or attributes worth polling. Each kind has
a name, by which calls and messages refer to it, and a number, which the virtual id of
an object carries.
-/

namespace CounterPolling

/-- A kind of pollable switch object. -/
inductive ObjectKind
  | port
  | routerInterface
  | aclCounter
  | policer
  | queue
  | bufferPool
  | priorityGroup
  | switch
  | tunnel
  | flowCounter
  | macsecFlow
  | macsecSa
  | eni
  | meterBucket
  deriving DecidableEq

namespace ObjectKind

/-- Every kind, in ascending order of number. -/
def all : List ObjectKind :=
  [port, routerInterface, aclCounter, policer, queue, bufferPool, priorityGroup, switch,
    tunnel, flowCounter, macsecFlow, macsecSa, eni, meterBucket]

/-- The number that stands for the kind inside a virtual id. -/
def code : ObjectKind → Nat
  | port => 1
  | routerInterface => 6
  | aclCounter => 9
  | policer => 18
  | queue => 21
  | bufferPool => 24
  | priorityGroup => 26
  | switch => 33
  | tunnel => 42
  | flowCounter => 80
  | macsecFlow => 84
  | macsecSa => 86
  | eni => 200
  | meterBucket => 201

/-- The name of the kind in calls and messages. -/
def name : ObjectKind → String
  | port => "SAI_OBJECT_TYPE_PORT"
  | routerInterface => "SAI_OBJECT_TYPE_ROUTER_INTERFACE"
  | aclCounter => "SAI_OBJECT_TYPE_ACL_COUNTER"
  | policer => "SAI_OBJECT_TYPE_POLICER"
  | queue => "SAI_OBJECT_TYPE_QUEUE"
  | bufferPool => "SAI_OBJECT_TYPE_BUFFER_POOL"
  | priorityGroup => "SAI_OBJECT_TYPE_INGRESS_PRIORITY_GROUP"
  | switch => "SAI_OBJECT_TYPE_SWITCH"
  | tunnel => "SAI_OBJECT_TYPE_TUNNEL"
  | flowCounter => "SAI_OBJECT_TYPE_COUNTER"
  | macsecFlow => "SAI_OBJECT_TYPE_MACSEC_FLOW"
  | macsecSa => "SAI_OBJECT_TYPE_MACSEC_SA"
  | eni => "SAI_OBJECT_TYPE_ENI"
  | meterBucket => "SAI_OBJECT_TYPE_METER_BUCKET_ENTRY"

/-- The kind with a given number. -/
def ofCode? (n : Nat) : Option ObjectKind :=
  all.find? fun kind => kind.code == n

/-- The kind with a given name. -/
def ofName? (s : String) : Option ObjectKind :=
  all.find? fun kind => kind.name == s

theorem mem_all (kind : ObjectKind) : kind ∈ all := by
  cases kind <;> decide

@[simp]
theorem ofCode?_code (kind : ObjectKind) : ofCode? kind.code = some kind := by
  cases kind <;> rfl

theorem code_lt (kind : ObjectKind) : kind.code < 256 := by
  cases kind <;> decide

end ObjectKind

end CounterPolling
