import CounterPolling.Object.Kind

/-!
# Families of counters and attributes

Counters and attributes come in families: one enumeration of the switch interface for
the counters of a kind of object, another for its attributes. An id means something only
inside its family.
-/

namespace CounterPolling

/-- A family of counters or attributes of one kind of object. -/
inductive CounterFamily
  | portStat
  | queueStat
  | queueAttribute
  | priorityGroupStat
  | priorityGroupAttribute
  | routerInterfaceStat
  | switchStat
  | bufferPoolStat
  | tunnelStat
  | flowCounterStat
  | macsecFlowStat
  | macsecSaStat
  | macsecSaAttribute
  | aclCounterAttribute
  | policerStat
  | eniStat
  | meterBucketStat
  | switchAttribute
  deriving DecidableEq

namespace CounterFamily

/-- Every family. -/
def all : List CounterFamily :=
  [portStat, queueStat, queueAttribute, priorityGroupStat, priorityGroupAttribute,
    routerInterfaceStat, switchStat, bufferPoolStat, tunnelStat, flowCounterStat,
    macsecFlowStat, macsecSaStat, macsecSaAttribute, aclCounterAttribute, policerStat,
    eniStat, meterBucketStat, switchAttribute]

/-- The name of the enumeration that the family is, as messages give it. -/
def name : CounterFamily → String
  | portStat => "sai_port_stat_t"
  | queueStat => "sai_queue_stat_t"
  | queueAttribute => "sai_queue_attr_t"
  | priorityGroupStat => "sai_ingress_priority_group_stat_t"
  | priorityGroupAttribute => "sai_ingress_priority_group_attr_t"
  | routerInterfaceStat => "sai_router_interface_stat_t"
  | switchStat => "sai_switch_stat_t"
  | bufferPoolStat => "sai_buffer_pool_stat_t"
  | tunnelStat => "sai_tunnel_stat_t"
  | flowCounterStat => "sai_counter_stat_t"
  | macsecFlowStat => "sai_macsec_flow_stat_t"
  | macsecSaStat => "sai_macsec_sa_stat_t"
  | macsecSaAttribute => "sai_macsec_sa_attr_t"
  | aclCounterAttribute => "sai_acl_counter_attr_t"
  | policerStat => "sai_policer_stat_t"
  | eniStat => "sai_eni_stat_t"
  | meterBucketStat => "sai_meter_bucket_entry_stat_t"
  | switchAttribute => "sai_switch_attr_t"

/-- The kind of object whose counters or attributes the family lists. -/
def kind : CounterFamily → ObjectKind
  | portStat => .port
  | queueStat => .queue
  | queueAttribute => .queue
  | priorityGroupStat => .priorityGroup
  | priorityGroupAttribute => .priorityGroup
  | routerInterfaceStat => .routerInterface
  | switchStat => .switch
  | bufferPoolStat => .bufferPool
  | tunnelStat => .tunnel
  | flowCounterStat => .flowCounter
  | macsecFlowStat => .macsecFlow
  | macsecSaStat => .macsecSa
  | macsecSaAttribute => .macsecSa
  | aclCounterAttribute => .aclCounter
  | policerStat => .policer
  | eniStat => .eni
  | meterBucketStat => .meterBucket
  | switchAttribute => .switch

/-- The family with a given name. -/
def ofName? (s : String) : Option CounterFamily :=
  all.find? fun family => family.name == s

theorem mem_all (family : CounterFamily) : family ∈ all := by
  cases family <;> decide

end CounterFamily

end CounterPolling
