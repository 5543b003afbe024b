import CounterPolling.Group.Spec

/-!
# The registry of counter groups

Every group an instance can host, and the look-ups that route a configuration field to
its group.
-/

namespace CounterPolling

namespace GroupSpec

/-- Every group, in the order in which groups are searched. -/
def all : List GroupSpec :=
  [stats "Port Counter" .portStat "PORT_COUNTER_ID_LIST" (some "PORT_PLUGIN_LIST"),
    { stats "Port Debug Counter" .portStat "PORT_DEBUG_COUNTER_ID_LIST" none with
      usesCapabilities := false
      rediscovers := true },
    { stats "Queue Counter" .queueStat "QUEUE_COUNTER_ID_LIST"
        (some "QUEUE_PLUGIN_LIST") with
      rediscovers := true },
    attributes "Queue Attribute" .queueAttribute "QUEUE_ATTR_ID_LIST",
    { stats "Priority Group Counter" .priorityGroupStat "PG_COUNTER_ID_LIST"
        (some "PG_PLUGIN_LIST") with
      rediscovers := true },
    attributes "Priority Group Attribute" .priorityGroupAttribute "PG_ATTR_ID_LIST",
    stats "Rif Counter" .routerInterfaceStat "RIF_COUNTER_ID_LIST"
      (some "RIF_PLUGIN_LIST"),
    { stats "Switch Debug Counter" .switchStat "SWITCH_DEBUG_COUNTER_ID_LIST" none with
      usesCapabilities := false
      rediscovers := true },
    stats "MACSEC Flow Counter" .macsecFlowStat "MACSEC_FLOW_COUNTER_ID_LIST" none,
    stats "MACSEC SA Counter" .macsecSaStat "MACSEC_SA_COUNTER_ID_LIST" none,
    attributes "MACSEC SA Attribute" .macsecSaAttribute "MACSEC_SA_ATTR_ID_LIST",
    attributes "ACL Counter Attribute" .aclCounterAttribute "ACL_COUNTER_ATTR_ID_LIST",
    { stats "Tunnel Counter" .tunnelStat "TUNNEL_COUNTER_ID_LIST"
        (some "TUNNEL_PLUGIN_LIST") with
      usesCapabilities := false },
    { stats "Buffer Pool Counter" .bufferPoolStat "BUFFER_POOL_COUNTER_ID_LIST"
        (some "BUFFER_POOL_PLUGIN_LIST") with
      perObjectMode := true },
    { stats "Flow Counter" .flowCounterStat "FLOW_COUNTER_ID_LIST"
        (some "FLOW_COUNTER_PLUGIN_FIELD") with
      usesCapabilities := false },
    stats "Policer Counter" .policerStat "POLICER_COUNTER_ID_LIST" none,
    { stats "DASH ENI Counter" .eniStat "DASH_ENI_COUNTER_ID_LIST" none with
      keepsSupported := true },
    { stats "DASH Meter Bucket Counter" .eniStat "DASH_METER_COUNTER_ID_LIST" none with
      content := .meterBuckets
      usesCapabilities := false },
    { stats "WRED ECN Queue Counter" .queueStat "WRED_ECN_QUEUE_COUNTER_ID_LIST"
        (some "WRED_QUEUE_PLUGIN_LIST") with
      rediscovers := true
      keepsSupported := true },
    { stats "WRED ECN Port Counter" .portStat "WRED_ECN_PORT_COUNTER_ID_LIST"
        (some "WRED_PORT_PLUGIN_LIST") with
      rediscovers := true
      keepsSupported := true }]

/-- The group with a name. -/
def ofName? (name : String) : Option GroupSpec :=
  all.find? fun spec => spec.name == name

/-- The group that a field of counters feeds, for objects of a kind. -/
def ofIdField? (kind : ObjectKind) (field : String) : Option GroupSpec :=
  all.find? fun spec => spec.kind == kind && spec.idField == field

/-- The group that a field of plugins feeds. -/
def ofPluginField? (field : String) : Option GroupSpec :=
  all.find? fun spec => spec.pluginField == some field

/-- The groups that objects of a kind may register with. -/
def ofKind (kind : ObjectKind) : List GroupSpec :=
  all.filter fun spec => spec.kind == kind

/-- No two groups share a name. -/
theorem names_nodup : (all.map name).Nodup := by
  decide +kernel

end GroupSpec

end CounterPolling
