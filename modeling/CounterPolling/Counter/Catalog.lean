import CounterPolling.Counter.Family

/-!
# The catalog of known counters

For each family the ids that may be polled, with their names. Numbers follow the switch
interface; counters of configured drop reasons stand at the bases of their ranges.
-/

namespace CounterPolling.CounterFamily

/-- The known port counters. -/
def portStatCatalog : List (String × Int) :=
  [("SAI_PORT_STAT_IF_IN_OCTETS", 0),
    ("SAI_PORT_STAT_IF_IN_UCAST_PKTS", 1),
    ("SAI_PORT_STAT_IF_IN_NON_UCAST_PKTS", 2),
    ("SAI_PORT_STAT_IF_IN_DISCARDS", 3),
    ("SAI_PORT_STAT_IF_IN_ERRORS", 4),
    ("SAI_PORT_STAT_IF_IN_UNKNOWN_PROTOS", 5),
    ("SAI_PORT_STAT_IF_IN_BROADCAST_PKTS", 6),
    ("SAI_PORT_STAT_IF_IN_MULTICAST_PKTS", 7),
    ("SAI_PORT_STAT_IF_IN_VLAN_DISCARDS", 8),
    ("SAI_PORT_STAT_IF_OUT_OCTETS", 9),
    ("SAI_PORT_STAT_IF_OUT_UCAST_PKTS", 10),
    ("SAI_PORT_STAT_IF_OUT_NON_UCAST_PKTS", 11),
    ("SAI_PORT_STAT_IF_OUT_DISCARDS", 12),
    ("SAI_PORT_STAT_IF_OUT_ERRORS", 13),
    ("SAI_PORT_STAT_IF_OUT_QLEN", 14),
    ("SAI_PORT_STAT_IF_OUT_BROADCAST_PKTS", 15),
    ("SAI_PORT_STAT_IF_OUT_MULTICAST_PKTS", 16),
    ("SAI_PORT_STAT_ETHER_STATS_DROP_EVENTS", 17),
    ("SAI_PORT_STAT_ETHER_STATS_MULTICAST_PKTS", 18),
    ("SAI_PORT_STAT_ETHER_STATS_BROADCAST_PKTS", 19),
    ("SAI_PORT_STAT_ETHER_STATS_UNDERSIZE_PKTS", 20),
    ("SAI_PORT_STAT_ETHER_STATS_FRAGMENTS", 21),
    ("SAI_PORT_STAT_ETHER_STATS_PKTS_64_OCTETS", 22),
    ("SAI_PORT_STAT_ETHER_STATS_PKTS_65_TO_127_OCTETS", 23),
    ("SAI_PORT_STAT_ETHER_STATS_PKTS_128_TO_255_OCTETS", 24),
    ("SAI_PORT_STAT_ETHER_STATS_PKTS_256_TO_511_OCTETS", 25),
    ("SAI_PORT_STAT_ETHER_STATS_PKTS_512_TO_1023_OCTETS", 26),
    ("SAI_PORT_STAT_ETHER_STATS_PKTS_1024_TO_1518_OCTETS", 27),
    ("SAI_PORT_STAT_ETHER_STATS_PKTS_1519_TO_2047_OCTETS", 28),
    ("SAI_PORT_STAT_ETHER_STATS_OVERSIZE_PKTS", 33),
    ("SAI_PORT_STAT_ETHER_STATS_JABBERS", 36),
    ("SAI_PORT_STAT_ETHER_STATS_OCTETS", 37),
    ("SAI_PORT_STAT_ETHER_STATS_PKTS", 38),
    ("SAI_PORT_STAT_ETHER_STATS_COLLISIONS", 39),
    ("SAI_PORT_STAT_ETHER_STATS_CRC_ALIGN_ERRORS", 40),
    ("SAI_PORT_STAT_ETHER_STATS_TX_NO_ERRORS", 41),
    ("SAI_PORT_STAT_ETHER_STATS_RX_NO_ERRORS", 42),
    ("SAI_PORT_STAT_IP_IN_RECEIVES", 43),
    ("SAI_PORT_STAT_IPV6_IN_RECEIVES", 55),
    ("SAI_PORT_STAT_GREEN_WRED_DROPPED_PACKETS", 66),
    ("SAI_PORT_STAT_YELLOW_WRED_DROPPED_PACKETS", 68),
    ("SAI_PORT_STAT_RED_WRED_DROPPED_PACKETS", 70),
    ("SAI_PORT_STAT_WRED_DROPPED_PACKETS", 72),
    ("SAI_PORT_STAT_ECN_MARKED_PACKETS", 74),
    ("SAI_PORT_STAT_PFC_0_RX_PKTS", 96),
    ("SAI_PORT_STAT_PFC_0_TX_PKTS", 97),
    ("SAI_PORT_STAT_PFC_1_RX_PKTS", 98),
    ("SAI_PORT_STAT_PFC_1_TX_PKTS", 99),
    ("SAI_PORT_STAT_PFC_3_RX_PKTS", 102),
    ("SAI_PORT_STAT_PFC_3_TX_PKTS", 103),
    ("SAI_PORT_STAT_PFC_4_RX_PKTS", 104),
    ("SAI_PORT_STAT_PFC_4_TX_PKTS", 105),
    ("SAI_PORT_STAT_IF_IN_FEC_CORRECTABLE_FRAMES", 160),
    ("SAI_PORT_STAT_IF_IN_FEC_NOT_CORRECTABLE_FRAMES", 161),
    ("SAI_PORT_STAT_IF_IN_FEC_SYMBOL_ERRORS", 162),
    ("SAI_PORT_STAT_GREEN_WRED_ECN_MARKED_PACKETS", 190),
    ("SAI_PORT_STAT_YELLOW_WRED_ECN_MARKED_PACKETS", 192),
    ("SAI_PORT_STAT_RED_WRED_ECN_MARKED_PACKETS", 194),
    ("SAI_PORT_STAT_WRED_ECN_MARKED_PACKETS", 196),
    ("SAI_PORT_STAT_IN_CONFIGURED_DROP_REASONS_0_DROPPED_PKTS", 0x1000),
    ("SAI_PORT_STAT_IN_CONFIGURED_DROP_REASONS_1_DROPPED_PKTS", 0x1001),
    ("SAI_PORT_STAT_IN_CONFIGURED_DROP_REASONS_2_DROPPED_PKTS", 0x1002),
    ("SAI_PORT_STAT_IN_CONFIGURED_DROP_REASONS_3_DROPPED_PKTS", 0x1003),
    ("SAI_PORT_STAT_OUT_CONFIGURED_DROP_REASONS_0_DROPPED_PKTS", 0x2000),
    ("SAI_PORT_STAT_OUT_CONFIGURED_DROP_REASONS_1_DROPPED_PKTS", 0x2001)]

/-- The known queue counters. -/
def queueStatCatalog : List (String × Int) :=
  [("SAI_QUEUE_STAT_PACKETS", 0),
    ("SAI_QUEUE_STAT_BYTES", 1),
    ("SAI_QUEUE_STAT_DROPPED_PACKETS", 2),
    ("SAI_QUEUE_STAT_DROPPED_BYTES", 3),
    ("SAI_QUEUE_STAT_GREEN_WRED_DROPPED_PACKETS", 8),
    ("SAI_QUEUE_STAT_YELLOW_WRED_DROPPED_PACKETS", 12),
    ("SAI_QUEUE_STAT_RED_WRED_DROPPED_PACKETS", 16),
    ("SAI_QUEUE_STAT_WRED_DROPPED_PACKETS", 20),
    ("SAI_QUEUE_STAT_CURR_OCCUPANCY_BYTES", 24),
    ("SAI_QUEUE_STAT_WATERMARK_BYTES", 25),
    ("SAI_QUEUE_STAT_SHARED_CURR_OCCUPANCY_BYTES", 26),
    ("SAI_QUEUE_STAT_SHARED_WATERMARK_BYTES", 27),
    ("SAI_QUEUE_STAT_GREEN_WRED_ECN_MARKED_PACKETS", 28),
    ("SAI_QUEUE_STAT_YELLOW_WRED_ECN_MARKED_PACKETS", 30),
    ("SAI_QUEUE_STAT_RED_WRED_ECN_MARKED_PACKETS", 32),
    ("SAI_QUEUE_STAT_WRED_ECN_MARKED_PACKETS", 34),
    ("SAI_QUEUE_STAT_CURR_OCCUPANCY_LEVEL", 36),
    ("SAI_QUEUE_STAT_WATERMARK_LEVEL", 37)]

/-- The known queue attributes. -/
def queueAttributeCatalog : List (String × Int) :=
  [("SAI_QUEUE_ATTR_TYPE", 0),
    ("SAI_QUEUE_ATTR_PORT", 1),
    ("SAI_QUEUE_ATTR_INDEX", 2),
    ("SAI_QUEUE_ATTR_PAUSE_STATUS", 9),
    ("SAI_QUEUE_ATTR_PFC_DLR_INIT", 11)]

/-- The known priority group counters. -/
def priorityGroupStatCatalog : List (String × Int) :=
  [("SAI_INGRESS_PRIORITY_GROUP_STAT_PACKETS", 0),
    ("SAI_INGRESS_PRIORITY_GROUP_STAT_BYTES", 1),
    ("SAI_INGRESS_PRIORITY_GROUP_STAT_CURR_OCCUPANCY_BYTES", 2),
    ("SAI_INGRESS_PRIORITY_GROUP_STAT_WATERMARK_BYTES", 3),
    ("SAI_INGRESS_PRIORITY_GROUP_STAT_SHARED_CURR_OCCUPANCY_BYTES", 4),
    ("SAI_INGRESS_PRIORITY_GROUP_STAT_SHARED_WATERMARK_BYTES", 5),
    ("SAI_INGRESS_PRIORITY_GROUP_STAT_XOFF_ROOM_CURR_OCCUPANCY_BYTES", 6),
    ("SAI_INGRESS_PRIORITY_GROUP_STAT_XOFF_ROOM_WATERMARK_BYTES", 7),
    ("SAI_INGRESS_PRIORITY_GROUP_STAT_DROPPED_PACKETS", 8)]

/-- The known priority group attributes. -/
def priorityGroupAttributeCatalog : List (String × Int) :=
  [("SAI_INGRESS_PRIORITY_GROUP_ATTR_BUFFER_PROFILE", 0),
    ("SAI_INGRESS_PRIORITY_GROUP_ATTR_PORT", 1),
    ("SAI_INGRESS_PRIORITY_GROUP_ATTR_TAM", 2),
    ("SAI_INGRESS_PRIORITY_GROUP_ATTR_INDEX", 3)]

/-- The known router interface counters. -/
def routerInterfaceStatCatalog : List (String × Int) :=
  [("SAI_ROUTER_INTERFACE_STAT_IN_OCTETS", 0),
    ("SAI_ROUTER_INTERFACE_STAT_IN_PACKETS", 1),
    ("SAI_ROUTER_INTERFACE_STAT_OUT_OCTETS", 2),
    ("SAI_ROUTER_INTERFACE_STAT_OUT_PACKETS", 3),
    ("SAI_ROUTER_INTERFACE_STAT_IN_ERROR_OCTETS", 4),
    ("SAI_ROUTER_INTERFACE_STAT_IN_ERROR_PACKETS", 5),
    ("SAI_ROUTER_INTERFACE_STAT_OUT_ERROR_OCTETS", 6),
    ("SAI_ROUTER_INTERFACE_STAT_OUT_ERROR_PACKETS", 7)]

/-- The known switch counters. -/
def switchStatCatalog : List (String × Int) :=
  [("SAI_SWITCH_STAT_IN_CONFIGURED_DROP_REASONS_0_DROPPED_PKTS", 0x1000),
    ("SAI_SWITCH_STAT_IN_CONFIGURED_DROP_REASONS_1_DROPPED_PKTS", 0x1001),
    ("SAI_SWITCH_STAT_IN_CONFIGURED_DROP_REASONS_2_DROPPED_PKTS", 0x1002),
    ("SAI_SWITCH_STAT_OUT_CONFIGURED_DROP_REASONS_0_DROPPED_PKTS", 0x2000),
    ("SAI_SWITCH_STAT_OUT_CONFIGURED_DROP_REASONS_1_DROPPED_PKTS", 0x2001)]

/-- The known buffer pool counters. -/
def bufferPoolStatCatalog : List (String × Int) :=
  [("SAI_BUFFER_POOL_STAT_CURR_OCCUPANCY_BYTES", 0),
    ("SAI_BUFFER_POOL_STAT_WATERMARK_BYTES", 1),
    ("SAI_BUFFER_POOL_STAT_DROPPED_PACKETS", 2),
    ("SAI_BUFFER_POOL_STAT_XOFF_ROOM_CURR_OCCUPANCY_BYTES", 0x16),
    ("SAI_BUFFER_POOL_STAT_XOFF_ROOM_WATERMARK_BYTES", 0x17)]

/-- The known tunnel counters. -/
def tunnelStatCatalog : List (String × Int) :=
  [("SAI_TUNNEL_STAT_IN_OCTETS", 0),
    ("SAI_TUNNEL_STAT_IN_PACKETS", 1),
    ("SAI_TUNNEL_STAT_OUT_OCTETS", 2),
    ("SAI_TUNNEL_STAT_OUT_PACKETS", 3)]

/-- The known flow counters. -/
def flowCounterStatCatalog : List (String × Int) :=
  [("SAI_COUNTER_STAT_PACKETS", 0),
    ("SAI_COUNTER_STAT_BYTES", 1)]

/-- The known MACsec flow counters. -/
def macsecFlowStatCatalog : List (String × Int) :=
  [("SAI_MACSEC_FLOW_STAT_OTHER_ERR", 0),
    ("SAI_MACSEC_FLOW_STAT_OCTETS_UNCONTROLLED", 1),
    ("SAI_MACSEC_FLOW_STAT_OCTETS_CONTROLLED", 2),
    ("SAI_MACSEC_FLOW_STAT_OUT_OCTETS_COMMON", 3),
    ("SAI_MACSEC_FLOW_STAT_UCAST_PKTS_UNCONTROLLED", 4),
    ("SAI_MACSEC_FLOW_STAT_UCAST_PKTS_CONTROLLED", 5),
    ("SAI_MACSEC_FLOW_STAT_CONTROL_PKTS", 14),
    ("SAI_MACSEC_FLOW_STAT_PKTS_UNTAGGED", 15),
    ("SAI_MACSEC_FLOW_STAT_IN_TAGGED_CONTROL_PKTS", 16),
    ("SAI_MACSEC_FLOW_STAT_IN_PKTS_NO_TAG", 18),
    ("SAI_MACSEC_FLOW_STAT_IN_PKTS_BAD_TAG", 19)]

/-- The known MACsec association counters. -/
def macsecSaStatCatalog : List (String × Int) :=
  [("SAI_MACSEC_SA_STAT_OCTETS_ENCRYPTED", 0),
    ("SAI_MACSEC_SA_STAT_OCTETS_PROTECTED", 1),
    ("SAI_MACSEC_SA_STAT_OUT_PKTS_ENCRYPTED", 2),
    ("SAI_MACSEC_SA_STAT_OUT_PKTS_PROTECTED", 3),
    ("SAI_MACSEC_SA_STAT_IN_PKTS_UNCHECKED", 4),
    ("SAI_MACSEC_SA_STAT_IN_PKTS_DELAYED", 5),
    ("SAI_MACSEC_SA_STAT_IN_PKTS_LATE", 6),
    ("SAI_MACSEC_SA_STAT_IN_PKTS_INVALID", 7),
    ("SAI_MACSEC_SA_STAT_IN_PKTS_NOT_VALID", 8),
    ("SAI_MACSEC_SA_STAT_IN_PKTS_NOT_USING_SA", 9),
    ("SAI_MACSEC_SA_STAT_IN_PKTS_UNUSED_SA", 10),
    ("SAI_MACSEC_SA_STAT_IN_PKTS_OK", 11)]

/-- The known MACsec association attributes. -/
def macsecSaAttributeCatalog : List (String × Int) :=
  [("SAI_MACSEC_SA_ATTR_MACSEC_DIRECTION", 0),
    ("SAI_MACSEC_SA_ATTR_SC_ID", 1),
    ("SAI_MACSEC_SA_ATTR_AN", 2),
    ("SAI_MACSEC_SA_ATTR_CONFIGURED_EGRESS_XPN", 6),
    ("SAI_MACSEC_SA_ATTR_CURRENT_XPN", 7),
    ("SAI_MACSEC_SA_ATTR_MINIMUM_INGRESS_XPN", 8)]

/-- The known access list counter attributes. -/
def aclCounterAttributeCatalog : List (String × Int) :=
  [("SAI_ACL_COUNTER_ATTR_TABLE_ID", 0),
    ("SAI_ACL_COUNTER_ATTR_ENABLE_PACKET_COUNT", 1),
    ("SAI_ACL_COUNTER_ATTR_ENABLE_BYTE_COUNT", 2),
    ("SAI_ACL_COUNTER_ATTR_PACKETS", 3),
    ("SAI_ACL_COUNTER_ATTR_BYTES", 4)]

/-- The known policer counters. -/
def policerStatCatalog : List (String × Int) :=
  [("SAI_POLICER_STAT_PACKETS", 0),
    ("SAI_POLICER_STAT_ATTR_BYTES", 1),
    ("SAI_POLICER_STAT_GREEN_PACKETS", 2),
    ("SAI_POLICER_STAT_GREEN_BYTES", 3),
    ("SAI_POLICER_STAT_YELLOW_PACKETS", 4),
    ("SAI_POLICER_STAT_YELLOW_BYTES", 5),
    ("SAI_POLICER_STAT_RED_PACKETS", 6),
    ("SAI_POLICER_STAT_RED_BYTES", 7)]

/-- The known elastic network interface counters. -/
def eniStatCatalog : List (String × Int) :=
  [("SAI_ENI_STAT_RX_BYTES", 0),
    ("SAI_ENI_STAT_RX_PACKETS", 1),
    ("SAI_ENI_STAT_TX_BYTES", 2),
    ("SAI_ENI_STAT_TX_PACKETS", 3),
    ("SAI_ENI_STAT_OUTBOUND_RX_BYTES", 4),
    ("SAI_ENI_STAT_OUTBOUND_RX_PACKETS", 5),
    ("SAI_ENI_STAT_INBOUND_RX_BYTES", 6),
    ("SAI_ENI_STAT_INBOUND_RX_PACKETS", 7),
    ("SAI_ENI_STAT_FLOW_CREATED", 8),
    ("SAI_ENI_STAT_FLOW_CREATE_FAILED", 9),
    ("SAI_ENI_STAT_FLOW_DELETED", 10)]

/-- The known meter bucket counters. -/
def meterBucketStatCatalog : List (String × Int) :=
  [("SAI_METER_BUCKET_ENTRY_STAT_OUTBOUND_BYTES", 0),
    ("SAI_METER_BUCKET_ENTRY_STAT_INBOUND_BYTES", 1)]

/-- The known switch attributes. -/
def switchAttributeCatalog : List (String × Int) :=
  [("SAI_SWITCH_ATTR_NUMBER_OF_ACTIVE_PORTS", 0),
    ("SAI_SWITCH_ATTR_DASH_CAPS_MAX_METER_BUCKET_COUNT_PER_ENI", 0x20000001)]

/-- Names and numbers of the known members of a family. -/
def catalog : CounterFamily → List (String × Int)
  | portStat => portStatCatalog
  | queueStat => queueStatCatalog
  | queueAttribute => queueAttributeCatalog
  | priorityGroupStat => priorityGroupStatCatalog
  | priorityGroupAttribute => priorityGroupAttributeCatalog
  | routerInterfaceStat => routerInterfaceStatCatalog
  | switchStat => switchStatCatalog
  | bufferPoolStat => bufferPoolStatCatalog
  | tunnelStat => tunnelStatCatalog
  | flowCounterStat => flowCounterStatCatalog
  | macsecFlowStat => macsecFlowStatCatalog
  | macsecSaStat => macsecSaStatCatalog
  | macsecSaAttribute => macsecSaAttributeCatalog
  | aclCounterAttribute => aclCounterAttributeCatalog
  | policerStat => policerStatCatalog
  | eniStat => eniStatCatalog
  | meterBucketStat => meterBucketStatCatalog
  | switchAttribute => switchAttributeCatalog

/-- The name of the member with a given number. -/
def nameOf? (family : CounterFamily) (raw : Int) : Option String :=
  (family.catalog.find? fun entry => entry.2 == raw).map (·.1)

/-- The number of the member with a given name. -/
def rawOf? (family : CounterFamily) (name : String) : Option Int :=
  (family.catalog.find? fun entry => entry.1 == name).map (·.2)

/-- No two members of a family share a name. -/
theorem names_nodup (family : CounterFamily) : (family.catalog.map (·.1)).Nodup := by
  cases family <;> decide +kernel

/-- No two members of a family share a number. -/
theorem raws_nodup (family : CounterFamily) : (family.catalog.map (·.2)).Nodup := by
  cases family <;> decide +kernel

end CounterPolling.CounterFamily
