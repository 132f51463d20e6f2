import BurstRing.Ring.Basic
import BurstRing.Json.Basic

/-!
# Ring information as JSON

Members stand in the order of their names.
-/

namespace BurstRing

def RingInfo.reply (i : RingInfo) : Json :=
  Json.ofMembers
    [("configured_size", Json.ofNat i.configuredSize),
      ("consumer_sync_type", Json.ofString i.consumerTag),
      ("current_count", Json.ofNat i.currentCount),
      ("element_size", Json.ofNat i.elementSize),
      ("is_single_consumer", .bool i.isSingleConsumer),
      ("is_single_producer", .bool i.isSingleProducer),
      ("name", Json.ofString i.name),
      ("producer_sync_type", Json.ofString i.producerTag),
      ("usable_capacity", Json.ofNat i.usableCapacity)]

end BurstRing
