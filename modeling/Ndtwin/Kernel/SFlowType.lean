import Mathlib.Algebra.Order.Ring.Int
import Ndtwin.ForStd.AssocMap
import Ndtwin.ForStd.Words

/-!
# sFlow data types

`include/common_types/SFlowType.hpp`: the keys and counters of the flow table, the sliding
window of recent samples, and the bounds-checked view of a datagram.
-/

namespace Ndtwin.Kernel.SFlow

/-- `FlowKey`. Addresses are in network order; ICMP type and code travel in the port
    fields. -/
structure FlowKey where
  srcIP : UInt32
  dstIP : UInt32
  srcPort : UInt16
  dstPort : UInt16
  protocol : UInt8
  icmpType : UInt16 := 0
  icmpCode : UInt16 := 0
  deriving DecidableEq, Repr

/-- `AgentKey`, and the pair of agent address and port that keys the byte banks. -/
structure AgentKey where
  agentIP : UInt32
  interfacePort : UInt32
  deriving DecidableEq, Repr

/-! ## Sliding window -/

/-- `ExtractedSFlowData` -/
structure ExtractedSFlowData where
  packetFrameLengthInByte : UInt32
  timestampInMilliseconds : Int
  deriving DecidableEq, Repr

/-- `TIME_UNIT_INTERVAL`, in milliseconds. -/
def timeUnitInterval : Int := 1000

/-- `AutoRefreshQueue`. The interval is constant for each queue. -/
structure AutoRefreshQueue (interval : Int := timeUnitInterval) where
  queue : List ExtractedSFlowData := []
  sum : UInt64 := 0
  deriving DecidableEq, Repr

namespace AutoRefreshQueue

variable {interval : Int}

/-- The loop of `refresh` at the time `now`, on the parts of the queue. -/
def dropStale (now : Int) : List ExtractedSFlowData → UInt64 → AutoRefreshQueue interval
  | [], sum => { queue := [], sum := sum }
  | front :: rest, sum =>
    if now - front.timestampInMilliseconds > interval then
      dropStale now rest (sum - front.packetFrameLengthInByte.toUInt64)
    else { queue := front :: rest, sum := sum }

/-- `refresh` at the time `now`. -/
def refresh (now : Int) (q : AutoRefreshQueue interval) : AutoRefreshQueue interval :=
  dropStale now q.queue q.sum

/-- `push`, which refreshes at the time `now`. -/
def push (q : AutoRefreshQueue interval) (sample : ExtractedSFlowData) (now : Int) :
    AutoRefreshQueue interval :=
  dropStale now (q.queue ++ [sample]) (q.sum + sample.packetFrameLengthInByte.toUInt64)

/-- `getSum`, which refreshes at the time `now`. -/
def getSum (q : AutoRefreshQueue interval) (now : Int) : UInt64 × AutoRefreshQueue interval :=
  let q := q.refresh now
  (q.sum, q)

/-- `clear` -/
def clear (q : AutoRefreshQueue interval) : AutoRefreshQueue interval :=
  { q with queue := [], sum := 0 }

/-- `size` -/
def size (q : AutoRefreshQueue interval) : Nat := q.queue.length

end AutoRefreshQueue

/-! ## Counters -/

/-- `FlowStats` -/
structure FlowStats where
  ingressByteCountCurrent : UInt64 := 0
  egressByteCountCurrent : UInt64 := 0
  ingressByteCountPrevious : UInt64 := 0
  egressByteCountPrevious : UInt64 := 0
  ingresspacketCountCurrent : UInt64 := 0
  egresspacketCountCurrent : UInt64 := 0
  ingresspacketCountPrevious : UInt64 := 0
  egresspacketCountPrevious : UInt64 := 0
  avgByteRateInBps : UInt64 := 0
  avgPacketRate : UInt64 := 0
  samplingRate : UInt32 := 1
  packetQueue : AutoRefreshQueue := {}
  deriving DecidableEq, Repr

/-- `FlowInfo` -/
structure FlowInfo where
  agentFlowStats : AssocMap AgentKey FlowStats := ∅
  estimatedFlowSendingRatePeriodically : UInt64 := 0
  estimatedFlowSendingRateImmediately : UInt64 := 0
  estimatedPacketSendingRatePeriodically : UInt64 := 0
  estimatedPacketSendingRateImmediately : UInt64 := 0
  startTime : Int := 0
  endTime : Int := 0
  isElephantFlowPeriodically : Bool := false
  isElephantFlowImmediately : Bool := false
  isAck : Bool := false
  isPureAck : Bool := false
  flowPath : List (UInt64 × UInt32) := []

/-- `CounterInfo`. A new map entry is value-initialised, so its octet counters are 0. -/
structure CounterInfo where
  lastReportTimestampInMilliseconds : Int := 0
  lastReceivedInputOctets : UInt64 := 0
  lastReceivedOutputOctets : UInt64 := 0
  inputByteCountOnALinkMultiplySampingRate : UInt64 := 0
  outputByteCountOnALink : UInt64 := 0
  deriving DecidableEq, Repr

/-! ## Bounded reads -/

/-- `TruncatedDatagram` -/
structure TruncatedDatagram where
  requestedWord : Nat
  availableWords : Nat
  deriving DecidableEq, Repr

/-- `BoundedWords::operator[]` -/
def boundedWord (words : List UInt32) (i : Nat) : Except TruncatedDatagram UInt32 :=
  match words[i]? with
  | some w => .ok w
  | none => .error { requestedWord := i, availableWords := words.length }

end Ndtwin.Kernel.SFlow
