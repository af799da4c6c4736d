import Ndtwin.Kernel.FlowLinkUsageCollector

/-!
# Immediate sending rates

`src/ndt_core/collection/FlowLinkUsageCollector.cpp`, `calAvgFlowSendingRatesImmediately`: the rates
of every flow from the sliding windows of its agents. A window is refreshed when its sum is asked
for, and not when its size is.
-/

namespace Ndtwin.Kernel

open SFlow

/-- `MICE_FLOW_UNDER_THRESHOLD` -/
def miceFlowUnderThreshold : UInt64 := 10000000

namespace SFlow

/-- `EstimatedRates` -/
structure EstimatedRates where
  flowSendingRate : UInt64 := 0
  packetSendingRate : UInt64 := 0
  hasActiveHops : Bool := false
  deriving DecidableEq, Repr

/-- `computeEstimatedRates` -/
def computeEstimatedRates (accumulatedFlowRate accumulatedPacketRate : UInt64)
    (hopsCounter : Int) : EstimatedRates :=
  if hopsCounter ≤ 0 then {}
  else
    let hops := UInt64.ofInt hopsCounter
    { flowSendingRate := accumulatedFlowRate / hops
      packetSendingRate := accumulatedPacketRate / hops
      hasActiveHops := true }

/-- `currentSamplingRate` -/
def FlowStats.currentSamplingRate (stats : FlowStats) : UInt64 :=
  if stats.samplingRate > 0 then stats.samplingRate.toUInt64 else 1

/-- What the loop over the agents of a flow adds up. -/
structure HopTotals where
  accumulatedEstimatedBytes : UInt64 := 0
  accumulatedEstimatedPackets : UInt64 := 0
  hopsCounter : Int := 0
  deriving DecidableEq, Repr

/-- The body of that loop, with the clock at `now` when the window is refreshed. -/
def HopTotals.add (totals : HopTotals) (now : Int) (stats : FlowStats) : HopTotals :=
  if stats.packetQueue.size ≠ 0 then
    -- the size was taken before the refresh
    let packetQueue := stats.packetQueue.refresh now
    { accumulatedEstimatedBytes :=
        totals.accumulatedEstimatedBytes + packetQueue.sum * stats.currentSamplingRate
      accumulatedEstimatedPackets :=
        totals.accumulatedEstimatedPackets +
          UInt64.ofNat packetQueue.size * stats.currentSamplingRate
      hopsCounter := totals.hopsCounter + 1 }
  else totals

/-- What the body leaves of an agent. -/
def FlowStats.refreshed (now : Int) (stats : FlowStats) : FlowStats :=
  if stats.packetQueue.size ≠ 0 then
    { stats with packetQueue := stats.packetQueue.refresh now }
  else stats

/-- The loop over the agents; `now` is the clock at the refresh of each window. -/
def FlowInfo.hopTotals (now : AgentKey → Int) (info : FlowInfo) : HopTotals :=
  info.agentFlowStats.toPairs.foldl (fun totals p => totals.add (now p.1) p.2) {}

/-- The body of the loop over the flows. -/
def FlowInfo.estimateImmediately (now : AgentKey → Int) (info : FlowInfo) : FlowInfo :=
  let totals := info.hopTotals now
  let rates := computeEstimatedRates (totals.accumulatedEstimatedBytes * 8)
    totals.accumulatedEstimatedPackets totals.hopsCounter
  let info := { info with
    agentFlowStats := info.agentFlowStats.mapVals fun key => FlowStats.refreshed (now key) }
  if rates.hasActiveHops then
    { info with
      estimatedFlowSendingRateImmediately := rates.flowSendingRate
      isElephantFlowImmediately := rates.flowSendingRate ≥ miceFlowUnderThreshold
      estimatedPacketSendingRateImmediately := rates.packetSendingRate }
  else
    { info with
      estimatedFlowSendingRateImmediately := 0
      estimatedPacketSendingRateImmediately := 0
      isElephantFlowImmediately := false }

end SFlow

/-- `calAvgFlowSendingRatesImmediately`; `now` is the clock at the refresh of each window. -/
def Collector.calAvgFlowSendingRatesImmediately (now : SFlow.FlowKey → AgentKey → Int)
    (c : Collector) : Collector :=
  { c with flowInfoTable := c.flowInfoTable.mapVals fun key (info : FlowInfo) =>
      info.estimateImmediately (now key) }

end Ndtwin.Kernel
