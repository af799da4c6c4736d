import Ndtwin.Kernel.SFlowType
import Ndtwin.Kernel.Utils

/-!
# The sFlow collector

`src/ndt_core/collection/FlowLinkUsageCollector.cpp`: `handlePacket`, which decodes one
datagram and credits what it finds to the byte banks and the flow table. Reads within a
sample come before its effects, so each sample is first decoded, then applied; a read past
the end of the datagram abandons the rest of it.

The collector runs in an environment: its mode, the mapping of interface indices to ports,
the address pairs whose path is known, and the readings of the two clocks. What it asks of
the topology monitor is recorded as the list of those calls.
-/

namespace Ndtwin.Kernel

open SFlow

/-! ## Decoding -/

/-- The locals of a flow sample once its headers are read. -/
structure FlowSample where
  samplingRate : UInt32
  inputPort : UInt32
  outputPort : UInt32
  frameLength : UInt32
  frag : UInt16
  protocol : UInt8
  srcIp : UInt32
  dstIp : UInt32
  srcPort : UInt16 := 0
  dstPort : UInt16 := 0
  icmpType : UInt16 := 0
  icmpCode : UInt16 := 0
  isAckPacket : Bool := false
  deriving DecidableEq, Repr

/-- Fragment offset, in units of 8 bytes. -/
def FlowSample.fragOff (s : FlowSample) : UInt16 := s.frag &&& 0x1FFF

/-- TCP, UDP or ICMP. -/
def FlowSample.isTracked (s : FlowSample) : Bool :=
  s.protocol == 6 || s.protocol == 17 || s.protocol == 1

/-- What a sample asks for once it is decoded. -/
inductive SampleEvent where
  | counter (interfaceIndex : UInt32) (interfaceSpeed inputOctets outputOctets : UInt64)
  | flow (s : FlowSample)
  | skipped
  deriving DecidableEq, Repr

/-- A reader of the words of a sample, by offset from its start, in host order. -/
abbrev Reader := UInt32 → Except TruncatedDatagram UInt32

/-- `ipFromFrontBack` -/
def ipFromFrontBack (ipFront ipBack : UInt32) : UInt32 :=
  let o₁ := (ipFront >>> 8) &&& 0xFF
  let o₂ := ipFront &&& 0xFF
  let o₃ := (ipBack >>> 24) &&& 0xFF
  let o₄ := (ipBack >>> 16) &&& 0xFF
  Words.ntohl ((o₁ <<< 24) ||| (o₂ <<< 16) ||| (o₃ <<< 8) ||| o₄)

/-- Two words as one 64-bit value. -/
def readU64 (read : Reader) (i : UInt32) : Except TruncatedDatagram UInt64 := do
  let high ← read i
  let low ← read (i + 1)
  return (high.toUInt64 <<< 32) ||| low.toUInt64

/-- The counters of a counter sample, whose record starts at `base`. -/
def decodeCounters (read : Reader) (base : UInt32) : Except TruncatedDatagram SampleEvent := do
  let interfaceIndex ← read (base + 3)
  let interfaceSpeed ← readU64 read (base + 5)
  let inputOctets ← readU64 read (base + 9)
  let outputOctets ← readU64 read (base + 17)
  return .counter interfaceIndex interfaceSpeed inputOctets outputOctets

/-- The transport header; `base` is the word of the EtherType. -/
def decodeTransport (read : Reader) (base : UInt32) (s : FlowSample) :
    Except TruncatedDatagram FlowSample :=
  if s.protocol ≠ 1 then do
    let srcPort ← read (base + 5)
    let dstPort ← read (base + 6)
    let s := { s with srcPort := (srcPort &&& 0xFFFF).toUInt16,
                      dstPort := ((dstPort >>> 16) &&& 0xFFFF).toUInt16 }
    if s.protocol = 6 then do
      let tcpFlags ← read (base + 8)
      return { s with isAckPacket := (tcpFlags &&& 0xFF).toUInt8 &&& 0x10 ≠ 0 }
    else return s
  else do
    let icmp ← read (base + 5)
    return { s with icmpType := ((icmp >>> 8) &&& 0xFF).toUInt16,
                    icmpCode := (icmp &&& 0xFF).toUInt16 }

/-- The frame header; `base` is the word of the EtherType. `none` when it is not IPv4. -/
def decodeFrame (read : Reader) (base samplingRate inputPort outputPort frameLength : UInt32) :
    Except TruncatedDatagram (Option FlowSample) := do
  let etherType ← read base
  if (etherType >>> 16) &&& 0xFFFF ≠ 0x0800 then return none
  else do
    let fragAndProtocol ← read (base + 2)
    let ip₁ ← read (base + 3)
    let ip₂ ← read (base + 4)
    let ip₃ ← read (base + 5)
    let s ← decodeTransport read base
      { samplingRate := samplingRate
        inputPort := inputPort
        outputPort := outputPort
        frameLength := frameLength
        frag := ((fragAndProtocol >>> 16) &&& 0xFFFF).toUInt16
        protocol := (fragAndProtocol &&& 0xFF).toUInt8
        srcIp := ipFromFrontBack ip₁ ip₂
        dstIp := ipFromFrontBack ip₂ ip₃ }
    return some s

/-- Words from the start of a Brocade sample to where its frame is read from: in Mininet an
    extra record of `flowDataLength` bytes comes first. -/
def frameShift (mode : DeploymentMode) (flowDataLength : UInt32) : UInt32 :=
  match mode with
  | .mininet => flowDataLength / 4 + 2
  | .testbed => 0

/-- `flowDataLength`, which only Mininet reads. -/
def readFlowDataLength (mode : DeploymentMode) (read : Reader) :
    Except TruncatedDatagram UInt32 :=
  match mode with
  | .mininet => read 11
  | .testbed => .ok 0

/-- The advance at the end of a flow sample, from where the frame is read. -/
def flowAdvance (mode : DeploymentMode) (sampleLen flowDataLength : UInt32) : UInt32 :=
  match mode with
  | .mininet => sampleLen / 4 + 2 - (flowDataLength / 4 + 2)
  | .testbed => sampleLen / 4 + 2

/-- What follows once the headers are read, `shift` words into the sample: the next sample is
    looked for behind this one, but a dropped fragment leaves the index where it is. -/
def flowOutcome (mode : DeploymentMode) (sampleLen flowDataLength shift : UInt32) :
    Option FlowSample → SampleEvent × Option UInt32
  | none => (.skipped, some (shift + flowAdvance mode sampleLen flowDataLength))
  | some s =>
    if s.isTracked ∧ s.fragOff ≠ 0 then (.skipped, some shift)
    else (.flow s, some (shift + flowAdvance mode sampleLen flowDataLength))

/-- A Brocade flow sample (type 1). -/
def decodeBrocade (mode : DeploymentMode) (read : Reader) (sampleLen samplingRate : UInt32) :
    Except TruncatedDatagram (SampleEvent × Option UInt32) := do
  let inputPort ← read 7
  let outputPort ← read 8
  let flowDataLength ← readFlowDataLength mode read
  let shift := frameShift mode flowDataLength
  let frameLength ← read (shift + 13)
  let frame ← decodeFrame read (shift + 19) samplingRate inputPort outputPort frameLength
  return flowOutcome mode sampleLen flowDataLength shift frame

/-- An HPE flow sample (type 3). -/
def decodeHpe (mode : DeploymentMode) (read : Reader) (sampleLen : UInt32) :
    Except TruncatedDatagram (SampleEvent × Option UInt32) := do
  let samplingRate ← read 5
  let inputPort ← read 9
  let outputPort ← read 11
  let frameLength ← read 16
  let frame ← decodeFrame read 23 samplingRate inputPort outputPort frameLength
  return flowOutcome mode sampleLen 0 0 frame

/-- One sample: what it asks for, and how many words further the next one is looked for;
    `none` when the loop is left. -/
def decodeSample (mode : DeploymentMode) (read : Reader) :
    Except TruncatedDatagram (SampleEvent × Option UInt32) := do
  let sampleType ← read 0
  let sampleLen ← read 1
  if sampleType = 2 then do
    let event ← decodeCounters read 19
    return (event, some (sampleLen / 4 + 2))
  else if sampleType = 4 then do
    let event ← decodeCounters read 5
    return (event, some (sampleLen / 4 + 2))
  else if sampleType = 1 then do
    let samplingRate ← read 4
    decodeBrocade mode read sampleLen samplingRate
  else if sampleType = 3 then do
    let _ ← read 4
    decodeHpe mode read sampleLen
  else if sampleLen > 0 then return (.skipped, some (sampleLen / 4 + 2))
  else return (.skipped, none)

/-! ## State -/

/-- A call to the topology monitor. -/
inductive TopologyCall where
  | updateLinkInfo (key : AgentKey) (leftIn leftOut interfaceSpeed : UInt64)
  | touchReverseEdge (key : AgentKey) (flow : SFlow.FlowKey)
  | touchEdgeToHost (key : AgentKey) (flow : SFlow.FlowKey)
  | touchEdge (key : AgentKey) (flow : SFlow.FlowKey)
  deriving DecidableEq, Repr

/-- What the collector reads and does not change: `m_mode`, `lookupOfport` once the mapping
    is configured, the keys of `m_allPathMap`, and the successive readings of the clocks. -/
structure CollectorEnv where
  mode : DeploymentMode
  lookupOfport : UInt32 → UInt32
  pathKnown : UInt32 → UInt32 → Bool
  steadyClock : Nat → Int
  systemClock : Nat → Int

/-- `FlowLinkUsageCollector` -/
structure Collector where
  counterReports : AssocMap AgentKey CounterInfo := ∅
  egressCounterReports : AssocMap AgentKey CounterInfo := ∅
  flowInfoTable : AssocMap SFlow.FlowKey FlowInfo := ∅
  malformedDatagrams : UInt64 := 0
  addresedSampleNum : UInt64 := 0
  steadyReadings : Nat := 0
  systemReadings : Nat := 0
  topologyCalls : List TopologyCall := []

namespace Collector

/-- `getCurrentTimeMillisSteadyClock` -/
def readSteadyClock (env : CollectorEnv) (c : Collector) : Int × Collector :=
  (env.steadyClock c.steadyReadings, { c with steadyReadings := c.steadyReadings + 1 })

/-- `getCurrentTimeMillisSystemClock` -/
def readSystemClock (env : CollectorEnv) (c : Collector) : Int × Collector :=
  (env.systemClock c.systemReadings, { c with systemReadings := c.systemReadings + 1 })

/-! ## Counter samples -/

/-- Average bits per second since the last report, if the counter did not go back. -/
def averageBps (octets last : UInt64) (interval : Int) : Option UInt64 :=
  if octets ≥ last then some ((octets - last) * 8 / UInt64.ofInt interval) else none

/-- Bandwidth left on a link. -/
def bandwidthLeft (interfaceSpeed avg : UInt64) : UInt64 :=
  if avg > interfaceSpeed then 0 else interfaceSpeed - avg

/-- The counter branch of `handlePacket`. -/
def applyCounter (env : CollectorEnv) (agentIp interfaceIndex : UInt32)
    (interfaceSpeed inputOctets outputOctets : UInt64) (c : Collector) : Collector :=
  match env.mode with
  | .mininet => c
  | .testbed =>
    let (now, c) := readSteadyClock env c
    let key : AgentKey := { agentIP := agentIp, interfacePort := interfaceIndex }
    let st := (c.counterReports.lookup key).getD {}
    let interval := (now - st.lastReportTimestampInMilliseconds).tdiv 1000
    if interval = 0 then { c with counterReports := c.counterReports.insert key st }
    else
      let avgIn := averageBps inputOctets st.lastReceivedInputOctets interval
      let avgOut := averageBps outputOctets st.lastReceivedOutputOctets interval
      let calls :=
        if st.lastReportTimestampInMilliseconds ≠ 0 ∧ avgIn.isSome ∧ avgOut.isSome then
          [TopologyCall.updateLinkInfo key (bandwidthLeft interfaceSpeed (avgIn.getD 0))
            (bandwidthLeft interfaceSpeed (avgOut.getD 0)) interfaceSpeed]
        else []
      let st := { st with lastReportTimestampInMilliseconds := now
                          lastReceivedInputOctets := inputOctets
                          lastReceivedOutputOctets := outputOctets }
      { c with counterReports := c.counterReports.insert key st
               topologyCalls := c.topologyCalls ++ calls }

/-! ## Flow samples -/

/-- Add to a byte bank, creating the entry if need be. -/
def bank (reports : AssocMap AgentKey CounterInfo) (key : AgentKey) (bytes : UInt64) :
    AssocMap AgentKey CounterInfo :=
  let st := (reports.lookup key).getD {}
  reports.insert key { st with
    inputByteCountOnALinkMultiplySampingRate :=
      st.inputByteCountOnALinkMultiplySampingRate + bytes }

/-- `key` in the flow branch: ICMP type and code stand in the port fields. -/
def flowKeyOf (s : FlowSample) : SFlow.FlowKey :=
  if s.protocol ≠ 1 then
    { srcIP := s.srcIp, dstIP := s.dstIp, srcPort := s.srcPort, dstPort := s.dstPort
      protocol := s.protocol }
  else
    { srcIP := s.srcIp, dstIP := s.dstIp, srcPort := s.icmpType, dstPort := s.icmpCode
      protocol := s.protocol }

/-- `isPureAck` -/
def isPureAck (s : FlowSample) : Bool :=
  s.protocol == 6 && s.isAckPacket && s.frameLength < 80

/-- Count a frame on the side on which it was seen. -/
def addFrame (stats : FlowStats) (isIngress : Bool) (frameLength : UInt32) : FlowStats :=
  if isIngress then
    { stats with ingressByteCountCurrent := stats.ingressByteCountCurrent + frameLength.toUInt64
                 ingresspacketCountCurrent := stats.ingresspacketCountCurrent + 1 }
  else
    { stats with egressByteCountCurrent := stats.egressByteCountCurrent + frameLength.toUInt64
                 egresspacketCountCurrent := stats.egresspacketCountCurrent + 1 }

/-- The counts of a new flow. -/
def startFrame (stats : FlowStats) (isIngress : Bool) (frameLength : UInt32) : FlowStats :=
  if isIngress then
    { stats with ingressByteCountCurrent := frameLength.toUInt64
                 egressByteCountCurrent := 0
                 ingresspacketCountCurrent := 1
                 egresspacketCountCurrent := 0 }
  else
    { stats with egressByteCountCurrent := frameLength.toUInt64
                 ingressByteCountCurrent := 0
                 egresspacketCountCurrent := 1
                 ingresspacketCountCurrent := 0 }

/-- `stats.packetQueue.push`: one clock reading for the sample, one for the refresh. -/
def pushFrame (env : CollectorEnv) (stats : FlowStats) (frameLength : UInt32) (c : Collector) :
    FlowStats × Collector :=
  let (taken, c) := readSteadyClock env c
  let (now, c) := readSteadyClock env c
  ({ stats with packetQueue := stats.packetQueue.push ⟨frameLength, taken⟩ now }, c)

/-- The flow-table part of the flow branch. -/
def updateFlowTable (env : CollectorEnv) (key : SFlow.FlowKey) (agentKey : AgentKey)
    (isIngress : Bool) (s : FlowSample) (c : Collector) : Collector :=
  match c.flowInfoTable.lookup key with
  | some info =>
    let stats := { (info.agentFlowStats.lookup agentKey).getD {} with
      samplingRate := s.samplingRate }
    let (stats, c) := pushFrame env (addFrame stats isIngress s.frameLength) s.frameLength c
    let (endTime, c) := readSystemClock env c
    let info := { info with isPureAck := isPureAck s
                            isAck := s.isAckPacket
                            agentFlowStats := info.agentFlowStats.insert agentKey stats
                            endTime := endTime }
    { c with flowInfoTable := c.flowInfoTable.insert key info }
  | none =>
    let (startTime, c) := readSystemClock env c
    let (endTime, c) := readSystemClock env c
    let stats : FlowStats := { samplingRate := s.samplingRate }
    let (stats, c) := pushFrame env (startFrame stats isIngress s.frameLength) s.frameLength c
    let info : FlowInfo := { startTime := startTime
                             endTime := endTime
                             agentFlowStats := AList.insert agentKey stats ∅ }
    { c with flowInfoTable := c.flowInfoTable.insert key info }

/-- The edges a sample of a flow with a known path asks to be touched. -/
def edgeTouches (agentIp : UInt32) (key : SFlow.FlowKey) (isIngress : Bool)
    (relevantPort outputPort : UInt32) : List TopologyCall :=
  if isIngress then
    .touchReverseEdge ⟨agentIp, relevantPort⟩ key ::
      (if outputPort ≠ 0 then [.touchEdgeToHost ⟨agentIp, outputPort⟩ key] else [])
  else [.touchEdge ⟨agentIp, relevantPort⟩ key]

/-- The part of the flow branch for TCP, UDP and ICMP. -/
def applyTracked (env : CollectorEnv) (agentIp : UInt32) (s : FlowSample) (c : Collector) :
    Collector :=
  let inputPort := if env.mode = .mininet then env.lookupOfport s.inputPort else s.inputPort
  let outputPort := if env.mode = .mininet then env.lookupOfport s.outputPort else s.outputPort
  let isIngress : Bool := inputPort ≠ 0
  let relevantPort := if isIngress then inputPort else outputPort
  let bytes := s.frameLength.toUInt64 * s.samplingRate.toUInt64
  let c :=
    if env.mode = .mininet then
      { c with
        counterReports := bank c.counterReports ⟨agentIp, relevantPort⟩ bytes
        egressCounterReports :=
          if isIngress ∧ outputPort ≠ 0 then
            bank c.egressCounterReports ⟨agentIp, outputPort⟩ bytes
          else c.egressCounterReports }
    else c
  let key := flowKeyOf s
  let c := updateFlowTable env key ⟨agentIp, relevantPort⟩ isIngress s c
  if env.pathKnown key.srcIP key.dstIP then
    { c with topologyCalls :=
        c.topologyCalls ++ edgeTouches agentIp key isIngress relevantPort outputPort }
  else c

/-- The flow branch of `handlePacket`; other protocols are only counted. -/
def applyFlow (env : CollectorEnv) (agentIp : UInt32) (s : FlowSample) (c : Collector) :
    Collector :=
  let c := if s.isTracked then applyTracked env agentIp s c else c
  { c with addresedSampleNum := c.addresedSampleNum + 1 }

/-- The effect of a decoded sample. -/
def applySample (env : CollectorEnv) (agentIp : UInt32) (event : SampleEvent) (c : Collector) :
    Collector :=
  match event with
  | .counter interfaceIndex interfaceSpeed inputOctets outputOctets =>
    applyCounter env agentIp interfaceIndex interfaceSpeed inputOctets outputOctets c
  | .flow s => applyFlow env agentIp s c
  | .skipped => c

/-! ## Datagrams -/

/-- How the sample loop ended: the state, the word indices at which it started to decode a
    sample, and whether a read ran past the end. -/
structure LoopEnd where
  collector : Collector
  starts : List UInt32 := []
  truncated : Option TruncatedDatagram := none

/-- The reader of the sample at `index`. -/
def sampleReader (words : List UInt32) (index : UInt32) : Reader := fun k =>
  (boundedWord words (index + k).toNat).map Words.ntohl

/-- The sample loop of `handlePacket`, with `remaining` samples to go. -/
def sampleLoop (env : CollectorEnv) (agentIp : UInt32) (words : List UInt32) :
    (remaining : Nat) → (index previousIndex : UInt32) → Collector → LoopEnd
  | 0, _, _, c => { collector := c }
  | remaining + 1, index, previousIndex, c =>
    -- no progress since the last sample, or no room for a type and a length
    if index ≤ previousIndex then { collector := c }
    else if index.toNat + 1 ≥ words.length then { collector := c }
    else
      match decodeSample env.mode (sampleReader words index) with
      | .error e => { collector := c, starts := [index], truncated := some e }
      | .ok (event, none) =>
        { collector := applySample env agentIp event c, starts := [index] }
      | .ok (event, some advance) =>
        let rest := sampleLoop env agentIp words remaining (index + advance) index
          (applySample env agentIp event c)
        { rest with starts := index :: rest.starts }

/-- The header checks of `handlePacket` and its sample loop; `none` for a datagram that is
    not looked at. -/
def decodeDatagram (env : CollectorEnv) (buffer : List UInt8) (c : Collector) :
    Option LoopEnd :=
  if buffer.length < 7 * 4 ∨ buffer.length % 4 ≠ 0 then none
  else
    match Words.toWords buffer with
    | w₀ :: w₁ :: agentIp :: w₃ :: w₄ :: w₅ :: w₆ :: rest =>
      let words := w₀ :: w₁ :: agentIp :: w₃ :: w₄ :: w₅ :: w₆ :: rest
      if Words.ntohl w₀ ≠ 5 then none
      else if (Words.ntohl w₆).toNat > (words.length - 7) / 2 then none
      else some (sampleLoop env agentIp words (Words.ntohl w₆).toNat 7 0 c)
    | _ => none

/-- `handlePacket` -/
def handlePacket (env : CollectorEnv) (buffer : List UInt8) (c : Collector) : Collector :=
  match decodeDatagram env buffer c with
  | none => c
  | some loopEnd =>
    match loopEnd.truncated with
    | none => loopEnd.collector
    | some _ =>
      { loopEnd.collector with
        malformedDatagrams := loopEnd.collector.malformedDatagrams + 1 }

/-- The word indices at which `handlePacket` starts to decode a sample. -/
def decodedStarts (env : CollectorEnv) (buffer : List UInt8) (c : Collector) : List UInt32 :=
  match decodeDatagram env buffer c with
  | none => []
  | some loopEnd => loopEnd.starts

end Collector

end Ndtwin.Kernel
