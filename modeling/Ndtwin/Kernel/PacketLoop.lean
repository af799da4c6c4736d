import Ndtwin.Kernel.FlowLinkUsageCollector

/-!
# The sample loop, statement by statement

`src/ndt_core/collection/FlowLinkUsageCollector.cpp`: `handlePacket` with its reads and writes
in the order of the source. Every access to a word may throw; the exception is caught at the end
of the function, so what was written before it stays. The position `index` is moved inside a
sample, and the words behind it are read from where it stands.

Two records that the program does not keep show what happened: the words that were read, and
the positions at which samples were started.
-/

namespace Ndtwin.Kernel

open SFlow

/-- The locals of `handlePacket` that live across samples, with the collector. -/
structure PacketState where
  collector : Collector
  index : UInt32 := 0
  previousIndex : UInt32 := 0
  starts : List UInt32 := []
  wordsRead : List Nat := []

/-- `previousIndex = index` -/
def PacketState.mark (s : PacketState) : PacketState :=
  { s with previousIndex := s.index, starts := s.starts ++ [s.index] }

/-- A part of the function body; an exception keeps what was written. -/
abbrev PacketM := EStateM TruncatedDatagram PacketState

namespace PacketLoop

/-- `data[index + k]` -/
def rawWord (words : List UInt32) (k : UInt32) : PacketM UInt32 := fun s =>
  match boundedWord words (s.index + k).toNat with
  | .ok w => .ok w { s with wordsRead := s.wordsRead ++ [(s.index + k).toNat] }
  | .error e => .error e s

/-- `ntohl(data[index + k])` -/
def word (words : List UInt32) (k : UInt32) : PacketM UInt32 :=
  Words.ntohl <$> rawWord words k

/-- `index += n` -/
def skip (n : UInt32) : PacketM PUnit :=
  modify fun s => { s with index := s.index + n }

/-- A change of the collector. -/
def credit (f : Collector → Collector) : PacketM PUnit :=
  modify fun s => { s with collector := f s.collector }

section

variable (env : CollectorEnv) (agentIp : UInt32) (words : List UInt32)

/-- Two words as one 64-bit value. -/
def word64 (k : UInt32) : PacketM UInt64 := do
  let high ← word words k
  let low ← word words (k + 1)
  return (high.toUInt64 <<< 32) ||| low.toUInt64

/-- The branch of the counter samples; `base` is where the record starts. The branches say
    whether the loop goes on. -/
def counterSample (base : UInt32) : PacketM Bool := do
  let sampleLen ← word words 1
  let interfaceIndex ← word words (base + 3)
  let interfaceSpeed ← word64 words (base + 5)
  let inputOctets ← word64 words (base + 9)
  let outputOctets ← word64 words (base + 17)
  skip (sampleLen / 4 + 2)
  credit (Collector.applyCounter env agentIp interfaceIndex interfaceSpeed inputOctets outputOctets)
  return true

/-- The transport header; `base` is the word of the EtherType. -/
def readTransport (base : UInt32) (s : FlowSample) : PacketM FlowSample :=
  if s.protocol ≠ 1 then do
    let srcPort ← word words (base + 5)
    let dstPort ← word words (base + 6)
    let s := { s with srcPort := (srcPort &&& 0xFFFF).toUInt16,
                      dstPort := ((dstPort >>> 16) &&& 0xFFFF).toUInt16 }
    if s.protocol = 6 then do
      let tcpFlags ← word words (base + 8)
      return { s with isAckPacket := (tcpFlags &&& 0xFF).toUInt8 &&& 0x10 ≠ 0 }
    else return s
  else do
    let icmpType ← word words (base + 5)
    let icmpCode ← word words (base + 5)
    return { s with icmpType := ((icmpType >>> 8) &&& 0xFF).toUInt16,
                    icmpCode := (icmpCode &&& 0xFF).toUInt16 }

/-- The frame header; `none` for a frame that is not IPv4. -/
def readFrame (base samplingRate inputPort outputPort frameLength : UInt32) :
    PacketM (Option FlowSample) := do
  let etherType ← word words base
  if (etherType >>> 16) &&& 0xFFFF ≠ 0x0800 then return none
  else do
    let frag ← word words (base + 2)
    let protocol ← word words (base + 2)
    let srcFront ← word words (base + 3)
    let srcBack ← word words (base + 4)
    let dstFront ← word words (base + 4)
    let dstBack ← word words (base + 5)
    let s ← readTransport words base
      { samplingRate := samplingRate
        inputPort := inputPort
        outputPort := outputPort
        frameLength := frameLength
        frag := ((frag >>> 16) &&& 0xFFFF).toUInt16
        protocol := (protocol &&& 0xFF).toUInt8
        srcIp := ipFromFrontBack srcFront srcBack
        dstIp := ipFromFrontBack dstFront dstBack }
    return some s

/-- `flowDataLength`, which Mininet reads and skips. -/
def skipFlowData : PacketM UInt32 :=
  match env.mode with
  | .mininet => do
    let flowDataLength ← word words 11
    skip (flowDataLength / 4 + 2)
    return flowDataLength
  | .testbed => return 0

/-- The rest of the flow branch, behind the headers. A dropped fragment leaves by `continue`. -/
def finishFlow (sampleLen flowDataLength : UInt32) : Option FlowSample → PacketM Bool
  | none => do
    skip (flowAdvance env.mode sampleLen flowDataLength)
    return true
  | some s =>
    if s.isTracked ∧ s.fragOff ≠ 0 then return true
    else do
      credit fun c => if s.isTracked then Collector.applyTracked env agentIp s c else c
      skip (flowAdvance env.mode sampleLen flowDataLength)
      credit fun c => { c with addresedSampleNum := c.addresedSampleNum + 1 }
      return true

/-- The flow branch for Brocade (type 1). -/
def brocadeSample : PacketM Bool := do
  let sampleLen ← word words 1
  let _ ← word words 4
  let samplingRate ← word words 4
  let inputPort ← word words 7
  let outputPort ← word words 8
  let flowDataLength ← skipFlowData env words
  let frameLength ← word words 13
  let frame ← readFrame words 19 samplingRate inputPort outputPort frameLength
  finishFlow env agentIp sampleLen flowDataLength frame

/-- The flow branch for HPE (type 3). -/
def hpeSample : PacketM Bool := do
  let sampleLen ← word words 1
  let _ ← word words 4
  let samplingRate ← word words 5
  let inputPort ← word words 9
  let outputPort ← word words 11
  let frameLength ← word words 16
  let frame ← readFrame words 23 samplingRate inputPort outputPort frameLength
  finishFlow env agentIp sampleLen 0 frame

/-- The branch of the other samples, which leaves the loop when it cannot tell the length. -/
def unknownSample : PacketM Bool := do
  let sampleLen ← word words 1
  if sampleLen > 0 then do
    skip (sampleLen / 4 + 2)
    return true
  else return false

/-- The body of the loop behind its guards. -/
def sample : PacketM Bool := do
  let sampleType ← word words 0
  if sampleType = 2 then counterSample env agentIp words 19
  else if sampleType = 4 then counterSample env agentIp words 5
  else if sampleType = 1 then brocadeSample env agentIp words
  else if sampleType = 3 then hpeSample env agentIp words
  else unknownSample words

/-- The sample loop, with `remaining` samples to go. -/
def sampleLoop : (remaining : Nat) → PacketM PUnit
  | 0 => return ⟨⟩
  | remaining + 1 => do
    let s ← get
    if s.index ≤ s.previousIndex then return ⟨⟩
    else if s.index.toNat + 1 ≥ words.length then return ⟨⟩
    else do
      modify PacketState.mark
      let again ← sample env agentIp words
      if again then sampleLoop remaining else return ⟨⟩

/-- The most samples that the words can hold. -/
def maxPossibleSamples : Nat := if words.length > 7 then (words.length - 7) / 2 else 0

/-- The body of the `try`. -/
def datagram : PacketM PUnit := do
  let version ← word words 0
  if version ≠ 5 then return ⟨⟩
  else do
    let agentIp ← rawWord words 2
    let sampleCount ← word words 6
    if sampleCount.toNat > maxPossibleSamples words then return ⟨⟩
    else do
      modify fun s => { s with index := 7 }
      sampleLoop env agentIp words sampleCount.toNat

end

/-- `handlePacket`, with what it leaves behind. -/
def handlePacket (env : CollectorEnv) (buffer : List UInt8) (c : Collector) : PacketState :=
  if buffer.length < 7 * 4 ∨ buffer.length % 4 ≠ 0 then { collector := c }
  else
    match datagram env (Words.toWords buffer) { collector := c } with
    | .ok _ s => s
    -- `reportMalformedDatagram`
    | .error _ s =>
      { s with
        collector := { s.collector with
          malformedDatagrams := s.collector.malformedDatagrams + 1 } }

end PacketLoop

end Ndtwin.Kernel
