import Ndtwin.ForStd.AssocMap
import Ndtwin.ForStd.CText
import Ndtwin.ForStd.EState

/-!
# The sFlow emitter

`p4_proxy/proxy_agent/sflow_emitter.py`: the bytes of an sFlow v5 datagram built from packets
that the pipeline cloned to the CPU, and the emitter that batches them. Python integers are
unbounded, and `struct.pack` throws for one that does not fit its field.
-/

namespace Ndtwin.Proxy

/-- The exceptions of `build_datagram`. -/
inductive EmitError where
  | structError
  | osError
  | valueError
  deriving DecidableEq, Repr

/-- `struct.pack(">I", x)` -/
def packU32 (x : Int) : Except EmitError (List UInt8) :=
  if 0 ≤ x ∧ x < 2 ^ 32 then .ok (CText.bytesBE x.toNat) else .error .structError

/-- `struct.pack(">II…", …)` -/
def packU32s : List Int → Except EmitError (List UInt8)
  | [] => .ok []
  | x :: xs => do
    let first ← packU32 x
    let rest ← packU32s xs
    return first ++ rest

/-- `SampledPacket` -/
structure SampledPacket where
  ingressPort : Int
  egressPort : Int
  frameLength : Int
  samplingRate : Int
  frame : List UInt8

/-- `SwitchAgent` -/
structure SwitchAgent where
  agentIp : String
  subAgentId : Int := 0
  datagramSequence : Int := 0
  sampleSequence : Int := 0
  samplePool : Int := 0
  dropped : Int := 0
  deriving DecidableEq, Repr

/-- A program that uses an agent. -/
abbrev AgentM := EStateM EmitError SwitchAgent

/-- `next_datagram_sequence` -/
def nextDatagramSequence : AgentM Int := do
  let agent ← get
  let seq := (agent.datagramSequence + 1) % 2 ^ 32
  set { agent with datagramSequence := seq }
  return seq

/-- `next_sample_sequence` -/
def nextSampleSequence : AgentM Int := do
  let agent ← get
  let seq := (agent.sampleSequence + 1) % 2 ^ 32
  set { agent with sampleSequence := seq }
  return seq

/-- `advance_pool` -/
def advancePool (samplingRate : Int) : AgentM Int := do
  let agent ← get
  let pool := (agent.samplePool + samplingRate) % 2 ^ 32
  set { agent with samplePool := pool }
  return pool

/-- `_pad_to_word` -/
def padToWord (data : List UInt8) : List UInt8 :=
  if data.length % 4 = 0 then data else data ++ List.replicate (4 - data.length % 4) 0

/-- `struct.pack(">II", tag, len(body)) + body` -/
def lengthPrefixed (tag : Int) (body : List UInt8) : Except EmitError (List UInt8) := do
  let head ← packU32s [tag, body.length]
  return head ++ body

/-- `record0` of `build_flow_sample`: an empty extended_switch record. -/
def extendedSwitchRecord : Except EmitError (List UInt8) := do
  let extendedSwitch ← packU32s [0, 0, 0, 0]
  lengthPrefixed 1001 extendedSwitch

/-- `record1` of `build_flow_sample`: the captured frame. -/
def rawHeaderRecord (frameLength : Int) (frame : List UInt8) : Except EmitError (List UInt8) := do
  let fields ← packU32s [1, frameLength, 0, frame.length]
  lengthPrefixed 1 (fields ++ padToWord frame)

/-- `build_flow_sample` -/
def buildFlowSample (sample : SampledPacket) (maxHeaderBytes : Nat) : AgentM (List UInt8) := do
  let record0 ← EState.ofExcept extendedSwitchRecord
  let record1 ← EState.ofExcept
    (rawHeaderRecord sample.frameLength (sample.frame.take maxHeaderBytes))
  -- from here on a failure leaves the sequence number and the pool advanced
  let seq ← nextSampleSequence
  let pool ← advancePool sample.samplingRate
  let agent ← get
  let fields ← EState.ofExcept (packU32s
    [seq, 2 * 2 ^ 24 + sample.ingressPort % 2 ^ 24, sample.samplingRate, pool, agent.dropped,
      sample.ingressPort, sample.egressPort, 2])
  EState.ofExcept (lengthPrefixed 1 (fields ++ record0 ++ record1))

/-- The payload of `build_datagram`. -/
def buildFlowSamples (maxHeaderBytes : Nat) : List SampledPacket → AgentM (List UInt8)
  | [] => return []
  | sample :: samples => do
    let head ← buildFlowSample sample maxHeaderBytes
    let rest ← buildFlowSamples maxHeaderBytes samples
    return head ++ rest

/-- `socket.inet_aton`, which refuses a string that C would cut short. -/
def inetAtonOrThrow (address : String) : Except EmitError (List UInt8) :=
  if '\x00' ∈ address.toList then .error .valueError
  else
    match CText.inetAton address.toList with
    | some bytes => .ok bytes
    | none => .error .osError

/-- `build_datagram` -/
def buildDatagram (samples : List SampledPacket) (uptimeMs : Int) (maxHeaderBytes : Nat) :
    AgentM (List UInt8) :=
  if samples.isEmpty then throw .valueError
  else do
    let version ← EState.ofExcept (packU32s [5, 1])
    let agent ← get
    let address ← EState.ofExcept (inetAtonOrThrow agent.agentIp)
    -- the number is used up, whether or not the datagram is built
    let seq ← nextDatagramSequence
    let numbers ← EState.ofExcept (packU32s [agent.subAgentId, seq, uptimeMs])
    let count ← EState.ofExcept (packU32s [samples.length])
    let payload ← buildFlowSamples maxHeaderBytes samples
    return version ++ address ++ numbers ++ count ++ payload

/-! ## The emitter -/

/-- What the emitter finds outside. A time is whatever the clock returns. -/
structure EmitterEnv (τ : Type) where
  /-- `time.monotonic()`, the `n`-th time it is called. -/
  monotonic : Nat → τ
  /-- `now - t >= self.batch_max_delay_s` -/
  isAged (now t : τ) : Bool
  /-- `int((now - self._started_at) * 1000)` -/
  millis : τ → Int
  /-- Whether the `n`-th `sendto` returns; else it raises an `OSError`. -/
  accepts : Nat → Bool

/-- A datagram on the wire. The switch it was sent for is observed, the socket sees the bytes. -/
structure SentDatagram where
  dpid : Int
  bytes : List UInt8
  deriving DecidableEq, Repr

/-- `SFlowEmitter`, with what its socket has taken and how often it has read the clock. -/
structure SFlowEmitter (τ : Type) where
  maxHeaderBytes : Nat
  batchSize : Int
  pending : AssocMap Int (List SampledPacket) := ∅
  pendingSince : AssocMap Int τ := ∅
  batchesFlushedFull : Nat := 0
  batchesFlushedAged : Nat := 0
  agents : AssocMap Int SwitchAgent := ∅
  datagramsSent : Nat := 0
  samplesSent : Nat := 0
  sendErrors : Nat := 0
  readings : Nat := 0
  wire : List SentDatagram := []

namespace SFlowEmitter

variable {τ : Type}

/-- `SFlowEmitter.__init__` -/
def init (batchSize : Int) (maxHeaderBytes : Nat) : SFlowEmitter τ where
  maxHeaderBytes := maxHeaderBytes
  batchSize := max 1 batchSize

/-- `register_switch` -/
def registerSwitch (dpid : Int) (agentIp : String) (e : SFlowEmitter τ) : SFlowEmitter τ :=
  { e with agents := e.agents.set dpid { agentIp := agentIp } }

/-- What is buffered for a switch. -/
def buffered (e : SFlowEmitter τ) (dpid : Int) : List SampledPacket :=
  (e.pending.lookup dpid).getD []

/-- The end of `emit` and of `_flush_one`: build a datagram, send it and count. Each `sendto`
    raises one of two counters. -/
def sendSamples (env : EmitterEnv τ) (dpid : Int) (agent : SwitchAgent)
    (samples : List SampledPacket) (uptimeMs : Int) (e : SFlowEmitter τ) :
    Bool × SFlowEmitter τ :=
  match buildDatagram samples uptimeMs e.maxHeaderBytes agent with
  -- the samples are lost, and no counter is raised
  | .error _ agent => (false, { e with agents := e.agents.set dpid agent })
  | .ok bytes agent =>
    let e := { e with agents := e.agents.set dpid agent }
    if env.accepts (e.datagramsSent + e.sendErrors) then
      (true, { e with
        datagramsSent := e.datagramsSent + 1
        samplesSent := e.samplesSent + samples.length
        wire := e.wire ++ [⟨dpid, bytes⟩] })
    else (false, { e with sendErrors := e.sendErrors + 1 })

/-- `_flush_one` -/
def flushOne (env : EmitterEnv τ) (dpid uptimeMs : Int) (e : SFlowEmitter τ) :
    Bool × SFlowEmitter τ :=
  let samples := e.buffered dpid
  let e := { e with
    pending := e.pending.erase dpid
    pendingSince := e.pendingSince.erase dpid }
  -- the batch is taken out before it is known to be sent
  if samples.isEmpty then (true, e)
  else
    match e.agents.lookup dpid with
    | none => (false, e)
    | some agent => e.sendSamples env dpid agent samples uptimeMs

/-- The switches of `emit` whose batch is too old, the emitting one apart; the clock is read for
    each of the others. -/
def agedOthers (env : EmitterEnv τ) (dpid : Int) : List (Int × τ) → Nat → List Int × Nat
  | [], readings => ([], readings)
  | (d, t) :: rest, readings =>
    -- nobody looks at the age of the emitting switch's own batch
    if d = dpid then agedOthers env dpid rest readings
    else
      let (others, last) := agedOthers env dpid rest (readings + 1)
      (if env.isAged (env.monotonic readings) t then d :: others else others, last)

/-- One turn of the sweep of `emit`. -/
def flushAged (env : EmitterEnv τ) (uptimeMs : Int) (e : SFlowEmitter τ) (other : Int) :
    SFlowEmitter τ :=
  (flushOne env other uptimeMs { e with batchesFlushedAged := e.batchesFlushedAged + 1 }).2

/-- `emit` -/
def emit (env : EmitterEnv τ) (dpid : Int) (sample : SampledPacket) (uptimeMs : Int)
    (e : SFlowEmitter τ) : Bool × SFlowEmitter τ :=
  match e.agents.lookup dpid with
  | none => (false, e)
  | some agent =>
    if 1 < e.batchSize then
      let batch := e.buffered dpid ++ [sample]
      -- the age of a batch is that of its first sample
      let since := (e.pendingSince.lookup dpid).getD (env.monotonic e.readings)
      let e := { e with
        pending := e.pending.set dpid batch
        pendingSince := e.pendingSince.set dpid since
        readings := e.readings + 1 }
      let (ok, e) :=
        if e.batchSize ≤ (batch.length : Int) then
          flushOne env dpid uptimeMs { e with batchesFlushedFull := e.batchesFlushedFull + 1 }
        else (true, e)
      let (others, readings) := agedOthers env dpid e.pendingSince.toPairs e.readings
      (ok, others.foldl (flushAged env uptimeMs) { e with readings := readings })
    -- no batching: each sample in a datagram of its own
    else e.sendSamples env dpid agent [sample] uptimeMs

/-- `uptime_ms`: the reading of the clock, cut to 32 bits. -/
def uptimeMs (env : EmitterEnv τ) (e : SFlowEmitter τ) : Int × SFlowEmitter τ :=
  (env.millis (env.monotonic e.readings) % 2 ^ 32, { e with readings := e.readings + 1 })

/-- `handle_sample` -/
def handleSample (env : EmitterEnv τ) (dpid : Int) (sample : SampledPacket) (e : SFlowEmitter τ) :
    Bool × SFlowEmitter τ :=
  let (uptime, e) := e.uptimeMs env
  e.emit env dpid sample uptime

/-- `flush` -/
def flush (env : EmitterEnv τ) (uptime : Option Int) (e : SFlowEmitter τ) : SFlowEmitter τ :=
  let (uptime, e) :=
    match uptime with
    | some uptime => (uptime, e)
    | none => e.uptimeMs env
  (e.pending.toPairs.map Prod.fst).foldl (fun e dpid => (flushOne env dpid uptime e).2) e

/-- `close`: a flush; what the socket takes afterwards is up to the socket. -/
def close (env : EmitterEnv τ) (e : SFlowEmitter τ) : SFlowEmitter τ := e.flush env none

/-- The calls. -/
inductive Call where
  | registerSwitch (dpid : Int) (agentIp : String)
  | emit (dpid : Int) (sample : SampledPacket) (uptimeMs : Int)
  | handleSample (dpid : Int) (sample : SampledPacket)
  | flush (uptimeMs : Option Int)
  | close

def step (env : EmitterEnv τ) (e : SFlowEmitter τ) : Call → SFlowEmitter τ
  | .registerSwitch dpid agentIp => e.registerSwitch dpid agentIp
  | .emit dpid sample uptimeMs => (e.emit env dpid sample uptimeMs).2
  | .handleSample dpid sample => (e.handleSample env dpid sample).2
  | .flush uptimeMs => e.flush env uptimeMs
  | .close => e.close env

end SFlowEmitter

end Ndtwin.Proxy
