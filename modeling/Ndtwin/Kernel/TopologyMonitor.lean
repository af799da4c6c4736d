import Ndtwin.ForStd.EState
import Ndtwin.ForStd.Json
import Ndtwin.Kernel.Graph
import Ndtwin.Kernel.Utils

/-!
# Discovery and administrative state of the topology

`src/ndt_core/collection/TopologyAndFlowMonitor.cpp`: the three polling updates, which mark
what the control plane reports as up and enabled, and the operator's disable and enable of a
switch. Each poll works entry by entry under one `try`: an entry that cannot be used is
skipped, an exception abandons the rest of the reply, and what was written stays written.
-/

namespace Ndtwin.Kernel

/-- The answer of a topology endpoint, after `json::parse`. -/
inductive PollReply where
  | empty
  | unparsable
  | parsed (body : Json)

namespace TopologyMonitor

/-- A poll in progress. -/
abbrev Poll := EStateM Json.Error Graph

/-- What discovery writes on a vertex it has seen. -/
def seenVertex (v : VertexProperties) : VertexProperties :=
  { v with isUp := true, isEnabled := true }

/-- What discovery writes on an edge it has seen. -/
def seenEdge (e : EdgeProperties) : EdgeProperties :=
  { e with isUp := true, isEnabled := true }

def markVertex (v : Option Nat) : Poll Unit :=
  match v with
  | some v => modify fun g => g.updateVertex v seenVertex
  | none => pure ()

def markEdge (e : Option EdgeDesc) : Poll Unit :=
  match e with
  | some e => modify fun g => g.updateEdge e seenEdge
  | none => pure ()

/-- One entry of the switches reply. -/
def updateSwitch (switchInfoJson : Json) : Poll Unit := do
  let switchDpidStr ← EState.ofExcept (switchInfoJson.valueString "dpid")
  match Utils.tryParseHexUint64 switchDpidStr with
  | none => pure ()
  | some switchDpid => do
    let g ← get
    markVertex (g.findSwitchByDpid switchDpid)

/-- The switch side of a host entry: the edge from the switch it is attached to. -/
def updateHostAttachment (host : Json) (ip : UInt32) : Poll Unit := do
  match host.field? "port" with
  | none => pure ()
  | some port =>
    match port.field? "dpid" with
    | none => pure ()
    | some _ => do
      let attachDpidStr ← EState.ofExcept (port.valueString "dpid")
      match Utils.tryParseHexUint64 attachDpidStr with
      | none => pure ()
      | some attachDpid => do
        let g ← get
        match g.findSwitchByDpid attachDpid with
        | none => pure ()
        | some v =>
          -- `ip[0]`: a switch has an address; on an empty vector the read is undefined
          let switchIp := ((g.vertices[v]?).bind fun p => p.ip.head?).getD 0
          markEdge (g.findEdgeBySrcAndDstIp switchIp ip)

/-- One entry of the hosts reply. -/
def updateHost (host : Json) : Poll Unit := do
  match host.field? "ipv4" with
  | none => pure ()
  | some vecIpStr =>
    if vecIpStr.isEmpty then pure ()
    else do
      let macStr ← EState.ofExcept (host.valueString "mac")
      match Utils.tryMacToUint64 macStr with
      | none => pure ()
      | some hostMac => do
        let g ← get
        markVertex (g.findVertexByMac hostMac)
        let ipJson ← EState.ofExcept vecIpStr.first
        match ipJson with
        | .str ipStr =>
          match Utils.tryIpStringToUint32 ipStr with
          | none => pure ()
          | some ip => do
            let g ← get
            markEdge (g.findEdgeByHostIp ip)
            updateHostAttachment host ip
        | _ => pure ()

/-- One entry of the links reply. The port of the far end is read and not used. -/
def updateLink (link : Json) : Poll Unit := do
  match link.field? "src", link.field? "dst" with
  | some src, some dst => do
    let srcDpidStr ← EState.ofExcept (src.valueString "dpid")
    let srcPortStr ← EState.ofExcept (src.valueString "port_no")
    let dstDpidStr ← EState.ofExcept (dst.valueString "dpid")
    let _dstPortStr ← EState.ofExcept (dst.valueString "port_no")
    if srcDpidStr.isEmpty ∨ dstDpidStr.isEmpty then pure ()
    else
      match Utils.tryParseHexUint64 srcDpidStr, Utils.tryParseHexUint64 dstDpidStr with
      | some srcDpid, some dstDpid => do
        let g ← get
        match g.findSwitchByDpid srcDpid, g.findSwitchByDpid dstDpid with
        | some _, some _ =>
          markEdge (g.findEdgeByDpidAndPort srcDpid (Utils.portStringToUint srcPortStr))
        | _, _ => pure ()
      | _, _ => pure ()
  | _, _ => pure ()

/-- A poll: parse the reply, take its entries in order, and give up at an exception. -/
def poll (entry : Json → Poll Unit) (reply : PollReply) (g : Graph) : Graph :=
  match reply with
  | .empty => g
  | .unparsable => g
  | .parsed body => EState.finalState (body.iterate.forM entry) g

def updateSwitches (reply : PollReply) (g : Graph) : Graph := poll updateSwitch reply g

def updateHosts (reply : PollReply) (g : Graph) : Graph := poll updateHost reply g

def updateLinks (reply : PollReply) (g : Graph) : Graph := poll updateLink reply g

/-- `setEdgeDown` -/
def setEdgeDown (e : EdgeDesc) (g : Graph) : Graph :=
  g.updateEdge e fun p => { p with isUp := false }

/-- `setEdgeUp` -/
def setEdgeUp (e : EdgeDesc) (g : Graph) : Graph :=
  g.updateEdge e fun p => { p with isUp := true }

/-- An edge has the vertex at one of its ends. -/
def incident (v : Nat) (e : EdgeDesc) : Bool := e.source = v ∨ e.target = v

/-- The common body of the two administrative actions: both flags of the switch and of
    every edge incident to it. -/
def setAdministrative (disabled : Bool) (dpid : UInt64) (g : Graph) : Bool × Graph :=
  match g.findSwitchByDpid dpid with
  | none => (false, g)
  | some vertex =>
    (true, (g.updateVertex vertex fun v =>
        { v with isEnabled := !disabled, adminDisabled := disabled }).updateEdges
      (incident vertex) fun e => { e with isEnabled := !disabled, adminDisabled := disabled })

def disableSwitchAndEdges (dpid : UInt64) (g : Graph) : Bool × Graph :=
  setAdministrative true dpid g

def enableSwitchAndEdges (dpid : UInt64) (g : Graph) : Bool × Graph :=
  setAdministrative false dpid g

end TopologyMonitor

end Ndtwin.Kernel
