import Ndtwin.ForStd.JsonUpdate
import Ndtwin.ForStd.SortedInsert
import Ndtwin.Kernel.FlowBatch
import Ndtwin.Kernel.Utils

/-!
# The topology file

`src/ndt_core/collection/TopologyAndFlowMonitor.cpp`, `loadStaticTopologyFromFile`: the vertices
and the edges of the graph from a parsed file. An exception refuses the file. The fields of a node
that nothing modelled uses are read and dropped, since a field of the wrong type refuses the file
too.
-/

namespace Ndtwin.Kernel

/-! ## The graph with its bandwidths -/

instance : IsStrictTotalOrder EdgeDesc EdgeDesc.before where
  trichotomous a b hab hba := by
    cases a
    cases b
    unfold EdgeDesc.before at hab hba
    dsimp only at hab hba
    rw [EdgeDesc.mk.injEq]
    omega
  irrefl a h := by
    unfold EdgeDesc.before at h
    omega
  trans a b c hab hbc := by
    unfold EdgeDesc.before at hab hbc ⊢
    omega

/-- `boost::add_edge` between two vertices of the graph: nothing changes when the graph has an
    edge from the first to the second. -/
def Graph.addEdge (g : Graph) (d : EdgeDesc) (props : EdgeProperties) : Graph :=
  if h : d.source < g.vertices.length ∧ d.target < g.vertices.length then
    { vertices := g.vertices
      edges := SortedInsert.insertNew EdgeDesc.before Edge.desc ⟨d, props⟩ g.edges
      -- the new edge is between vertices, and the others were
      inRange := by
        intro e he
        cases SortedInsert.mem_of_mem_insertNew he with
        | inl heq => exact heq ▸ h
        | inr hmem => exact g.inRange e hmem
      sorted := SortedInsert.Sorted.insertNew g.sorted _ }
  else g

/-- `MININET_INTERFACE_SPEED` -/
def mininetInterfaceSpeed : UInt64 := 1000000000

/-- The bandwidths of `EdgeProperties`. -/
structure LinkInfo where
  leftBandwidth : UInt64 := 0
  linkBandwidth : UInt64 := mininetInterfaceSpeed
  linkBandwidthUsage : UInt64 := 0
  leftBandwidthFromFlowSample : UInt64 := mininetInterfaceSpeed
  deriving DecidableEq, Repr

/-- What `TopologyAndFlowMonitor` holds: the graph, the index of the data planes, and the
    bandwidths of the edges. -/
structure Topology extends FlowTopology where
  links : EdgeDesc → LinkInfo

/-- Before a file is loaded. -/
def Topology.empty : Topology where
  dpidToSwitchKind := ∅
  graph := .edgeless []
  links _ := {}

namespace TopologyFile

/-- The exceptions that leave the loader. -/
inductive Error where
  | json (e : Json.Error)
  | invalidArgument
  | runtimeError
  deriving DecidableEq, Repr

abbrev LoadM := Except Error

/-- An access of `nlohmann::json` in the loader. -/
def access {α : Type} (x : Except Json.Error α) : LoadM α := x.mapError .json

/-! ## Fields -/

/-- `j.get<uint32_t>()`, which accepts a boolean. -/
def getUInt32 : Json → Except Json.Error UInt32
  | .uint n => .ok (UInt32.ofNat n)
  | .int i => .ok (UInt32.ofInt i)
  | .float mantissa exponent => .ok (UInt32.ofInt (Json.truncate mantissa exponent))
  | .bool b => .ok (if b then 1 else 0)
  | _ => .error .typeError

/-- `j.get<std::string>()` -/
def getString : Json → Except Json.Error String
  | .str s => .ok s
  | _ => .error .typeError

/-- `j.get<std::vector<T>>()` -/
def getVector {α : Type} (read : Json → LoadM α) : Json → LoadM (List α)
  | .arr elems => elems.mapM read
  | _ => .error (.json .typeError)

/-- `j.at(key).get<T>()` -/
def getField {α : Type} (read : Json → Except Json.Error α) (j : Json) (key : String) : LoadM α :=
  access (j.atField key >>= read)

/-- `j[key]` of a value that is not `const`: a missing field is null, and so are the fields of
    null. -/
def subscript : Json → String → Except Json.Error Json
  | .obj fields, key => .ok (((Json.obj fields).field? key).getD .null)
  | .null, _ => .ok .null
  | _, _ => .error .typeError

/-- One address of `ipStringVecToUint32Vec`. -/
def ipStringToUint32 (ipStr : String) : LoadM UInt32 :=
  match CText.inetAton (CText.cStr ipStr) with
  | some bytes => .ok (Utils.sAddr bytes)
  | none => .error .invalidArgument

/-- `ipStringVecToUint32Vec` of a field. -/
def getIps (j : Json) (key : String) : LoadM (List UInt32) := do
  let ipStringVec ← getVector (fun v => access (getString v)) (← access (j.atField key))
  ipStringVec.mapM ipStringToUint32

/-! ## Nodes -/

/-- `std::tolower` in the C locale. -/
def toLower (s : String) : String := String.ofList (s.toList.map Char.toLower)

/-- `switchKindFromString` -/
def switchKindFromString (s : String) : LoadM SwitchKind :=
  let s := toLower s
  if s = "ovs" then .ok .ovs
  else if s = "bmv2" ∨ s = "p4" then .ok .bmv2
  else if s = "hardware" then .ok .hardware
  else .error .invalidArgument

/-- `switchKindFromBrandName` -/
def switchKindFromBrandName (brandName : String) : SwitchKind :=
  if brandName = "BMv2" then .bmv2
  else if brandName = "OVS" then .ovs
  else .hardware

/-- `from_json` of an `EcmpMember`, of which there is one type: its port. -/
def readEcmpMember (j : Json) : LoadM Int := do
  let type ← getField getString j "type"
  if type = "port" then getField Json.getInt j "port_id" else .error .invalidArgument

/-- `from_json` of an `EcmpGroup`. -/
def readEcmpGroup (j : Json) : LoadM (List Int) := do
  getVector readEcmpMember (← access (j.atField "members"))

/-- `static_cast<VertexType>(..)`: no number but zero stands for a switch. -/
def vertexTypeOf (n : Int) : VertexType := if n = 0 then .switch else .host

/-- An entry of `nodes`: the vertex, and the data plane of a switch. -/
def readNode (mode : DeploymentMode) (nodeJson : Json) : LoadM (VertexProperties × SwitchKind) := do
  let vertexType := vertexTypeOf (← getField Json.getInt nodeJson "vertex_type")
  let mac ← getField Json.getUInt64 nodeJson "mac"
  let ip ← getIps nodeJson "ip"
  let dpid ← getField Json.getUInt64 nodeJson "dpid"
  let _deviceName ← getField getString nodeJson "device_name"
  let _nickName ← getField getString nodeJson "nickname"
  let brandName ← getField getString nodeJson "brand_name"
  -- a file that does not say the kind is read by the brand
  let switchKind ←
    if (nodeJson.field? "switch_kind").isSome then
      getField getString nodeJson "switch_kind" >>= switchKindFromString
    else .ok (switchKindFromBrandName brandName)
  let _deviceLayer ← getField Json.getInt nodeJson "device_layer"
  let _smartPlugIp ← access (nodeJson.valueString "smart_plug_ip")
  let _smartPlugOutlet ← access (nodeJson.valueInt "smart_plug_outlet" (-1))
  let _ecmpGroups ←
    getVector readEcmpGroup (← access (nodeJson.valueJson "ecmp_groups" (.arr [])))
  if vertexType = .switch ∧ ip = [] then .error .runtimeError
  else
    if mode = .mininet ∧ vertexType = .switch then
      let _bridgeName ← getField getString nodeJson "bridge_name"
    return ({ vertexType := vertexType, mac := mac, ip := ip, dpid := dpid, isUp := false,
              isEnabled := false }, switchKind)

/-- The vertices so far, the index of the switches, and the index of their data planes. -/
structure NodeLoop where
  vertices : List VertexProperties := []
  dpidToVertex : AssocMap UInt64 Nat := ∅
  dpidToSwitchKind : AssocMap UInt64 SwitchKind

/-- The body of the loop over the nodes. -/
def NodeLoop.add (s : NodeLoop) (node : VertexProperties × SwitchKind) : NodeLoop :=
  let (vp, switchKind) := node
  let v := s.vertices.length
  let s := { s with vertices := s.vertices ++ [vp] }
  if vp.vertexType = .switch then
    -- of two switches with one dpid the later one is found
    { s with dpidToVertex := s.dpidToVertex.insert vp.dpid v
             dpidToSwitchKind := s.dpidToSwitchKind.insert vp.dpid switchKind }
  else s

/-! ## Edges -/

/-- An entry of `edges`. -/
structure EdgeEntry where
  props : EdgeProperties
  linkBandwidth : UInt64
  deriving DecidableEq, Repr

/-- The bandwidths that the loader gives to an edge. -/
def EdgeEntry.link (e : EdgeEntry) : LinkInfo where
  leftBandwidth := e.linkBandwidth
  linkBandwidth := e.linkBandwidth
  linkBandwidthUsage := 0

def readEdge (edgeJson : Json) : LoadM EdgeEntry := do
  let linkBandwidth ← getField Json.getUInt64 edgeJson "link_bandwidth_bps"
  let srcIp ← getIps edgeJson "src_ip"
  let srcDpid ← getField Json.getUInt64 edgeJson "src_dpid"
  let srcInterface ← getField getUInt32 edgeJson "src_interface"
  let dstIp ← getIps edgeJson "dst_ip"
  let dstDpid ← getField Json.getUInt64 edgeJson "dst_dpid"
  let dstInterface ← getField getUInt32 edgeJson "dst_interface"
  return {
    props := { isUp := false, isEnabled := false, srcIp := srcIp, srcDpid := srcDpid,
               srcInterface := srcInterface, dstIp := dstIp, dstDpid := dstDpid,
               dstInterface := dstInterface }
    linkBandwidth := linkBandwidth }

/-- The vertex at an end: a switch by its dpid, or a host by its first address. -/
def endVertex (dpidToVertex : AssocMap UInt64 Nat) (g : Graph) (dpid : UInt64)
    (ips : List UInt32) : Option Nat :=
  if dpid ≠ 0 then dpidToVertex.lookup dpid
  else
    match ips with
    -- a host without an address is not found
    | [] => none
    | ip :: _ => g.findVertexByIp ip

/-- The end vertices of an entry. -/
def ends (dpidToVertex : AssocMap UInt64 Nat) (g : Graph) (e : EdgeEntry) : Option EdgeDesc :=
  match endVertex dpidToVertex g e.props.srcDpid e.props.srcIp,
    endVertex dpidToVertex g e.props.dstDpid e.props.dstIp with
  | some source, some target => some ⟨source, target⟩
  | _, _ => none

/-- `boost::add_edge` with the bandwidths. -/
def addEdge (t : Topology) (d : EdgeDesc) (e : EdgeEntry) : Topology where
  dpidToSwitchKind := t.dpidToSwitchKind
  graph := t.graph.addEdge d e.props
  links := if (t.graph.propsOf d).isSome then t.links else Function.update t.links d e.link

/-- The body of the loop over the edges: an entry without both ends is skipped, with a warning. -/
def addEntry (dpidToVertex : AssocMap UInt64 Nat) (t : Topology) (e : EdgeEntry) : Topology :=
  match ends dpidToVertex t.graph e with
  | some d => addEdge t d e
  | none => t

/-! ## The file -/

/-- The elements that `for (.. : j[key])` visits, each of them read. -/
def readEntries {α : Type} (read : Json → LoadM α) (j : Json) (key : String) : LoadM (List α) := do
  (← access (subscript j key)).iterate.mapM read

end TopologyFile

open TopologyFile

/-- `loadStaticTopologyFromFile`; a second load is ignored. -/
def Topology.loadStaticTopologyFromFile (mode : DeploymentMode) (j : Json) (t : Topology) :
    LoadM Topology := do
  if t.graph.vertices ≠ [] then return t
  else
    let nodes ← readEntries (readNode mode) j "nodes"
    let loop := nodes.foldl NodeLoop.add { dpidToSwitchKind := t.dpidToSwitchKind }
    let edges ← readEntries readEdge j "edges"
    return edges.foldl (addEntry loop.dpidToVertex)
      { t with dpidToSwitchKind := loop.dpidToSwitchKind, graph := .edgeless loop.vertices }

end Ndtwin.Kernel
