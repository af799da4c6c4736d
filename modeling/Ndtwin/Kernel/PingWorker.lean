import Ndtwin.Kernel.Graph
import Ndtwin.Kernel.Utils

/-!
# The ping pass of a testbed

`DeviceConfigurationAndPowerManager::pingWorker` in TESTBED mode: once a second every
management address of every switch is pinged, and the answer is written to the vertex of the
switch. The pass walks a copy of the graph taken when it starts. Whether an address answers
within the three attempts of `pingSwitch` is up to the network, so it is a parameter.
-/

namespace Ndtwin.Kernel

namespace TopologyMonitor

def setVertexDown (g : Graph) (v : Nat) : Graph := g.updateVertex v ({ · with isUp := false })

def setVertexUp (g : Graph) (v : Nat) : Graph := g.updateVertex v ({ · with isUp := true })

def setVertexDisable (g : Graph) (v : Nat) : Graph :=
  g.updateVertex v ({ · with isEnabled := false })

end TopologyMonitor

namespace DeviceConfigurationAndPowerManager

open TopologyMonitor

variable (pingSwitch : String → Bool)

/-- The body of the loop over the addresses of a switch. An answer sets the vertex up, but it
    does not enable it again. -/
def pingAddress (v : Nat) (live : Graph) (ip : UInt32) : Graph :=
  let alive := pingSwitch (Utils.ipToString ip)
  if ¬ alive then setVertexDisable (setVertexDown live v) v else setVertexUp live v

/-- The body of the loop over the vertices of the copy. -/
def pingVertex (live : Graph) (vertex : VertexProperties × Nat) : Graph :=
  if vertex.1.vertexType = .switch then vertex.1.ip.foldl (pingAddress pingSwitch vertex.2) live
  else live

/-- One pass of `pingWorker` over the copy `graph`, writing to the graph `live`. -/
def pingPass (graph live : Graph) : Graph :=
  graph.vertices.zipIdx.foldl (pingVertex pingSwitch) live

end DeviceConfigurationAndPowerManager

end Ndtwin.Kernel
