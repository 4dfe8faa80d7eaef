import Goofy.Gopher.NodeFSys
import Goofy.Gopher.NodeGopherMap
import Goofy.Gopher.NodeRedirect

/-!
# The map

`gopher/map.h` and `gopher/map.cc`: the nodes by selector, and the selectors by
path.  `lookup` finds the node of a request; `AnyNode` stands for the classes
derived from `Node` that the server creates.
-/

namespace Goofy
namespace Gopher

open Effect

/-- The nodes that the server creates. -/
inductive AnyNode where
  | redirect (n : NodeRedirect)
  | gopherMap (n : NodeGopherMap)
  | fsys (n : NodeFSys)

namespace AnyNode

def info : AnyNode → NodeInfo
  | redirect n => n.info
  | gopherMap n => n.info
  | fsys n => n.info

/-- The virtual `make_writer`. -/
def makeWriter {ω : Type} (os : Os ω) (vpaths : VirtualPathsMap)
    (node : AnyNode) (request : Request) : Prog ω Body :=
  match node with
  | redirect n => n.makeWriter request
  | gopherMap n => n.makeWriter os vpaths
  | fsys n => n.makeWriter os request

end AnyNode

structure LookupMap where
  settings : Settings
  urlRedirector : NodeRedirect
  nodes : AList (fun _ : Bytes => AnyNode)

namespace LookupMap

def create (settings : Settings) : Except Exn LookupMap :=
  (NodeRedirect.create settings).map (fun redirector => ⟨settings, redirector, ∅⟩)

def insert (lm : LookupMap) (item : AnyNode) : Except Exn LookupMap :=
  if item.info.selector ∈ lm.nodes then .error (.duplicatedError item.info.selector)
  else .ok { lm with nodes := lm.nodes.insert item.info.selector item }

def lookup (lm : LookupMap) (request : Request) : Except Exn AnyNode :=
  if request.isUrl then .ok (.redirect lm.urlRedirector)
  else
    match lm.nodes.lookup request.selector with
    | none => .error (.lookupFailure request.selector)
    | some node => .ok node

/-- A request that is no URL request is looked up by its selector alone. -/
theorem lookup_congr
    (lm : LookupMap) {r r' : Request}
    (hr : r.isUrl = false) (hr' : r'.isUrl = false)
    (h : r.selector = r'.selector) :
    lm.lookup r = lm.lookup r' := by
  rw [lookup, lookup, hr, hr', h]

end LookupMap

structure Map where
  lookupMap : LookupMap
  pathsMap : VirtualPathsMap

def Map.create (settings : Settings) : Except Exn Map :=
  (LookupMap.create settings).map (fun lookupMap => ⟨lookupMap, ⟨∅⟩⟩)

end Gopher
end Goofy
