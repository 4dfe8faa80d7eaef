import Goofy.Gopher.NodeTypes

/-!
# Nodes

`gopher/node.h` and `gopher/node.cc`: what every node has.  The constructor
refuses texts with tabs, so a `Node` carries the fact that its texts have none.
-/

namespace Goofy
namespace Gopher

/-- The members of the base class: a description whose texts hold no tab. -/
structure Node where
  info : NodeInfo
  tab_not_mem : ∀ s ∈ [info.displayName, info.selector, info.host], TAB ∉ s

def Node.create
    (type : NodeType) (displayName selector host : Bytes) (port : UInt16) :
    Except Exn Node :=
  if h : ∀ s ∈ [displayName, selector, host], TAB ∉ s then
    .ok ⟨⟨type.code, displayName, selector, host, port⟩, h⟩
  else
    .error (.nodeError (lit "Unallowed tab sign: " ++
      ([displayName, selector, host].find? (fun s => decide (TAB ∈ s))).getD []))

/-- A node that was created describes itself as it was told. -/
theorem Node.info_of_create_eq_ok
    {type : NodeType} {displayName selector host : Bytes} {port : UInt16}
    {node : Node}
    (h : Node.create type displayName selector host port = .ok node) :
    node.info = ⟨type.code, displayName, selector, host, port⟩ := by
  unfold Node.create at h
  split_ifs at h with htab
  rw [← Except.ok.inj h]

/-- A node is refused for a tab only. -/
theorem Node.create_error
    {type : NodeType} {displayName selector host : Bytes} {port : UInt16} {e : Exn}
    (h : Node.create type displayName selector host port = .error e) :
    ∃ msg, e = .nodeError msg := by
  unfold Node.create at h
  split_ifs at h with htab
  exact ⟨_, (Except.error.inj h).symm⟩

end Gopher
end Goofy
