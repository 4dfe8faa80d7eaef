import Mathlib.Data.List.AList
import Goofy.Gopher.Node
import Goofy.Gopher.ProtoWriter
import Goofy.MapParser

/-!
# Gophermap nodes

`gopher/node-gophermap.h` and `gopher/node-gophermap.cc`, and the
`VirtualPathsMap` of `gopher/map.h` that the nodes share.  A `NodeGopherMap`
serves a gophermap file: every request reads the file again and turns its lines
into the entries of a menu.
-/

namespace Goofy
namespace Gopher

open Effect Util MapParser

/-- From the paths of served files and directories to their selectors. -/
structure VirtualPathsMap where
  paths : AList (fun _ : Bytes => Bytes)

namespace VirtualPathsMap

/-- `define`: the next name for a path that has none, or the given name. -/
def define (vps : VirtualPathsMap) (realPath : Bytes) (defineAs : Option Bytes) :
    Bool × VirtualPathsMap :=
  if realPath ∈ vps.paths then (false, vps)
  else
    (true, ⟨vps.paths.insert realPath
      (defineAs.getD (toDecimal vps.paths.entries.length))⟩)

/-- `virtual_path_of`: the path must be there. -/
def virtualPathOf (vps : VirtualPathsMap) (realPath : Bytes) : Except Fail Bytes :=
  match vps.paths.lookup realPath with
  | none => .error .assertion
  | some virtualPath => .ok virtualPath

end VirtualPathsMap

structure NodeGopherMap extends Node where
  settings : Settings
  filePath : Bytes

namespace NodeGopherMap

def create (settings : Settings) (vpaths : VirtualPathsMap) (path : Bytes) :
    Except Fail NodeGopherMap :=
  match vpaths.virtualPathOf path with
  | .error f => .error f
  | .ok virtualPath =>
      match Node.create .menu (lit "display") virtualPath
          settings.self.hostname settings.self.port with
      | .error e => .error (.exn e)
      | .ok node => .ok ⟨node, settings, path⟩

/-- Add to the menu that is being written. -/
def emit (f : MenuWriter → MenuWriter) : Prog MenuWriter Unit :=
  Prog.prim (fun writer => (.ok (), f writer))

/-- The parser of `make_writer`, over the menu that its callbacks write. -/
def mapParser (n : NodeGopherMap) (vpaths : VirtualPathsMap) : Parser MenuWriter where
  settings := n.settings
  onLocalNode := some (fun node => do
    let virtualPath ← Prog.lift (vpaths.virtualPathOf node.selector.str)
    emit (fun writer => writer.node ⟨node.type, node.displayName.str, virtualPath,
      n.settings.self.hostname, n.settings.self.port⟩))
  onRemoteNode := some (fun node =>
    emit (fun writer => writer.node ⟨node.type, node.displayName.str,
      node.selector.str, node.hostname.str, node.port⟩))
  onUrl := some (fun url =>
    emit (fun writer => writer.node ⟨NodeType.hypertext.code, url.displayName.str,
      url.href.str, n.settings.self.hostname, n.settings.self.port⟩))
  onText := some (fun text =>
    emit (fun writer => writer.textString text.str))

/-- The menu that the lines of an open file make. -/
def writeMenu (n : NodeGopherMap) (vpaths : VirtualPathsMap) (reader : Util.Reader) :
    Except Fail Unit × MenuWriter :=
  Prog.exec (reader.forEachLine (n.mapParser vpaths).parseLine) {}

def makeWriter {ω : Type} (os : Os ω) (n : NodeGopherMap) (vpaths : VirtualPathsMap) :
    Prog ω Body := do
  let reader ← Util.Reader.feed os n.filePath
  Prog.lift ((n.writeMenu vpaths reader).1.map
    (fun _ => .menu (n.writeMenu vpaths reader).2))

end NodeGopherMap

end Gopher
end Goofy
