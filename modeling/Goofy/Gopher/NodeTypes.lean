import Goofy.Os

/-!
# Node types

`gopher/node-types.h` and `gopher/node-types.cc`: the node types with their
wire characters, the description of a node, and the guess of a file's type.
-/

namespace Goofy
namespace Gopher

open Effect

inductive NodeType where
  | plain
  | menu
  | error
  | binary
  | info
  | gif
  | image
  | hypertext
deriving DecidableEq

/-- The character that stands for a type in a menu. -/
def NodeType.code : NodeType → Byte
  | plain => 48
  | menu => 49
  | error => 51
  | binary => 57
  | info => 105
  | gif => 103
  | image => 73
  | hypertext => 104

structure NodeInfo where
  type : Byte
  displayName : Bytes
  selector : Bytes
  host : Bytes
  port : UInt16
deriving DecidableEq

namespace GopherTypeGuesser

variable {ω : Type}

/-- `matches`: does libmagic's answer start with the pattern? -/
def guessMatches (got pattern : Bytes) : Bool :=
  pattern.isPrefixOf got

/-- `TypeGuesser::guess`. -/
def guess (os : Os ω) (path : Bytes) : Prog ω (Option Bytes) :=
  Prog.prim (fun w => (.ok (os.magicFile (cStr path) w).1, (os.magicFile (cStr path) w).2))

/-- The type that libmagic's answer stands for; it must not be a null pointer. -/
def ofMagic : Option Bytes → Except Fail NodeType
  | none => .error .undefined
  | some got =>
      if guessMatches got (lit "text/") then .ok .plain
      else if guessMatches got (lit "image/gif") then .ok .gif
      else if guessMatches got (lit "image/") then .ok .image
      else .ok .binary

def typeOfFile (os : Os ω) (path : Bytes) : Prog ω NodeType := do
  let magicGuess ← guess os path
  Prog.lift (ofMagic magicGuess)

def typeOf (os : Os ω) (path : Bytes) : Prog ω NodeType := do
  let mode ← modeOf os path
  if fileType mode = S_IFREG then typeOfFile os path
  else if fileType mode = S_IFDIR then pure .menu
  else pure .error

end GopherTypeGuesser

end Gopher
end Goofy
