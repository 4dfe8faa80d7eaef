import Goofy.Base

/-!
# Settings

The parts of `settings.h` that the gopher side of the server reads, with the
defaults of `settings.cc`.
-/

namespace Goofy

/-- How the server introduces itself over gopher. -/
structure Self where
  hostname : Bytes := lit "localhost"
  port : UInt16 := 70

structure Content where
  rootGophermap : Bytes := lit "path/to/gophermap"

structure Settings where
  content : Content := {}
  self : Self := {}

end Goofy
