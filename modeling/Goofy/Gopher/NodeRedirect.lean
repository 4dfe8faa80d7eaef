import Goofy.Gopher.Node
import Goofy.Gopher.ProtoWriter
import Goofy.Gopher.Request
import Goofy.Settings

/-!
# The redirector

`gopher/node-redirect.h` and `gopher/node-redirect.cc`: the node that answers
URL requests with an HTML page, made from a template by replacing a keyword.
-/

namespace Goofy
namespace Gopher

structure NodeRedirect extends Node

namespace NodeRedirect

def create (settings : Settings) : Except Exn NodeRedirect :=
  (Node.create .hypertext (lit "URL resolver") (lit "URL:")
    settings.self.hostname settings.self.port).map NodeRedirect.mk

/-- The keyword that stands for the URL. -/
def keyword : Bytes :=
  lit "$\x7bURL\x7d"

/-- The page, with the name and the version of the program at its end. -/
def text : Bytes :=
  lit "<!DOCTYPE HTML PUBLIC \"-//W3C//DTD HTML 3.2 Final//EN\">\n" ++
  lit "<html>\n" ++
  lit "<head>\n" ++
  lit "<meta http-equiv=\"refresh\" content=\"5;URL=$\x7bURL\x7d/\">\n" ++
  lit "<title>Redirection to URL: $\x7bURL\x7d\n" ++
  lit "</head>\n" ++
  lit "<body>\n" ++
  lit "<p>\n" ++
  lit "You are following a link from gopher to another URL or protocol. You\n" ++
  lit "will be automatically taken to the site shortly.  If you don't get\n" ++
  lit "sent there, please click <a href=\"$\x7bURL\x7d\">here</a> to go to the site.\n" ++
  lit "</p>\n" ++
  lit "<p>\n" ++
  lit "The URL linked is:\n" ++
  lit "</p>\n" ++
  lit "<p>\n" ++
  lit "<a href=\"$\x7bURL\x7d\">$\x7bURL\x7d</a>\n" ++
  lit "</p>\n" ++
  lit "<hr>\n" ++
  lit "<address>generated by goofy 0.0.1</address>\n" ++
  lit "</body>\n" ++
  lit "</html>\n"

/-- The replacing loop.  Each round looks for the keyword from the beginning. -/
def replaceKeyword (url : Bytes) : Nat → Bytes → Except Fail Bytes
  | 0, _ => .error .hang
  | fuel + 1, text =>
      match find keyword text with
      | none => .ok text
      | some next =>
          replaceKeyword url fuel
            (text.take next ++ url ++ text.drop (next + keyword.length))

/-- The page for a request.  A URL that holds the keyword itself brings it back
in every round, and the loop never ends. -/
def makeWriter {ω : Type} (_ : NodeRedirect) (request : Request) : Prog ω Body := do
  let page ← Effect.Prog.lift (replaceKeyword request.url (text.length + 1) text)
  pure (.bytes (({} : BytesWriter).appendString page))

end NodeRedirect

end Gopher
end Goofy
