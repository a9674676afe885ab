import MemberOrder.Layout.Basic
import MemberOrder.Log

/-!
What reading a source logs.
-/

set_option autoImplicit false

namespace MemberOrder.Reading

def note (message : String) : Log.Entry := ⟨.debug, .parsing, message⟩

def log : Reading → List Log.Entry
  | .noClass => [note "No class declaration found"]
  | .unclosed name _ => [note ("Body of class " ++ String.ofList name ++ " is never closed")]
  | .complete layout =>
    (layout.inPlace.map fun signature =>
      note ("Leaving " ++ String.ofList signature
        ++ " in place: declaration does not start on its own line"))
    ++ [note ("Parsed class " ++ String.ofList layout.name ++ ": "
      ++ toString layout.methods.length ++ " methods, "
      ++ toString layout.skipped.length ++ " skip regions")]

end MemberOrder.Reading
