import Offside.Text.Quoted
import Offside.Token.Kind

/-!
# Tokens

A token is a kind, the text it was read from, and the position of that text.
-/

namespace Offside

/-- A token of a source text. -/
structure Token where
  kind : Kind
  text : String
  pos : Int
deriving DecidableEq, Repr, Inhabited

namespace Token

/-- The token that stands at the end of a text, at position `pos`. -/
def eof (pos : Int) : Token := ⟨.eof, "", pos⟩

/-- A token as listings show it (`__repr__`). -/
def display (t : Token) : String :=
  "Token(" ++ Text.quote t.kind.name ++ ", " ++ Text.quote t.text ++ ", "
    ++ toString t.pos ++ ")"

/-- A token as errors show it: the name of its kind and its text in quotes. -/
def describe (t : Token) : String := t.kind.name ++ " " ++ Text.quote t.text

end Token

end Offside
