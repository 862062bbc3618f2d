/-!
# Line ends

A text that is read from a file may end its lines with a carriage return, a line
feed, or one after the other. Each of these becomes one line feed.
-/

namespace Offside.Text

/-- Every line end written as one line feed. -/
def normalizeNewlines : List Char → List Char
  | [] => []
  | '\r' :: '\n' :: cs => '\n' :: normalizeNewlines cs
  | c :: cs => (if c = '\r' then '\n' else c) :: normalizeNewlines cs

end Offside.Text
