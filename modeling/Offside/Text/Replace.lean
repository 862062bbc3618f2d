/-!
# Replacing inside a text

The first occurrence of a word, wherever it stands, gives way to another. By this
`emit_if` turns the branch after `else` into `elif`.
-/

namespace Offside.Text

/-- The first occurrence of `old` in a text replaced by `new`; a text without one
is unchanged. -/
def replaceFirstChars (old new : List Char) : List Char → List Char
  | [] => if old.isEmpty then new else []
  | c :: cs =>
    if old.isPrefixOf (c :: cs) then new ++ (c :: cs).drop old.length
    else c :: replaceFirstChars old new cs

/-- The first occurrence of `old` in `s` replaced by `new`. -/
def replaceFirst (old new s : String) : String :=
  String.ofList (replaceFirstChars old.toList new.toList s.toList)

end Offside.Text
