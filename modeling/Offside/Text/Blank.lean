import Offside.Text.CharSet

/-!
# Blank characters

White space in the wide sense: the characters with the Unicode property
White_Space, and the four separators U+001C to U+001F beside them. A line that
holds nothing else is left alone when a text is indented. In patterns this is `\s`.
-/

namespace Offside.Text

/-- White space, and the information separators U+001C to U+001F. -/
def blanks : CharSet where
  intervals :=
  [
   (0x9, 0xD), (0x1C, 0x20), (0x85, 0x85), (0xA0, 0xA0), (0x1680, 0x1680),
   (0x2000, 0x200A), (0x2028, 0x2029), (0x202F, 0x202F), (0x205F, 0x205F), (0x3000, 0x3000)
  ]

/-- The character is white space. -/
def isBlank (c : Char) : Bool := blanks.contains c

/-- A text of white space alone; the empty text is one. -/
def isBlankText (cs : List Char) : Bool := cs.all isBlank

end Offside.Text
