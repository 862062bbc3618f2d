import Offside.Text.Printable

/-!
# Quoted text

How messages and listings show a text: between quotes, with escapes for the
quote itself, the backslash and every unprintable character. Single quotes are
used unless the text holds a single quote and no double quote.
-/

namespace Offside.Text

/-- The quote that encloses a text. -/
def quoteFor (cs : List Char) : Char :=
  if cs.contains '\x27' && !cs.contains '\x22' then '\x22' else '\x27'

/-- `hex width n` is `n` in hexadecimal, filled up with zeros to `width` digits. -/
def hex (width n : Nat) : List Char :=
  let digits := Nat.toDigits 16 n
  List.replicate (width - digits.length) '0' ++ digits

/-- A character by its code point, in two, four or eight hexadecimal digits, whichever
is the first to hold it. -/
def codePoint (c : Char) : List Char :=
  if c.toNat < 0x100 then ['\\', 'x'] ++ hex 2 c.toNat
  else if c.toNat < 0x10000 then ['\\', 'u'] ++ hex 4 c.toNat
  else ['\\', 'U'] ++ hex 8 c.toNat

/-- One character inside quotes `quote`. Line feed, carriage return and tab have
names; any other unprintable character is its code point. -/
def escape (quote c : Char) : List Char :=
  if c = quote || c = '\\' then ['\\', c]
  else if c = '\n' then ['\\', 'n']
  else if c = '\r' then ['\\', 'r']
  else if c = '\t' then ['\\', 't']
  else if isPrintable c then [c]
  else codePoint c

/-- A text between quotes. -/
def quoteChars (cs : List Char) : List Char :=
  let quote := quoteFor cs
  quote :: cs.flatMap (escape quote) ++ [quote]

/-- A text between quotes. -/
def quote (s : String) : String := String.ofList (quoteChars s.toList)

end Offside.Text
