import Offside.Text.Blank
import Offside.Token.Lexeme

/-!
# Gaps

The parts of a source text that stand between tokens and leave none: layout,
comments, and the headers that open a class and its main method. A header takes
its opening brace with it; the closing brace is read as a token. These are the patterns
of `SKIP_TOKENS`.
-/

namespace Offside

/-- What may stand between two tokens. -/
inductive Gap where
  /-- Spaces, tabs and line ends. -/
  | layout
  /-- A comment to the end of the line. -/
  | lineComment
  /-- A comment between marks, on one line. -/
  | blockComment
  /-- The header of a class. -/
  | classHeader
  /-- The header of the main method. -/
  | mainHeader
deriving DecidableEq, Repr

namespace Gap

/-- Every sort of gap. -/
def all : List Gap := [layout, lineComment, blockComment, classHeader, mainHeader]

/-! ## Layout and comments -/

/-- Spaces, tabs and line ends. -/
def isLayout (c : Char) : Bool := c == ' ' || c == '\t' || c == '\r' || c == '\n'

/-- The length of a run of layout, `[ \t\r\n]+`. -/
def munchLayout? (text : List Char) : Option Nat :=
  let n := (text.takeWhile isLayout).length
  if n = 0 then none else some n

/-- The length of a comment to the end of the line, the line feed left out: `//.*`. -/
def munchLineComment? : List Char → Option Nat
  | '/' :: '/' :: cs => some (2 + (cs.takeWhile (· != '\n')).length)
  | _ => none

/-- The length of the rest of a comment after its opening mark: up to the first
closing mark, which must come before the end of the line. -/
def munchBlockRest? : List Char → Option Nat
  | [] => none
  | c :: cs =>
    if c = '*' && cs.head? = some '/' then some 2
    else if c = '\n' then none
    else (munchBlockRest? cs).map (· + 1)

/-- The length of a comment between marks, `/\*.*?\*/`. -/
def munchBlockComment? : List Char → Option Nat
  | '/' :: '*' :: cs => (munchBlockRest? cs).map (· + 2)
  | _ => none

/-! ## Headers -/

/-- A piece of a header. -/
inductive Piece where
  /-- Exactly these characters. -/
  | exactly (word : String)
  /-- White space, at least one character of it. -/
  | spaces
  /-- White space, or nothing. -/
  | optionalSpaces
  /-- An identifier. -/
  | identifier
  /-- An opening brace, or nothing. -/
  | optionalBrace
deriving DecidableEq, Repr

/-- The length of a piece at the start of a text. -/
def Piece.munch? (text : List Char) : Piece → Option Nat
  | .exactly word => munchExactly? word.toList text
  | .spaces =>
    let n := (text.takeWhile Text.isBlank).length
    if n = 0 then none else some n
  | .optionalSpaces => some (text.takeWhile Text.isBlank).length
  | .identifier => munchIdentifier? text
  | .optionalBrace => some (if text.head? = some '\x7b' then 1 else 0)

/-- The length of several pieces, one after the other. -/
def munchPieces? (text : List Char) : List Piece → Option Nat
  | [] => some 0
  | p :: ps =>
    match p.munch? text with
    | none => none
    | some n => (munchPieces? (text.drop n) ps).map (n + ·)

/-- The pieces after the word `public` that open a class (`CLASS_DECL`). -/
def classPieces : List Piece :=
  [.spaces, .exactly "class", .spaces, .identifier, .optionalSpaces, .optionalBrace]

/-- The pieces after the word `public` that open the main method (`MAIN_DECL`). -/
def mainPieces : List Piece :=
  [.spaces, .exactly "static", .spaces, .exactly "void", .spaces, .exactly "main",
   .optionalSpaces, .exactly "(", .optionalSpaces, .exactly "String",
   .optionalSpaces, .exactly "[", .optionalSpaces, .exactly "]",
   .optionalSpaces, .exactly "args", .optionalSpaces, .exactly ")",
   .optionalSpaces, .optionalBrace]

/-- The word every header starts with. -/
def headerStart : List Char := ['p', 'u', 'b', 'l', 'i', 'c']

/-- The length of a header: the word `public`, where a word may start, and the
pieces after it. -/
def munchHeader? (pieces : List Piece) (before : Option Char) (text : List Char) :
    Option Nat :=
  if headerStart.isPrefixOf text && Text.endsWord before then
    (munchPieces? (text.drop headerStart.length) pieces).map (headerStart.length + ·)
  else none

/-! ## All gaps -/

/-- The length of a gap at the start of a text, after the character `before`. -/
def munch? (g : Gap) (before : Option Char) (text : List Char) : Option Nat :=
  match g with
  | layout => munchLayout? text
  | lineComment => munchLineComment? text
  | blockComment => munchBlockComment? text
  | classHeader => munchHeader? classPieces before text
  | mainHeader => munchHeader? mainPieces before text

theorem munchHeader?_pos {ps : List Piece} {b : Option Char} {t : List Char} {n : Nat}
    (h : munchHeader? ps b t = some n) : 0 < n := by
  simp only [munchHeader?] at h
  split at h
  · obtain ⟨m, _, rfl⟩ := Option.map_eq_some_iff.1 h
    exact Nat.add_pos_left (by decide) m
  · cases h

theorem munch?_pos {g : Gap} {b : Option Char} {t : List Char} {n : Nat}
    (h : g.munch? b t = some n) : 0 < n := by
  cases g with
  | layout =>
    simp only [munch?, munchLayout?] at h
    split at h <;> cases h; omega
  | lineComment =>
    simp only [munch?] at h
    unfold munchLineComment? at h
    split at h <;> cases h; omega
  | blockComment =>
    simp only [munch?] at h
    unfold munchBlockComment? at h
    split at h
    · obtain ⟨m, _, rfl⟩ := Option.map_eq_some_iff.1 h
      omega
    · cases h
  | classHeader => exact munchHeader?_pos h
  | mainHeader => exact munchHeader?_pos h

end Gap

end Offside
