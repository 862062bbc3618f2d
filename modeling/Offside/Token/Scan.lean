import Offside.Token.Basic
import Offside.Token.Gap

/-!
# Scanning

A source text is read from left to right. At each position the rules are tried in
a fixed order and the first that matches decides: types and control words, then
gaps, then everything else. Where no rule matches, scanning stops with an error
that names the character and its place. A text that is read to its end gives the
tokens found and a last token that marks the end. This is `lex_java`.
-/

namespace Offside

/-! ## Rules -/

/-- One way to go on at a position: a token of some kind, or a gap. -/
inductive Rule where
  | token (kind : Kind)
  | gap (gap : Gap)
deriving DecidableEq, Repr

namespace Rule

/-- The length of what the rule matches at the start of a text. -/
def munch? (r : Rule) (before : Option Char) (text : List Char) : Option Nat :=
  match r with
  | token k => k.munch? before text
  | gap g => g.munch? before text

theorem munch?_pos {r : Rule} {b : Option Char} {t : List Char} {n : Nat}
    (h : r.munch? b t = some n) : 0 < n := by
  cases r with
  | token k => exact Kind.munch?_pos h
  | gap g => exact Gap.munch?_pos h

/-- Tokens tried after the gaps, in order: longer operators before their own
beginnings, and numbers with a suffix before plain ones. A single quote that
starts no character literal comes last. -/
def lexemes : List Kind :=
  Kind.truths ++
  [.string, .charLiteral, .identifier, .floatNumber, .number,
   .increment, .plus, .decrement, .minus, .times, .divide, .modulo,
   .and, .or, .eq, .neq, .leq, .geq, .lt, .gt, .assign,
   .leftBrace, .rightBrace, .leftParen, .rightParen, .leftBracket, .rightBracket,
   .semicolon, .comma, .dot, .singleQuote]

/-- All rules in the order in which they are tried. -/
def all : List Rule :=
  (Kind.types ++ Kind.controls).map token ++ Gap.all.map gap ++ lexemes.map token

/-- The first rule of a list that matches at the start of a text, with the length
of the match. -/
def first? (rules : List Rule) (before : Option Char) (text : List Char) :
    Option (Rule × Nat) :=
  rules.findSome? fun r => (r.munch? before text).map (r, ·)

theorem first?_pos {rules : List Rule} {b : Option Char} {t : List Char} {r : Rule} {n : Nat}
    (h : first? rules b t = some (r, n)) : 0 < n := by
  obtain ⟨r', _, h'⟩ := List.exists_of_findSome?_eq_some h
  obtain ⟨m, hm, he⟩ := Option.map_eq_some_iff.1 h'
  cases he
  exact munch?_pos hm

end Rule

/-! ## Places and errors -/

/-- The line of a position, counted from one. -/
def lineAt (source : List Char) (offset : Nat) : Nat :=
  (source.take offset).count '\n' + 1

/-- The column of a position, counted from one. -/
def columnAt (source : List Char) (offset : Nat) : Nat :=
  ((source.take offset).reverse.takeWhile (· != '\n')).length + 1

/-- A character that no rule matches, and where it stands. -/
structure ScanError where
  char : Char
  line : Nat
  column : Nat
  offset : Nat
deriving DecidableEq, Repr

/-- The error as it is reported. -/
def ScanError.message (e : ScanError) : String :=
  "Unexpected character " ++ Text.quote (String.singleton e.char) ++ " at line "
    ++ toString e.line ++ ", column " ++ toString e.column ++ " (position "
    ++ toString e.offset ++ ")"

/-! ## The scanner -/

/-- The outcome of scanning: the tokens found, and the error that stopped it, if
one did. -/
structure Scan where
  tokens : List Token
  error : Option ScanError
deriving DecidableEq, Repr

/-- One more token in front. -/
def Scan.cons (t : Token) (s : Scan) : Scan := { s with tokens := t :: s.tokens }

/-- Scan `text`, which stands at position `offset` of `source` after the character
`before`, by the given rules. -/
def scanFrom (rules : List Rule) (source : List Char) (before : Option Char) (offset : Nat)
    (text : List Char) : Scan :=
  match text with
  | [] => ⟨[Token.eof offset], none⟩
  | c :: cs =>
    match _h : Rule.first? rules before (c :: cs) with
    | none => ⟨[], some ⟨c, lineAt source offset, columnAt source offset, offset⟩⟩
    | some (r, n) =>
      let lexeme := (c :: cs).take n
      let rest := scanFrom rules source lexeme.getLast? (offset + n) ((c :: cs).drop n)
      match r with
      | .token k => rest.cons ⟨k, String.ofList lexeme, offset⟩
      | .gap _ => rest
termination_by text.length
decreasing_by
  have := Rule.first?_pos _h
  simp only [List.length_drop, List.length_cons]
  omega

/-- The tokens of a source text: what `lex_java` yields, and the error that ends it. -/
def scan (source : String) : Scan :=
  scanFrom Rule.all source.toList none 0 source.toList

/-- The tokens of a source text, or the error that stops it. -/
def tokenize (source : String) : Except ScanError (List Token) :=
  let s := scan source
  match s.error with
  | none => .ok s.tokens
  | some e => .error e

end Offside
