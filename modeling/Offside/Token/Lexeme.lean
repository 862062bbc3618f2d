import Offside.Text.Digit
import Offside.Text.Word
import Offside.Token.Kind

/-!
# Lexemes

What the text of a token of each kind looks like. `Kind.munch? k before text` is
the length of the lexeme of kind `k` at the start of `text`, where `before` is the
character that precedes `text`, if there is one; reserved words depend on it.
Every lexeme has at least one character (`Kind.munch?_pos`). The lexemes are those of
the patterns in `TOKEN_PATTERNS`, each matched as far as it goes; a definition gives the
pattern that it stands for.
-/

namespace Offside

/-! ## Words -/

/-- The characters an identifier can start with. -/
def isIdentifierStart (c : Char) : Bool := c.isAlpha || c == '_'

/-- The characters an identifier can go on with. -/
def isIdentifierPart (c : Char) : Bool := c.isAlphanum || c == '_'

/-- The length of an identifier, `[A-Za-z_][A-Za-z_0-9]*`. -/
def munchIdentifier? : List Char → Option Nat
  | [] => none
  | c :: cs =>
    if isIdentifierStart c then some (1 + (cs.takeWhile isIdentifierPart).length) else none

/-- The length of `word`, if the text starts with it. -/
def munchExactly? (word text : List Char) : Option Nat :=
  if word.isPrefixOf text then some word.length else none

/-- The length of `word`, if the text starts with it and no word character stands
directly before or after it: the pattern `\bword\b`. -/
def munchAlone? (word : List Char) (before : Option Char) (text : List Char) : Option Nat :=
  if word.isPrefixOf text && Text.endsWord before
      && Text.endsWord (text.drop word.length).head? then
    some word.length
  else none

/-! ## Literals -/

/-- The length of the rest of a string literal after its opening quote. A
backslash takes the next character with it, unless that is a line feed, which
leaves the literal without an end. -/
def munchStringRest? : List Char → Option Nat
  | [] => none
  | c :: cs =>
    if c = '\x22' then some 1
    else if c = '\\' then
      match cs with
      | [] => none
      | e :: rest => if e = '\n' then none else (munchStringRest? rest).map (· + 2)
    else (munchStringRest? cs).map (· + 1)

/-- The length of a string literal, `"([^"\\]|\\.)*"`. -/
def munchString? : List Char → Option Nat
  | [] => none
  | c :: cs => if c = '\x22' then (munchStringRest? cs).map (· + 1) else none

/-- The length of a character literal: a single character other than a quote or a
backslash, or an escaped character other than a line feed, between single quotes. The
pattern is `'(\\.|[^\\'])'`. -/
def munchChar? : List Char → Option Nat
  | '\x27' :: '\\' :: c :: '\x27' :: _ => if c = '\n' then none else some 4
  | '\x27' :: c :: '\x27' :: _ => if c = '\x27' || c = '\\' then none else some 3
  | _ => none

/-- The length of a number: decimal digits, and after a point more of them if there
are any, `\d+(\.\d+)?`. -/
def munchNumber? (text : List Char) : Option Nat :=
  let whole := (text.takeWhile Text.isDecimal).length
  if whole = 0 then none
  else match text.drop whole with
    | '.' :: rest =>
      let fraction := (rest.takeWhile Text.isDecimal).length
      if fraction = 0 then some whole else some (whole + 1 + fraction)
    | _ => some whole

/-- The length of a number that ends with the suffix `f` or `F`,
`\d+(\.\d+)?[fF]`. -/
def munchFloat? (text : List Char) : Option Nat :=
  match munchNumber? text with
  | none => none
  | some n =>
    match text.drop n with
    | c :: _ => if c = 'f' || c = 'F' then some (n + 1) else none
    | [] => none

/-! ## All kinds -/

/-- The length of the lexeme of a kind at the start of a text. -/
def Kind.munch? (k : Kind) (before : Option Char) (text : List Char) : Option Nat :=
  match k with
  | .string => munchString? text
  | .charLiteral => munchChar? text
  | .identifier => munchIdentifier? text
  | .floatNumber => munchFloat? text
  | .number => munchNumber? text
  | k =>
    match k.spelling? with
    | none => none
    | some w =>
      if k ∈ Kind.reserved then munchAlone? w.toList before text
      else munchExactly? w.toList text

/-! ## Lexemes are not empty -/

theorem munchIdentifier?_pos {t : List Char} {n : Nat} (h : munchIdentifier? t = some n) :
    0 < n := by
  cases t with
  | nil => simp [munchIdentifier?] at h
  | cons c cs =>
    simp only [munchIdentifier?] at h
    split at h
    · cases h; omega
    · cases h

theorem munchString?_pos {t : List Char} {n : Nat} (h : munchString? t = some n) : 0 < n := by
  cases t with
  | nil => simp [munchString?] at h
  | cons c cs =>
    simp only [munchString?] at h
    split at h
    · obtain ⟨m, _, rfl⟩ := Option.map_eq_some_iff.1 h
      omega
    · cases h

theorem munchChar?_pos {t : List Char} {n : Nat} (h : munchChar? t = some n) : 0 < n := by
  unfold munchChar? at h
  split at h <;> (try split at h) <;> cases h <;> omega

theorem munchNumber?_pos {t : List Char} {n : Nat} (h : munchNumber? t = some n) : 0 < n := by
  simp only [munchNumber?] at h
  split at h
  · cases h
  · split at h
    · split at h <;> cases h <;> omega
    · cases h; omega

theorem munchFloat?_pos {t : List Char} {n : Nat} (h : munchFloat? t = some n) : 0 < n := by
  simp only [munchFloat?] at h
  split at h
  · cases h
  · split at h
    · split at h <;> cases h; omega
    · cases h

theorem munchExactly?_eq {w t : List Char} {n : Nat} (h : munchExactly? w t = some n) :
    n = w.length := by
  simp only [munchExactly?] at h
  split at h <;> cases h; rfl

theorem munchAlone?_eq {w t : List Char} {b : Option Char} {n : Nat}
    (h : munchAlone? w b t = some n) : n = w.length := by
  simp only [munchAlone?] at h
  split at h <;> cases h; rfl

theorem Kind.munch?_pos {k : Kind} {b : Option Char} {t : List Char} {n : Nat}
    (h : k.munch? b t = some n) : 0 < n := by
  unfold Kind.munch? at h
  split at h
  · exact munchString?_pos h
  · exact munchChar?_pos h
  · exact munchIdentifier?_pos h
  · exact munchFloat?_pos h
  · exact munchNumber?_pos h
  · split at h
    · cases h
    · next w hw =>
      have hp := Kind.spelling?_pos hw
      split at h
      · exact munchAlone?_eq h ▸ hp
      · exact munchExactly?_eq h ▸ hp

end Offside
