import Offside.Token.Basic

/-!
# Cursors

A cursor is a place in a sequence of tokens. Looking ahead never fails: past the
end the last token is seen again, and an empty sequence looks as if it held the
end of a text. Taking a token off does fail at the end.
-/

namespace Offside

/-- A sequence of tokens and the number of those already taken. -/
structure Cursor where
  tokens : Array Token
  index : Nat
deriving DecidableEq, Repr

namespace Cursor

/-- A cursor before the first token. -/
def ofList (tokens : List Token) : Cursor := ⟨tokens.toArray, 0⟩

/-- The number of tokens not yet taken. -/
def remaining (c : Cursor) : Nat := c.tokens.size - c.index

/-- The tokens not yet taken. -/
def rest (c : Cursor) : List Token := c.tokens.toList.drop c.index

/-- The token seen by looking past the end. -/
def last (c : Cursor) : Token := c.tokens.back?.getD (Token.eof 0)

/-- The token `k` places ahead: `peek` with a number that is not negative. -/
def look (c : Cursor) (k : Nat) : Token := c.tokens[c.index + k]?.getD c.last

/-- The kind of the token `k` places ahead. -/
def kindAt (c : Cursor) (k : Nat) : Kind := (c.look k).kind

/-- `peek`: the token `k` places ahead, or behind for a negative `k`. A place before the
first token is counted from the end of the sequence, once around at most. -/
def peek? (c : Cursor) (k : Int) : Option Token :=
  let place : Int := c.index + k
  if c.tokens.size ≤ place then some c.last
  else if 0 ≤ place then c.tokens[place.toNat]?
  else if -(c.tokens.size : Int) ≤ place then c.tokens[(place + c.tokens.size).toNat]?
  else none

/-- The next token is taken. -/
def advance (c : Cursor) : Cursor := { c with index := c.index + 1 }

theorem length_rest (c : Cursor) : c.rest.length = c.remaining := by
  simp [rest, remaining]

theorem remaining_advance {c : Cursor} {t : Token} (h : c.tokens[c.index]? = some t) :
    c.advance.remaining < c.remaining := by
  obtain ⟨hlt, _⟩ := Array.getElem?_eq_some_iff.1 h
  simp only [remaining, advance]
  omega

/-- `c.Leads c'`: the place `c'` can be reached from `c` by taking tokens. The tokens
are the same, none is given back, and none is taken past the end. -/
structure Leads (c c' : Cursor) : Prop where
  tokens_eq : c'.tokens = c.tokens
  index_le : c.index ≤ c'.index
  index_le_max : c'.index ≤ max c.index c.tokens.size

theorem Leads.refl (c : Cursor) : c.Leads c := ⟨rfl, Nat.le_refl _, Nat.le_max_left _ _⟩

theorem Leads.trans {a b c : Cursor} (h : a.Leads b) (h' : b.Leads c) : a.Leads c := by
  obtain ⟨ht, hi, hm⟩ := h
  obtain ⟨ht', hi', hm'⟩ := h'
  refine ⟨ht'.trans ht, Nat.le_trans hi hi', ?_⟩
  rw [ht] at hm'
  omega

theorem Leads.remaining_le {c c' : Cursor} (h : c.Leads c') : c'.remaining ≤ c.remaining := by
  obtain ⟨ht, hi, _⟩ := h
  simp only [remaining, ht]
  omega

theorem leads_advance {c : Cursor} {t : Token} (h : c.tokens[c.index]? = some t) :
    c.Leads c.advance := by
  obtain ⟨hlt, _⟩ := Array.getElem?_eq_some_iff.1 h
  refine ⟨rfl, ?_, ?_⟩
  · simp only [advance]; omega
  · simp only [advance]; omega

end Cursor

end Offside
