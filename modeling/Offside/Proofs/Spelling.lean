import Offside.Proofs.Lexemes

/-!
# How programs are spelled

The lexemes that a program can be written with, as a relation between conditions,
statements and bodies on one side and lists of lexemes on the other. One program
has many spellings: terms may be put in parentheses, a loop may name the type of
its counter or not, and unknown statements may stand between known ones.

How far a spelling may stray is a matter of the `Dialect`. In `Dialect.plain` an
unknown statement starts with nothing that a known one, an `else` or the end of a
block starts with, and values are literals or identifiers. In `Dialect.full`
stands everything that the grammar accepts.
-/

namespace Offside

open Grammar (printReceiver printField)
open GrammarError (printMethods)
open Lexeme (sign name)

/-! ## Conditions -/

mutual

/-- The condition is a term, and these are its lexemes. A join is a term only between
parentheses. -/
inductive Condition.SpelledTerm : Condition → List Lexeme → Prop
  | name (n : String) : SpelledTerm (.test n "" "") [name n]
  | compare (n : String) {k : Kind} (hk : k ∈ Kind.comparisons) {v : Lexeme}
      (hv : v.kind ∈ Kind.operands) :
      SpelledTerm (.test n (sign k).text v.text) [name n, sign k, v]
  | truth {k : Kind} (hk : k ∈ Kind.truths) : SpelledTerm (.test (sign k).text "" "") [sign k]
  | group {c : Condition} {us : List Lexeme} (h : Condition.Spelled c us) :
      SpelledTerm c (sign .leftParen :: (us ++ [sign .rightParen]))

/-- These are the lexemes of the condition. -/
inductive Condition.Spelled : Condition → List Lexeme → Prop
  | term {c : Condition} {us : List Lexeme} (h : Condition.SpelledTerm c us) : Spelled c us
  | join {l r : Condition} {us vs : List Lexeme} {k : Kind} (hk : k ∈ Kind.connectives)
      (hl : Condition.SpelledTerm l us) (hr : Spelled r vs) :
      Spelled (.join l (sign k).text r) (us ++ sign k :: vs)

end

/-! ## Unknown statements -/

/-- The lexemes start like a call of a printing method. -/
def startsPrint : List Lexeme → Bool
  | receiver :: dot :: field :: dot' :: method :: _ =>
    receiver.kind == .identifier && receiver.text == printReceiver
      && dot.kind == .dot && field.text == printField
      && dot'.kind == .dot && printMethods.contains method.text
  | _ => false

/-- The lexemes start with a variable that is changed by one. -/
def startsChange : List Lexeme → Bool
  | target :: operator :: _ =>
    target.kind == .identifier && Kind.steps.contains operator.kind
  | _ => false

/-- The lexemes start with a variable that is changed by one, as a statement. -/
def startsStep (ls : List Lexeme) : Bool :=
  startsChange ls && (ls.getD 2 Lexeme.eof).kind == .semicolon

/-- The kinds that a known statement is told by at its first lexeme. -/
def Kind.openings : List Kind := Kind.types ++ [.ifKeyword, .whileKeyword, .forKeyword]

/-- An unknown statement without its semicolon, which starts like nothing else that
may stand in its place. -/
structure Unrecognised (js : List Lexeme) : Prop where
  inner : ∀ l ∈ js, l.kind ≠ .semicolon ∧ l.kind ≠ .eof
  start : ∀ l ∈ js.head?, l.kind ∉ Kind.openings ++ [.elseKeyword, .rightBrace]
  notPrint : startsPrint (js ++ [sign .semicolon]) = false
  notStep : startsStep (js ++ [sign .semicolon]) = false

/-- The start of an unknown statement that the grammar passes over: outside all braces
if `top`, and directly after a branch that an `else` would continue if `after`. -/
structure Passable (top after : Bool) (js : List Lexeme) : Prop where
  inner : ∀ l ∈ js, l.kind ≠ .semicolon ∧ l.kind ≠ .eof
  start : ∀ l ∈ js.head?, l.kind ∉ Kind.openings
  notClosing : top = false → ∀ l ∈ js.head?, l.kind ≠ .rightBrace
  notElse : after = true → ∀ l ∈ js.head?, l.kind ≠ .elseKeyword
  notPrint : startsPrint js = false

/-! ## Statements -/

/-- How far a spelling may stray. -/
structure Dialect where
  /-- What may be the first value of a counting loop. -/
  start : Lexeme → Prop
  /-- What may be passed over before a semicolon: outside all braces if `top`, directly
  after a branch that an `else` would continue if `after`. -/
  unknown : (top after : Bool) → List Lexeme → Prop

/-- The language as it is meant. -/
def Dialect.plain : Dialect where
  start l := l.kind ∈ Kind.values
  unknown _ _ js := Unrecognised js

/-- All that the grammar accepts. -/
def Dialect.full : Dialect where
  start l := l.kind ≠ .eof
  unknown top after js := Passable top after js ∧ startsStep (js ++ [sign .semicolon]) = false

/-- The operator of a change by one. -/
def Direction.operator : Direction → Kind
  | .up => .increment
  | .down => .decrement

/-- An `else` would continue it. -/
def Otherwise.isOpen : Otherwise → Bool
  | .nothing => true
  | .elseIf _ _ otherwise => otherwise.isOpen
  | .elseDo _ => false

/-- A branch that an `else` would continue. -/
def Statement.isOpen : Statement → Bool
  | .branch _ _ otherwise => otherwise.isOpen
  | _ => false

/-- A body between braces. -/
def braced (us : List Lexeme) : List Lexeme := sign .leftBrace :: (us ++ [sign .rightBrace])

/-- A condition between parentheses and a body between braces. -/
def guarded (us vs : List Lexeme) : List Lexeme :=
  sign .leftParen :: (us ++ sign .rightParen :: braced vs)

/-- The change after each round of a counting loop. -/
inductive SpelledUpdate : Option Step → List Lexeme → Prop
  | absent : SpelledUpdate none []
  | present (n : String) (d : Direction) : SpelledUpdate (some ⟨n, d⟩) [name n, sign d.operator]

/-- The condition of a counting loop. -/
inductive SpelledCondition : Option Condition → List Lexeme → Prop
  | absent : SpelledCondition none []
  | present {c : Condition} {us : List Lexeme} (h : c.Spelled us) : SpelledCondition (some c) us

variable (G : Dialect)

/-- The first binding of a counting loop. -/
inductive SpelledFirst : Option Binding → List Lexeme → Prop
  | absent : SpelledFirst none []
  | typed {k : Kind} (hk : k ∈ Kind.types) (n : String) {v : Lexeme} (hv : G.start v) :
      SpelledFirst (some ⟨n, v.text, Text.lower (sign k).text⟩)
        [sign k, name n, sign .assign, v]
  | untyped (n : String) {v : Lexeme} (hv : G.start v) :
      SpelledFirst (some ⟨n, v.text, "int"⟩) [name n, sign .assign, v]

mutual

/-- These are the lexemes of the statement. -/
inductive Statement.Spelled : Statement → List Lexeme → Prop
  | print {m : String} (hm : m ∈ printMethods) {v : Lexeme} (hv : v.kind ∈ Kind.printables) :
      Statement.Spelled (.print v.text)
        [name printReceiver, sign .dot, name printField, sign .dot, name m,
         sign .leftParen, v, sign .rightParen, sign .semicolon]
  | declare {k : Kind} (hk : k ∈ Kind.types) (n : String) {v : Lexeme}
      (hv : v.kind ∈ Kind.values) :
      Statement.Spelled (.declare ⟨n, v.text, Text.lower (sign k).text⟩)
        [sign k, name n, sign .assign, v, sign .semicolon]
  | step (n : String) (d : Direction) :
      Statement.Spelled (.step ⟨n, d⟩) [name n, sign d.operator, sign .semicolon]
  | branch {c : Condition} {body : List Statement} {o : Otherwise} {us vs ws : List Lexeme}
      {b : Bool} (hc : c.Spelled us) (hb : SpelledBody false false b body vs)
      (ho : Otherwise.Spelled o ws) :
      Statement.Spelled (.branch c body o) (sign .ifKeyword :: (guarded us vs ++ ws))
  | repeatWhile {c : Condition} {body : List Statement} {us vs : List Lexeme} {b : Bool}
      (hc : c.Spelled us) (hb : SpelledBody false false b body vs) :
      Statement.Spelled (.repeatWhile c body) (sign .whileKeyword :: guarded us vs)
  | count {first : Option Binding} {c : Option Condition} {update : Option Step}
      {body : List Statement} {fs us xs vs : List Lexeme} {b : Bool}
      (hf : SpelledFirst G first fs) (hc : SpelledCondition c us) (hu : SpelledUpdate update xs)
      (hb : SpelledBody false false b body vs) :
      Statement.Spelled (.count first c update body)
        (sign .forKeyword :: sign .leftParen :: (fs ++ sign .semicolon ::
          (us ++ sign .semicolon :: (xs ++ sign .rightParen :: braced vs))))

/-- These are the lexemes after the body of a branch. -/
inductive Otherwise.Spelled : Otherwise → List Lexeme → Prop
  | nothing : Otherwise.Spelled .nothing []
  | elseIf {c : Condition} {body : List Statement} {o : Otherwise} {us vs ws : List Lexeme}
      {b : Bool} (hc : c.Spelled us) (hb : SpelledBody false false b body vs)
      (ho : Otherwise.Spelled o ws) :
      Otherwise.Spelled (.elseIf c body o)
        (sign .elseKeyword :: sign .ifKeyword :: (guarded us vs ++ ws))
  | elseDo {body : List Statement} {vs : List Lexeme} {b : Bool}
      (hb : SpelledBody false false b body vs) :
      Otherwise.Spelled (.elseDo body) (sign .elseKeyword :: braced vs)

/-- These are the lexemes of a body, unknown statements among them. The body stands
outside all braces if `top`; an `else` before it would continue a branch if the first
flag after `top` is set, and an `else` behind it if the second is. -/
inductive SpelledBody : (top after behind : Bool) → List Statement → List Lexeme → Prop
  | nil {top after : Bool} : SpelledBody top after after [] []
  | cons {top after behind : Bool} {s : Statement} {ss : List Statement}
      {us vs : List Lexeme} (hs : Statement.Spelled s us)
      (h : SpelledBody top s.isOpen behind ss vs) :
      SpelledBody top after behind (s :: ss) (us ++ vs)
  | unknown {top after behind : Bool} {ss : List Statement} {js vs : List Lexeme}
      (hj : G.unknown top after js) (h : SpelledBody top false behind ss vs) :
      SpelledBody top after behind ss (js ++ sign .semicolon :: vs)

end

end Offside
