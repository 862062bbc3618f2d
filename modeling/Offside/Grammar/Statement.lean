import Offside.Grammar.Condition
import Offside.Text.Lowercase

/-!
# The grammar of statements

Statements are told apart by their first tokens. What starts no known statement is
passed over up to and including the next semicolon, and leaves nothing in the
program. Each rule is named by what it reads; its docstring gives the `parse_` function
that it stands for.
-/

namespace Offside.Grammar

open Offside.Parser

/-! ## Statements without a body -/

/-- The object that prints (`PRINT_RECEIVER`). -/
def printReceiver : String := "System"

/-- The field through which it prints (`PRINT_FIELD`). -/
def printField : String := "out"

/-- The cursor stands before a call of a printing method. -/
def atPrint (c : Cursor) : Bool :=
  (c.look 0).kind == .identifier && (c.look 0).text == printReceiver
    && (c.look 1).kind == .dot && (c.look 2).text == printField
    && (c.look 3).kind == .dot && GrammarError.printMethods.contains (c.look 4).text

/-- A call of a printing method (`parse_print`). -/
def print : Parser Statement := do
  let _ ← expect .identifier (some printReceiver)
  let _ ← expect .dot (some ".")
  let _ ← expect .identifier (some printField)
  let _ ← expect .dot (some ".")
  let method ← expect .identifier none
  if GrammarError.printMethods.contains method.text then
    let _ ← expect .leftParen (some "(")
    let t ← look 0
    if t.kind ∈ Kind.printables then
      let argument ← pop
      let _ ← expect .rightParen (some ")")
      let _ ← expect .semicolon (some ";")
      return .print argument.text
    else fail (.expectedPrintable t)
  else fail (.expectedPrintMethod method.text)

/-- The declaration of a variable, after whatever token names its type
(`parse_variable`). -/
def declaration : Parser Binding := do
  let type ← pop
  let name ← expect .identifier none
  let _ ← expect .assign none
  let t ← look 0
  if t.kind ∈ Kind.values then
    let value ← pop
    let _ ← expect .semicolon (some ";")
    return ⟨name.text, value.text, Text.lower type.text⟩
  else fail (.expectedValue t)

/-- A variable and the operator that changes it. -/
def step : Parser Step := do
  let name ← pop
  let operator ← pop
  return ⟨name.text, if operator.kind = .increment then .up else .down⟩

/-- The cursor stands before a variable and an operator that changes it. -/
def atStep (c : Cursor) : Bool :=
  c.kindAt 0 == .identifier && Kind.steps.contains (c.kindAt 1)

/-- Pass over one token, where `more` passes over what follows it. -/
def skipOf (more : Parser Unit) : Parser Unit := do
  let kind ← lookKind 0
  if kind = .semicolon then
    let _ ← pop
    return ()
  else if kind = .eof then return ()
  else
    let _ ← pop
    more

/-- Pass over everything up to and including the next semicolon, or up to the end. -/
def skip : Parser Unit := fix skipOf

/-! ## Statements with a body -/

/-- Statements up to a token of one of the kinds `stops`, where `statement` reads one
of them and `more` those after it. -/
def statementsOf (stops : List Kind) (statement : Parser (Option Statement))
    (more : Parser (List Statement)) : Parser (List Statement) := do
  if (← lookKind 0) ∈ stops then return []
  else
    let s ← statement
    let ss ← more
    return s.toList ++ ss

/-- Statements up to a token of one of the kinds `stops`, where `statement` reads one
of them. -/
def statements (stops : List Kind) (statement : Parser (Option Statement)) :
    Parser (List Statement) := fix (statementsOf stops statement)

/-- Statements between braces. -/
def block (statement : Parser (Option Statement)) : Parser (List Statement) := do
  let _ ← expect .leftBrace none
  let body ← statements [.rightBrace, .eof] statement
  let _ ← expect .rightBrace none
  return body

/-- A condition between parentheses and the block it steers. -/
def guardedBlock (statement : Parser (Option Statement)) :
    Parser (Condition × List Statement) := do
  let _ ← expect .leftParen none
  let condition ← condition
  let _ ← expect .rightParen none
  let body ← block statement
  return (condition, body)

/-- The three parts of a branch. -/
structure Branch where
  condition : Condition
  body : List Statement
  otherwise : Otherwise

/-- What follows the body of a branch, where `inner` reads a branch after `else`. -/
def otherwiseOf (statement : Parser (Option Statement)) (inner : Parser Branch) :
    Parser Otherwise := do
  if (← lookKind 0) = .elseKeyword then
    let _ ← pop
    if (← lookKind 0) = .ifKeyword then
      let next ← inner
      return .elseIf next.condition next.body next.otherwise
    else
      let last ← block statement
      return .elseDo last
  else return .nothing

/-- A branch, where `inner` reads a branch after `else`. -/
def branchOf (statement : Parser (Option Statement)) (inner : Parser Branch) :
    Parser Branch := do
  let _ ← expect .ifKeyword none
  let (condition, body) ← guardedBlock statement
  let otherwise ← otherwiseOf statement inner
  return ⟨condition, body, otherwise⟩

/-- A branch with all its alternatives (`parse_if`). -/
def branch (statement : Parser (Option Statement)) : Parser Branch :=
  fix (branchOf statement)

/-- A loop on a condition (`parse_while`). -/
def repeatWhile (statement : Parser (Option Statement)) : Parser Statement := do
  let _ ← expect .whileKeyword none
  let (condition, body) ← guardedBlock statement
  return .repeatWhile condition body

/-- The binding at the head of a counting loop, with or without a type. Any token
may be its value. -/
def countFirst : Parser (Option Binding) := do
  let kind ← lookKind 0
  if kind = .semicolon then return none
  else if kind ∈ Kind.types then
    let type ← pop
    let name ← expect .identifier none
    let _ ← expect .assign none
    let value ← pop
    return some ⟨name.text, value.text, Text.lower type.text⟩
  else if (← lookKind 1) = .assign then
    let name ← expect .identifier none
    let _ ← expect .assign none
    let value ← pop
    return some ⟨name.text, value.text, "int"⟩
  else return none

/-- The condition of a counting loop, if there is one. -/
def countCondition : Parser (Option Condition) := do
  if (← lookKind 0) = .semicolon then return none
  else
    let condition ← condition
    return some condition

/-- The change after each round of a counting loop, if there is one. -/
def countUpdate : Parser (Option Step) := do
  if (← inspect atStep) then
    let step ← step
    return some step
  else return none

/-- A counting loop (`parse_for`). -/
def count (statement : Parser (Option Statement)) : Parser Statement := do
  let _ ← expect .forKeyword none
  let _ ← expect .leftParen none
  let first ← countFirst
  let _ ← expect .semicolon none
  let condition ← countCondition
  let _ ← expect .semicolon none
  let update ← countUpdate
  let _ ← expect .rightParen none
  let body ← block statement
  return .count first condition update body

/-! ## All statements -/

/-- A branch as a statement. -/
def Branch.toStatement (b : Branch) : Statement := .branch b.condition b.body b.otherwise

/-- A statement, where `inner` reads the statements inside it. -/
def statementOf (inner : Parser (Option Statement)) : Parser (Option Statement) := do
  let kind ← lookKind 0
  if (← inspect atPrint) then return some (← print)
  else if kind ∈ Kind.types then return some (.declare (← declaration))
  else if kind = .ifKeyword then return some (← branch inner).toStatement
  else if kind = .whileKeyword then return some (← repeatWhile inner)
  else if kind = .forKeyword then return some (← count inner)
  else if (← inspect fun c => atStep c && c.kindAt 2 == .semicolon) then
    let step ← step
    let _ ← pop
    return some (.step step)
  else
    skip
    return none

/-- A statement, or nothing where an unknown one was passed over (`parse_statement`). -/
def statement : Parser (Option Statement) := fix statementOf

/-- A program: statements up to the end. -/
def program : Parser Program := do
  let body ← statements [.eof] statement
  return ⟨body⟩

end Offside.Grammar

namespace Offside

/-- Read a sequence of tokens as a program (`parse_module`). -/
def parse (tokens : List Token) : Except GrammarError Program :=
  (Grammar.program (Cursor.ofList tokens)).1

end Offside
