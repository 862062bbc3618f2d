import Offside.Grammar.Parser
import Offside.Program.Basic

/-!
# The grammar of conditions

A condition is a term, or a term, a connective and a condition. A term is an
identifier, an identifier compared with an operand, a truth literal, or a condition
between parentheses. Connectives group to the right, whichever they are. This is
`parse_condition`, whose loop over connectives runs once at most and is a single step
here.
-/

namespace Offside.Grammar

open Offside.Parser

/-- What follows an identifier in a condition: a comparison with an operand, or
nothing. -/
def comparison (name : String) : Parser Condition := do
  if (← lookKind 0) ∈ Kind.comparisons then
    let operator ← pop
    let kind ← lookKind 0
    if kind ∈ Kind.operands then
      let operand ← pop
      return .test name operator.text operand.text
    else fail (.expectedOperand operator.text kind)
  else return .test name "" ""

/-- A term, where `inner` reads the condition between parentheses. -/
def term (inner : Parser Condition) : Parser Condition := do
  let t ← look 0
  if t.kind = .identifier then
    let name ← pop
    comparison name.text
  else if t.kind ∈ Kind.truths then
    let literal ← pop
    return .test literal.text "" ""
  else if t.kind = .leftParen then
    let _ ← pop
    let condition ← inner
    let _ ← expect .rightParen none
    return condition
  else fail (.expectedCondition t)

/-- What follows a term: a connective and a condition, or nothing. The condition takes
all connectives that follow, so there is no second round. -/
def connectedOf (inner : Parser Condition) (left : Condition) : Parser Condition := do
  if (← lookKind 0) ∈ Kind.connectives then
    let operator ← pop
    let right ← inner
    return .join left operator.text right
  else return left

/-- A condition, where `inner` reads the conditions inside it. -/
def conditionOf (inner : Parser Condition) : Parser Condition := do
  let left ← term inner
  connectedOf inner left

/-- A condition (`parse_condition`). -/
def condition : Parser Condition := fix conditionOf

end Offside.Grammar
