/-!
# Programs

What the grammar reads from a sequence of tokens: statements and the conditions
that steer them. The parts of a source text that the grammar keeps (names, values,
operators) are kept as text. The nodes `BinaryCondition` and `LogicalCondition`,
`Variable`, `VarUpdate`, `Print`, `IfStatement`, `WhileStatement`, `ForStatement` and
`Module` are the constructors and structures of this module.
-/

namespace Offside

/-- A condition. -/
inductive Condition where
  /-- A comparison; with an empty operator and right side it is the left side alone. -/
  | test (left operator right : String)
  /-- Two conditions joined by an operator. -/
  | join (left : Condition) (operator : String) (right : Condition)
deriving DecidableEq, Repr

/-- A variable with its value and the name of its type in lower case (`Variable`). -/
structure Binding where
  name : String
  value : String
  typeName : String
deriving DecidableEq, Repr

/-- The two ways to change a variable by one. -/
inductive Direction where
  | up
  | down
deriving DecidableEq, Repr

/-- The amount of a change by one. -/
def Direction.amount : Direction → Int
  | .up => 1
  | .down => -1

/-- A variable that is changed by one (`VarUpdate`). -/
structure Step where
  name : String
  direction : Direction
deriving DecidableEq, Repr

mutual

/-- A statement. -/
inductive Statement where
  /-- Print the value of a text. -/
  | print (argument : String)
  | declare (binding : Binding)
  | step (step : Step)
  /-- Do `body` if the condition holds, else what follows. -/
  | branch (condition : Condition) (body : List Statement) (otherwise : Otherwise)
  /-- Do `body` as long as the condition holds. -/
  | repeatWhile (condition : Condition) (body : List Statement)
  /-- Do `body` as long as the condition, if any, holds, with a first binding and a
  change after each round. -/
  | count (first : Option Binding) (condition : Option Condition) (update : Option Step)
      (body : List Statement)

/-- What follows the body of a branch. -/
inductive Otherwise where
  | nothing
  /-- Another branch. -/
  | elseIf (condition : Condition) (body : List Statement) (otherwise : Otherwise)
  /-- The last alternative. -/
  | elseDo (body : List Statement)

end

/-- A whole program (`Module`). -/
structure Program where
  body : List Statement

end Offside
