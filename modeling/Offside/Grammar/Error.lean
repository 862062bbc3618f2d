import Offside.Token.Basic

/-!
# Grammar errors

What can go wrong while a sequence of tokens is read as a program, and how each
error is reported.
-/

namespace Offside

/-- Why a sequence of tokens is not a program. -/
inductive GrammarError where
  /-- A token was needed after the last one. -/
  | outOfTokens
  /-- A token of this kind, and of this text if one is given, was needed. -/
  | expected (kind : Kind) (text : Option String) (found : Token)
  /-- A printing method was called by another name. -/
  | expectedPrintMethod (name : String)
  /-- Something that can be printed was needed. -/
  | expectedPrintable (found : Token)
  /-- The value of a variable was needed. -/
  | expectedValue (found : Token)
  /-- The right side of a comparison by `operator` was needed. -/
  | expectedOperand (operator : String) (found : Kind)
  /-- No condition starts with this token. -/
  | expectedCondition (found : Token)
  /-- A rule called itself without taking a token. -/
  | stalled
deriving DecidableEq, Repr

namespace GrammarError

/-- The methods that print (`PRINT_METHODS`). -/
def printMethods : List String := ["println", "print"]

/-- Names in quotes between parentheses. -/
def enumerate (names : List String) : String :=
  "(" ++ String.intercalate ", " (names.map Text.quote) ++ ")"

/-- The error as it is reported. -/
def message : GrammarError → String
  | outOfTokens => "list index out of range"
  | expected kind text found =>
    "Expected " ++ kind.name ++ " " ++ text.getD "" ++ " at " ++ toString found.pos
      ++ ", got " ++ found.describe
  | expectedPrintMethod name => "Expected " ++ enumerate printMethods ++ ", got " ++ name
  | expectedPrintable found =>
    "Expected string or identifier at " ++ toString found.pos ++ ", got " ++ found.describe
  | expectedValue found =>
    "Expected string, number, identifier, true or false but got " ++ found.describe
  | expectedOperand operator found =>
    "Expected " ++ enumerate (Kind.operands.map Kind.name) ++ " after " ++ operator
      ++ ", got " ++ found.name
  | expectedCondition found =>
    "Unexpected token in condition at position " ++ toString found.pos ++ ": "
      ++ found.describe
  | stalled => "a rule made no progress"

/-- The error says what the tokens should have been; the others only say that there
were too few. -/
def isSyntax : GrammarError → Bool
  | outOfTokens | stalled => false
  | _ => true

end GrammarError

end Offside
