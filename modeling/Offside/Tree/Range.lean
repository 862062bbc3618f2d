import Offside.Text.Numeral
import Offside.Tree.Basic

/-!
# Counting loops as ranges

A counting loop goes through a range of numbers when it binds a variable to a
number, compares that variable with a number, and changes some variable by one.
Which numbers it goes through depends on the comparison and on the direction. The
test is `is_simple_range_loop`, and the ranges are those of `emit_for`.
-/

namespace Offside.Tree

open Text (NumeralError readNumeral writeNumeral isDigitText)

/-- Why no text could be made of a tree. -/
inductive RenderError where
  /-- Trees of this sort are no statements. -/
  | unsupported (sort : String)
  /-- Nothing was given to print. -/
  | noArgument
  /-- Trees of this sort do not have that part. -/
  | missing (sort part : String)
  /-- A number could not be read or written. -/
  | numeral (error : NumeralError)
deriving DecidableEq, Repr

/-- The error as it is reported. -/
def RenderError.message : RenderError → String
  | .unsupported sort => "No emitter for " ++ sort
  | .noArgument => "list index out of range"
  | .missing sort part => "'" ++ sort ++ "' object has no attribute '" ++ part ++ "'"
  | .numeral error => error.message

/-- A counting loop over numbers: the variable it counts with, the numerals it starts
from and is compared with, the comparison, and the change after each round. -/
structure Counting where
  counter : String
  start : String
  bound : String
  operator : String
  delta : Int
deriving DecidableEq, Repr

/-- The text is a numeral. A text that is absent has no characters to ask about. -/
def isNumeral : Option String → Except RenderError Bool
  | none => .error (.missing "NoneType" "isdigit")
  | some s => .ok (isDigitText s.toList)

/-- A loop with this head, as a counting loop over numbers, if
`is_simple_range_loop` takes it for one. The parts are looked at from left to right, and
the first that does not fit decides. -/
def counting? (first condition update : Tree) : Except RenderError (Option Counting) :=
  match first with
  | binding name start _ => do
    if ← isNumeral start then
      match condition with
      | comparison left operator bound =>
        if left = name then do
          if ← isNumeral bound then
            match update with
            | change _ delta =>
              if delta.natAbs = 1 then
                return some ⟨name, start.getD "", bound.getD "", operator, delta⟩
              else return none
            | _ => return none
          else return none
        else return none
      | _ => return none
    else return none
  | _ => return none

/-- The arguments of the range that a loop goes through from `start`, when the
variable is compared with `bound` and changed by `delta`; a third argument is the
step where it is not one. -/
def rangeArguments? (operator : String) (delta start bound : Int) : Option (List Int) :=
  if operator = "<" ∧ delta = 1 then some [start, bound]
  else if operator = "<=" ∧ delta = 1 then some [start, bound + 1]
  else if operator = ">" ∧ delta = -1 then some [start, bound, -1]
  else if operator = ">=" ∧ delta = -1 then some [start, bound - 1, -1]
  else if operator = "==" ∧ delta = 1 then some [start, start + 1]
  else if operator = "!=" ∧ delta = 1 then some [start, bound]
  else none

/-- Numbers with commas between them. -/
def commaSeparated (ns : List Int) : Except NumeralError String := do
  return String.intercalate ", " (← ns.mapM writeNumeral)

/-- The head of the loop over a range, if there is such a range. -/
def Counting.head? (l : Counting) : Except NumeralError (Option String) := do
  let start ← readNumeral l.start.toList
  let bound ← readNumeral l.bound.toList
  match rangeArguments? l.operator l.delta start bound with
  | none => return none
  | some ns =>
    let arguments ← commaSeparated ns
    return some ("for " ++ l.counter ++ " in range(" ++ arguments ++ "):\n")

/-- The head of the loop over a range for a loop with this head. -/
def rangeHead? (first condition update : Tree) : Except RenderError (Option String) := do
  match ← counting? first condition update with
  | none => return none
  | some l => l.head?.mapError .numeral

end Offside.Tree
