import Offside.Text.Lines
import Offside.Text.Replace
import Offside.Tree.Display
import Offside.Tree.Range

/-!
# Trees as Python text

Statements become lines of Python text, and the bodies of branches and loops are
indented below their heads. A counting loop becomes a loop over a range where there
is one, and otherwise a loop on its condition with the change at the end of its
body. A branch after `else` is written like any other branch, and the first `if` in
its text becomes `elif`. Each definition gives the `emit_` function that it stands for.
-/

namespace Offside.Tree

open Text (indent replaceFirst writeNumeral)

/-! ## Values and conditions -/

/-- The text of a value: truth values are capitalised, and a final `f` or `F` is
dropped from anything longer (`emit_value`). -/
def valueText (v : String) : String :=
  if v = "true" then "True"
  else if v = "false" then "False"
  else if 1 < v.toList.length ∧ (v.toList.getLast? = some 'f' ∨ v.toList.getLast? = some 'F') then
    String.ofList v.toList.dropLast
  else v

/-- The connective for an operator. -/
def connective (operator : String) : String := if operator = "&&" then "and" else "or"

/-- A text, or the word for nothing. -/
def optionText : Option String → String
  | none => "None"
  | some s => s

/-- The text of a condition (`emit_condition`). What is no condition is shown as it
is. -/
def conditionText : Tree → Except RenderError String
  | comparison left operator right =>
    return if operator = "" then left
      else left ++ " " ++ operator ++ " " ++ optionText right
  | logical left operator right => do
    let l ← conditionText left
    let r ← conditionText right
    return "(" ++ l ++ ") " ++ connective operator ++ " (" ++ r ++ ")"
  | t => (show? t).mapError .numeral

/-! ## Statements, given the texts of their parts -/

/-- Print the first argument. -/
def printText : List String → Except RenderError String
  | [] => .error .noArgument
  | a :: _ => .ok ("print(" ++ a ++ ")\n")

/-- Assign a value. -/
def bindingText (name : String) (value : Option String) : String :=
  name ++ " = " ++ optionText (value.map valueText) ++ "\n"

/-- Change a variable by an amount. -/
def changeText (name : String) (delta : Int) : Except RenderError String :=
  if 0 ≤ delta then do
    return name ++ " += " ++ (← (writeNumeral delta).mapError .numeral) ++ "\n"
  else do
    return name ++ " -= " ++ (← (writeNumeral delta.natAbs).mapError .numeral) ++ "\n"

/-- The text after the body of a branch. -/
inductive ElseText where
  | nothing
  | elseIf (next : String)
  | elseDo (body : String)

/-- The text after the body of a branch. -/
def ElseText.render : ElseText → String
  | nothing => ""
  | elseIf next => replaceFirst "if" "elif" next
  | elseDo body => "else:\n" ++ indent 1 body

/-- A branch (`emit_if`). -/
def branchText (condition body : Except RenderError String)
    (otherwise : Except RenderError ElseText) : Except RenderError String := do
  let c ← condition
  let b ← body
  let e ← otherwise
  return "if " ++ c ++ ":\n" ++ indent 1 b ++ e.render

/-- A loop on a condition (`emit_while`). -/
def whileText (condition body : Except RenderError String) : Except RenderError String := do
  let c ← condition
  let b ← body
  return "while " ++ c ++ ":\n" ++ indent 1 b

/-- A counting loop: over a range, if `head` is one, else on its condition
(`emit_for`). -/
def forText (head : Except RenderError (Option String))
    (first condition body update : Except RenderError String) :
    Except RenderError String := do
  match ← head with
  | some h =>
    let b ← body
    return h ++ indent 1 b
  | none =>
    let i ← first
    let c ← condition
    let b ← body
    let u ← update
    return i ++ ("while " ++ c ++ ":\n" ++ indent 1 (b ++ u))

/-! ## Statements -/

mutual

/-- The text of a statement (`emit_stmt`). -/
def statementText : Tree → Except RenderError String
  | print arguments => printText arguments
  | binding name value _ => .ok (bindingText name value)
  | change name delta => changeText name delta
  | branch condition body elseIf elseBody =>
    branchText (conditionText condition) (statementsText body)
      (if elseIf.isPresent then return .elseIf (← statementText elseIf)
       else match elseBody with
        | none => return .nothing
        | some [] => return .nothing
        | some (t :: ts) => return .elseDo (← statementsText (t :: ts)))
  | whileLoop condition body => whileText (conditionText condition) (statementsText body)
  | forLoop first condition update body =>
    forText (rangeHead? first condition update)
      (if first.isAbsent then return "" else statementText first)
      (if condition.isAbsent then return "True" else conditionText condition)
      (statementsText body)
      (if update.isAbsent then return "" else statementText update)
  | t => .error (.unsupported t.sort)

/-- The texts of statements, one after the other. -/
def statementsText : List Tree → Except RenderError String
  | [] => return ""
  | t :: ts => do
    let s ← statementText t
    let ss ← statementsText ts
    return s ++ ss

end

theorem statementsText_append (ts us : List Tree) :
    statementsText (ts ++ us) = do
      let s ← statementsText ts
      let s' ← statementsText us
      return s ++ s' := by
  induction ts with
  | nil => simp only [List.nil_append, statementsText, pure_bind, String.empty_append, bind_pure]
  | cons t ts ih =>
    simp only [List.cons_append, statementsText, ih, bind_assoc, pure_bind, String.append_assoc]

/-! ## Parts asked for by name -/

/-- The body of a tree that has one. -/
def body? : Tree → Except RenderError (List Tree)
  | module body | branch _ body _ _ | whileLoop _ body | forLoop _ _ _ body => .ok body
  | t => .error (.missing t.sort "body")

/-- The condition of a tree that has one. -/
def condition? : Tree → Except RenderError Tree
  | branch condition .. | whileLoop condition _ | forLoop _ condition .. => .ok condition
  | t => .error (.missing t.sort "condition")

/-- The text of a module, or of the body of any other tree that has one
(`emit_module`). -/
def moduleText (t : Tree) : Except RenderError String := do
  statementsText (← t.body?)

/-- The text of a tree read as a loop on a condition. -/
def asWhileText (t : Tree) : Except RenderError String := do
  let c ← t.condition?
  let b ← t.body?
  whileText (conditionText c) (statementsText b)

/-- The text of a tree read as a branch. Loops have a condition and a body too, and
fail only after them. -/
def asBranchText (t : Tree) : Except RenderError String :=
  match t with
  | branch .. => statementText t
  | t => do
    let _ ← asWhileText t
    .error (.missing t.sort "else_if")

/-- The text of a tree read as a counting loop. -/
def asForText (t : Tree) : Except RenderError String :=
  match t with
  | forLoop .. => statementText t
  | t => .error (.missing t.sort "init")

/-- A tree read as a counting loop goes over numbers. -/
def isCounting (t : Tree) : Except RenderError Bool :=
  match t with
  | forLoop first condition update _ => return (← counting? first condition update).isSome
  | t => .error (.missing t.sort "init")

end Offside.Tree
