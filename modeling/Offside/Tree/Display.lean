import Offside.Text.Numeral
import Offside.Tree.Basic

/-!
# How trees are shown

A tree is shown as the name of its sort with its parts in order, texts in quotes,
lists in brackets. A number with too many digits cannot be shown.
-/

namespace Offside.Tree

open Text (NumeralError quote writeNumeral)

/-- Items between brackets. -/
def bracketed (items : List String) : String := "[" ++ String.intercalate ", " items ++ "]"

/-- A text in quotes, or the word for nothing. -/
def quoteOption : Option String → String
  | none => "None"
  | some s => quote s

/-- A truth value by name. -/
def truthName : Bool → String
  | true => "True"
  | false => "False"

mutual

/-- A tree as it is shown inside another one. -/
def display : Tree → Except NumeralError String
  | module body => do
    return "Module(body=" ++ bracketed (← displayAll body) ++ ")"
  | print arguments => return "Print(args=" ++ bracketed (arguments.map quote) ++ ")"
  | binding name value typeName =>
    return "Variable(name=" ++ quote name ++ ", value=" ++ quoteOption value
      ++ ", type_hint=" ++ quote typeName ++ ")"
  | change name delta => do
    return "VarUpdate(name=" ++ quote name ++ ", delta=" ++ (← writeNumeral delta) ++ ")"
  | comparison left operator right =>
    return "BinaryCondition(left=" ++ quote left ++ ", operator=" ++ quote operator
      ++ ", right=" ++ quoteOption right ++ ")"
  | logical left operator right => do
    let l ← display left
    let r ← display right
    return "LogicalCondition(left=" ++ l ++ ", operator=" ++ quote operator
      ++ ", right=" ++ r ++ ")"
  | branch condition body elseIf elseBody => do
    let c ← display condition
    let b ← displayAll body
    let e ← display elseIf
    let d ← match elseBody with
      | none => pure "None"
      | some ts => bracketed <$> displayAll ts
    return "IfStatement(condition=" ++ c ++ ", body=" ++ bracketed b ++ ", else_if=" ++ e
      ++ ", else_body=" ++ d ++ ")"
  | whileLoop condition body => do
    let c ← display condition
    let b ← displayAll body
    return "WhileStatement(condition=" ++ c ++ ", body=" ++ bracketed b ++ ")"
  | forLoop first condition update body => do
    let i ← display first
    let c ← display condition
    let u ← display update
    let b ← displayAll body
    return "ForStatement(init=" ++ i ++ ", condition=" ++ c ++ ", update=" ++ u
      ++ ", body=" ++ bracketed b ++ ")"
  | text value => return quote value
  | number value => writeNumeral value
  | truth value => return truthName value
  | absent => return "None"
  | list items => do return bracketed (← displayAll items)

/-- Trees as they are shown inside a list. -/
def displayAll : List Tree → Except NumeralError (List String)
  | [] => return []
  | t :: ts => do
    let d ← display t
    let ds ← displayAll ts
    return d :: ds

end

/-- A tree as it is shown on its own: a text without quotes. -/
def show? : Tree → Except NumeralError String
  | text value => .ok value
  | t => display t

end Offside.Tree
