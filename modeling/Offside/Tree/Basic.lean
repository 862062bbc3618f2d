import Offside.Program.Basic

/-!
# Trees

A tree is a program or a part of one, in a form in which every part can stand in
every place: a statement where a condition belongs, a plain value where a statement
does. The printers work on trees. A program is a tree in which every part is in its
own place (`Program.toTree`).
-/

namespace Offside

/-- A program, a part of a program, or a plain value. -/
inductive Tree where
  | module (body : List Tree)
  | print (arguments : List String)
  | binding (name : String) (value : Option String) (typeName : String)
  | change (name : String) (delta : Int)
  | comparison (left operator : String) (right : Option String)
  | logical (left : Tree) (operator : String) (right : Tree)
  | branch (condition : Tree) (body : List Tree) (elseIf : Tree)
      (elseBody : Option (List Tree))
  | whileLoop (condition : Tree) (body : List Tree)
  | forLoop (first condition update : Tree) (body : List Tree)
  | text (value : String)
  | number (value : Int)
  | truth (value : Bool)
  | absent
  | list (items : List Tree)

namespace Tree

/-- The name of the sort of a tree. -/
def sort : Tree → String
  | module .. => "Module"
  | print .. => "Print"
  | binding .. => "Variable"
  | change .. => "VarUpdate"
  | comparison .. => "BinaryCondition"
  | logical .. => "LogicalCondition"
  | branch .. => "IfStatement"
  | whileLoop .. => "WhileStatement"
  | forLoop .. => "ForStatement"
  | text .. => "str"
  | number .. => "int"
  | truth .. => "bool"
  | absent => "NoneType"
  | list .. => "list"

/-- A tree that counts as present where only presence is asked for: not nothing, not
an empty text or list, not zero, not false. -/
def isPresent : Tree → Bool
  | text s => s != ""
  | number n => n != 0
  | truth b => b
  | absent => false
  | list ts => !ts.isEmpty
  | _ => true

/-- Nothing at all. -/
def isAbsent : Tree → Bool
  | absent => true
  | _ => false

end Tree

/-! ## Programs as trees -/

/-- A condition as a tree. -/
def Condition.toTree : Condition → Tree
  | test left operator right => .comparison left operator (some right)
  | join left operator right => .logical left.toTree operator right.toTree

/-- A binding as a tree. -/
def Binding.toTree (b : Binding) : Tree := .binding b.name (some b.value) b.typeName

/-- A step as a tree. -/
def Step.toTree (s : Step) : Tree := .change s.name s.direction.amount

/-- Something that may be missing, as a tree. -/
def optionTree {α : Type} (toTree : α → Tree) : Option α → Tree
  | none => .absent
  | some a => toTree a

mutual

/-- A statement as a tree. -/
def Statement.toTree : Statement → Tree
  | .print argument => .print [argument]
  | .declare binding => binding.toTree
  | .step step => step.toTree
  | .branch condition body otherwise =>
    .branch condition.toTree (Statement.listToTree body) otherwise.elseIfTree
      otherwise.elseBodyTree
  | .repeatWhile condition body => .whileLoop condition.toTree (Statement.listToTree body)
  | .count first condition update body =>
    .forLoop (optionTree Binding.toTree first) (optionTree Condition.toTree condition)
      (optionTree Step.toTree update) (Statement.listToTree body)

/-- Statements as trees. -/
def Statement.listToTree : List Statement → List Tree
  | [] => []
  | s :: ss => s.toTree :: Statement.listToTree ss

/-- The branch after `else`, if there is one. -/
def Otherwise.elseIfTree : Otherwise → Tree
  | .elseIf condition body otherwise =>
    .branch condition.toTree (Statement.listToTree body) otherwise.elseIfTree
      otherwise.elseBodyTree
  | .nothing => .absent
  | .elseDo _ => .absent

/-- The block after `else`, if there is one. -/
def Otherwise.elseBodyTree : Otherwise → Option (List Tree)
  | .elseDo body => some (Statement.listToTree body)
  | .nothing => none
  | .elseIf .. => none

end

@[simp] theorem Statement.listToTree_eq_map (ss : List Statement) :
    Statement.listToTree ss = ss.map Statement.toTree := by
  induction ss with
  | nil => simp [Statement.listToTree]
  | cons s ss ih => simp [Statement.listToTree, ih]

/-- A program as a tree. -/
def Program.toTree (p : Program) : Tree := .module (p.body.map Statement.toTree)

end Offside
