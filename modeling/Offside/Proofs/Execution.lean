import Mathlib.Logic.Function.Basic
import Offside.Token.Lexeme
import Offside.Tree.Render

/-!
# What written statements do

A store gives integers to variables. Statements are run as they are written: they change the
store, and leave a trace of what they print (`Runs`). A counting loop is written over a range or
as a loop on its condition, and it is run as whichever of the two it is written as. Whatever has
no value here, such as a variable that was never set or a text literal that is to be stored, has
no run.

A run changes only variables that are assigned in the statements (`Runs.eq_of_not_assigned`).
-/

namespace Offside

open Text (readNumeral isDigitText)
open Offside.Tree (Counting RenderError counting? rangeArguments? commaSeparated rangeHead?
  valueText isNumeral)

/-! ## Values -/

/-- The integers that variables have. -/
abbrev Store : Type := String → Option Int

/-- The two stores give the same to every variable but `x`. -/
def Store.SameBut (x : String) (σ τ : Store) : Prop := ∀ y, y ≠ x → σ y = τ y

namespace Store.SameBut

variable {x : String} {σ ρ τ : Store}

theorem symm (h : σ.SameBut x ρ) : ρ.SameBut x σ := fun y hy => (h y hy).symm

theorem trans (h : σ.SameBut x ρ) (h' : ρ.SameBut x τ) : σ.SameBut x τ :=
  fun y hy => (h y hy).trans (h' y hy)

theorem update (σ : Store) (x : String) (o : Option Int) : σ.SameBut x (Function.update σ x o) :=
  fun _ hy => (Function.update_of_ne hy _ _).symm

theorem update_eq (h : σ.SameBut x ρ) : Function.update σ x (ρ x) = ρ := by
  funext y
  by_cases hy : y = x
  · subst hy
    exact Function.update_self ..
  · rw [Function.update_of_ne hy, h y hy]

end Store.SameBut

/-- The text is that of a name. -/
def isName (text : List Char) : Bool := text.head?.any isIdentifierStart

/-- The value of a text: numerals and truth values have their own, and names have the one that
the store gives them. -/
def value? (σ : Store) (text : String) : Option Int :=
  if isDigitText text.toList then (readNumeral text.toList).toOption.map Int.ofNat
  else if text = "True" then some 1
  else if text = "False" then some 0
  else if isName text.toList then σ text
  else none

/-- The outcome of a comparison. -/
def compare? (operator : String) (a b : Int) : Option Bool :=
  match operator with
  | "==" => some (decide (a = b))
  | "!=" => some (decide (a ≠ b))
  | "<" => some (decide (a < b))
  | "<=" => some (decide (a ≤ b))
  | ">" => some (decide (b < a))
  | ">=" => some (decide (b ≤ a))
  | _ => none

/-- The truth of a condition. A comparison has a variable on its left. The right side of a
connective counts only if the left side does not decide. -/
def truth? (σ : Store) : Tree → Option Bool
  | .comparison left operator right =>
    if operator = "" then (value? σ left).map (· != 0)
    else do
      let a ← σ left
      let b ← right.bind (value? σ)
      compare? operator a b
  | .logical left operator right => do
    let l ← truth? σ left
    if l = (operator == "&&") then truth? σ right else return l
  | .truth b => some b
  | _ => none

/-- What is printed: an integer, or a literal as it is written. -/
inductive Shown where
  | number (n : Int)
  | literal (text : String)
deriving DecidableEq, Repr

/-- What a text is printed as. A name without a value is not printed. -/
def shown? (σ : Store) (text : String) : Option Shown :=
  match value? σ text with
  | some n => some (.number n)
  | none => if isName text.toList then none else some (.literal text)

/-! ## The two forms of a counting loop -/

/-- The arguments of the range that a loop over numbers goes through. -/
def Tree.Counting.range? (l : Counting) : Except Text.NumeralError (Option (List Int)) := do
  let start ← readNumeral l.start.toList
  let bound ← readNumeral l.bound.toList
  return rangeArguments? l.operator l.delta start bound

/-- The counter of a loop, and the arguments of the range that it is written over, if it is. -/
def writtenRange? (first condition update : Tree) :
    Except RenderError (Option (String × List Int)) := do
  match ← counting? first condition update with
  | none => return none
  | some l => return (← l.range?.mapError .numeral).map (l.counter, ·)

/-- A part that may be missing, as statements. -/
def presentPart (t : Tree) : List Tree := if t.isAbsent then [] else [t]

/-- A counting loop as a loop on its condition, after its first binding and with the change at
the end of its body. -/
def whileForm (first condition update : Tree) (body : List Tree) : List Tree :=
  presentPart first ++
    [.whileLoop (if condition.isAbsent then .truth true else condition)
      (body ++ presentPart update)]

/-- The numbers from `start` in steps of `step` up to `stop`, which is left out. -/
def progression (start stop step : Int) : List Int :=
  let count := if 0 < step then (stop - start + step - 1) / step
    else if step < 0 then (start - stop - step - 1) / -step
    else 0
  (List.range count.toNat).map fun i : Nat => start + i * step

/-- The numbers that a range with these arguments goes through. The step is one if it is not
given. -/
def rangeValues : List Int → List Int
  | [start, stop] => progression start stop 1
  | [start, stop, step] => progression start stop step
  | _ => []

/-! ## How the forms are written -/

/-- The text of a loop over a range. -/
def rangeText (counter : String) (arguments : List Int) (body : Except RenderError String) :
    Except RenderError String := do
  let a ← (commaSeparated arguments).mapError .numeral
  let b ← body
  return "for " ++ counter ++ " in range(" ++ a ++ "):\n" ++ Text.indent 1 b

theorem statementsText_presentPart (t : Tree) :
    Tree.statementsText (presentPart t) = if t.isAbsent then return "" else t.statementText := by
  unfold presentPart
  split
  · rfl
  · simp [Tree.statementsText]

/-- The second form is the text of a counting loop that has no range. -/
theorem statementsText_whileForm (first condition update : Tree) (body : List Tree) :
    Tree.statementsText (whileForm first condition update body) =
      Tree.forText (.ok none)
        (if first.isAbsent then return "" else first.statementText)
        (if condition.isAbsent then return "True" else condition.conditionText)
        (Tree.statementsText body)
        (if update.isAbsent then return "" else update.statementText) := by
  have hc : (if condition.isAbsent then Tree.truth true else condition).conditionText =
      if condition.isAbsent then return "True" else condition.conditionText := by
    split <;> rfl
  simp only [whileForm, Tree.statementsText_append, statementsText_presentPart,
    Tree.statementsText, Tree.statementText, Tree.whileText, hc]
  simp only [Tree.forText, bind_assoc, pure_bind, String.append_empty]
  rfl

theorem Tree.Counting.head?_eq_range? (l : Counting) :
    l.head? = l.range? >>= fun
      | none => return none
      | some arguments => do
        let a ← commaSeparated arguments
        return some ("for " ++ l.counter ++ " in range(" ++ a ++ "):\n") := by
  unfold Counting.head? Counting.range?
  cases readNumeral l.start.toList with
  | error e => rfl
  | ok start =>
    cases readNumeral l.bound.toList with
    | error e => rfl
    | ok bound => rfl

theorem rangeHead?_eq_writtenRange? (first condition update : Tree) :
    rangeHead? first condition update =
      writtenRange? first condition update >>= fun
        | none => return none
        | some (counter, arguments) => do
          let a ← (commaSeparated arguments).mapError .numeral
          return some ("for " ++ counter ++ " in range(" ++ a ++ "):\n") := by
  unfold rangeHead? writtenRange?
  cases counting? first condition update with
  | error e => rfl
  | ok o =>
    cases o with
    | none => rfl
    | some l =>
      simp only [bind, Except.bind, Counting.head?_eq_range?]
      cases l.range? with
      | error e => rfl
      | ok arguments? =>
        cases arguments? with
        | none => rfl
        | some arguments =>
          show Except.mapError _ (commaSeparated arguments >>= _) =
            ((commaSeparated arguments).mapError _ >>= _)
          cases commaSeparated arguments with
          | error e => rfl
          | ok a => rfl

/-- A counting loop is written in one of the two forms. -/
theorem statementText_forLoop (first condition update : Tree) (body : List Tree) :
    Tree.statementText (.forLoop first condition update body) =
      writtenRange? first condition update >>= fun
        | none => Tree.statementsText (whileForm first condition update body)
        | some (counter, arguments) => rangeText counter arguments (Tree.statementsText body) := by
  rw [Tree.statementText, statementsText_whileForm, rangeHead?_eq_writtenRange?]
  cases writtenRange? first condition update with
  | error e => rfl
  | ok o =>
    cases o with
    | none => rfl
    | some r =>
      simp only [bind, Except.bind, Tree.forText, rangeText]
      cases (commaSeparated r.2).mapError RenderError.numeral with
      | error e => rfl
      | ok a => rfl

/-- The parts of a loop over numbers. -/
theorem Tree.parts_of_counting? {first condition update : Tree} {l : Counting}
    (h : counting? first condition update = .ok (some l)) :
    ∃ typeName changed, first = .binding l.counter (some l.start) typeName ∧
      condition = .comparison l.counter l.operator (some l.bound) ∧
      update = .change changed l.delta ∧ isDigitText l.start.toList = true ∧
      isDigitText l.bound.toList = true := by
  unfold counting? at h
  cases first with
  | binding name start typeName =>
    cases start with
    | none => cases h
    | some start =>
      simp only [isNumeral, bind, Except.bind] at h
      split at h
      · next hs =>
        cases condition with
        | comparison left operator bound =>
          simp only at h
          split at h
          · next hl =>
            cases bound with
            | none => cases h
            | some bound =>
              simp only at h
              split at h
              · next hb =>
                cases update with
                | change changed delta =>
                  simp only at h
                  split at h
                  · cases h
                    subst hl
                    exact ⟨_, _, rfl, rfl, rfl, hs, hb⟩
                  · cases h
                | _ => cases h
              · cases h
          · cases h
        | _ => cases h
      · cases h
  | _ => cases h

/-! ## Runs -/

/-- What can be run. -/
inductive Code where
  | statement (t : Tree)
  /-- Statements, one after the other. -/
  | block (ts : List Tree)
  /-- A body for each of some values of a counter. -/
  | each (counter : String) (values : List Int) (body : List Tree)

/-- A run that leads from one store to another, and what it prints. -/
inductive Runs : Code → Store → List Shown → Store → Prop
  | print {σ : Store} {argument : String} {arguments : List String} {x : Shown}
      (hx : shown? σ argument = some x) :
      Runs (.statement (.print (argument :: arguments))) σ [x] σ
  | binding {σ : Store} {name value typeName : String} {n : Int}
      (hn : value? σ (valueText value) = some n) :
      Runs (.statement (.binding name (some value) typeName)) σ []
        (Function.update σ name (some n))
  | change {σ : Store} {name : String} {delta n : Int} (hn : σ name = some n) :
      Runs (.statement (.change name delta)) σ [] (Function.update σ name (some (n + delta)))
  | branchThen {σ σ' : Store} {condition elseIf : Tree} {body : List Tree}
      {elseBody : Option (List Tree)} {trace : List Shown} (hc : truth? σ condition = some true)
      (h : Runs (.block body) σ trace σ') :
      Runs (.statement (.branch condition body elseIf elseBody)) σ trace σ'
  | branchElseIf {σ σ' : Store} {condition condition' elseIf' : Tree} {body body' : List Tree}
      {elseBody elseBody' : Option (List Tree)} {trace : List Shown}
      (hc : truth? σ condition = some false)
      (h : Runs (.statement (.branch condition' body' elseIf' elseBody')) σ trace σ') :
      Runs (.statement (.branch condition body (.branch condition' body' elseIf' elseBody')
        elseBody)) σ trace σ'
  | branchElse {σ σ' : Store} {condition elseIf : Tree} {body : List Tree}
      {elseBody : Option (List Tree)} {trace : List Shown} (hc : truth? σ condition = some false)
      (he : elseIf.isPresent = false) (h : Runs (.block (elseBody.getD [])) σ trace σ') :
      Runs (.statement (.branch condition body elseIf elseBody)) σ trace σ'
  | whileStop {σ : Store} {condition : Tree} {body : List Tree}
      (hc : truth? σ condition = some false) :
      Runs (.statement (.whileLoop condition body)) σ [] σ
  | whileRound {σ σ₁ σ₂ : Store} {condition : Tree} {body : List Tree} {trace₁ trace₂ : List Shown}
      (hc : truth? σ condition = some true) (hb : Runs (.block body) σ trace₁ σ₁)
      (h : Runs (.statement (.whileLoop condition body)) σ₁ trace₂ σ₂) :
      Runs (.statement (.whileLoop condition body)) σ (trace₁ ++ trace₂) σ₂
  | forRange {σ σ' : Store} {first condition update : Tree} {body : List Tree} {counter : String}
      {arguments : List Int} {trace : List Shown}
      (hr : writtenRange? first condition update = .ok (some (counter, arguments)))
      (h : Runs (.each counter (rangeValues arguments) body) σ trace σ') :
      Runs (.statement (.forLoop first condition update body)) σ trace σ'
  | forWhile {σ σ' : Store} {first condition update : Tree} {body : List Tree}
      {trace : List Shown} (hr : writtenRange? first condition update = .ok none)
      (h : Runs (.block (whileForm first condition update body)) σ trace σ') :
      Runs (.statement (.forLoop first condition update body)) σ trace σ'
  | nil {σ : Store} : Runs (.block []) σ [] σ
  | cons {σ σ₁ σ₂ : Store} {t : Tree} {ts : List Tree} {trace₁ trace₂ : List Shown}
      (h₁ : Runs (.statement t) σ trace₁ σ₁) (h₂ : Runs (.block ts) σ₁ trace₂ σ₂) :
      Runs (.block (t :: ts)) σ (trace₁ ++ trace₂) σ₂
  | eachStop {σ : Store} {counter : String} {body : List Tree} :
      Runs (.each counter [] body) σ [] σ
  | eachRound {σ σ₁ σ₂ : Store} {counter : String} {n : Int} {ns : List Int} {body : List Tree}
      {trace₁ trace₂ : List Shown}
      (hb : Runs (.block body) (Function.update σ counter (some n)) trace₁ σ₁)
      (h : Runs (.each counter ns body) σ₁ trace₂ σ₂) :
      Runs (.each counter (n :: ns) body) σ (trace₁ ++ trace₂) σ₂

/-- From every store the two pieces of code have runs that print the same and end in the same
stores, except at `x`: where one has such a run, so has the other. -/
def Code.AgreeBut (x : String) (c d : Code) : Prop :=
  ∀ (σ : Store) (trace : List Shown) (τ : Store),
    (∃ σ', Runs c σ trace σ' ∧ σ'.SameBut x τ) ↔ ∃ σ', Runs d σ trace σ' ∧ σ'.SameBut x τ

/-! ## Variables that are assigned -/

namespace Tree

mutual

/-- The variables that a statement assigns, at any depth. -/
def assigned : Tree → List String
  | binding name _ _ => [name]
  | change name _ => [name]
  | branch _ body elseIf elseBody =>
    assignedIn body ++ elseIf.assigned ++ assignedElse elseBody
  | whileLoop _ body => assignedIn body
  | forLoop first _ update body => first.assigned ++ update.assigned ++ assignedIn body
  | _ => []

/-- The variables that statements assign, at any depth. -/
def assignedIn : List Tree → List String
  | [] => []
  | t :: ts => t.assigned ++ assignedIn ts

/-- The variables that a block after `else` assigns, if there is one. -/
def assignedElse : Option (List Tree) → List String
  | none => []
  | some ts => assignedIn ts

end

end Tree

/-- The variables that a piece of code assigns. -/
def Code.assigned : Code → List String
  | statement t => t.assigned
  | block ts => Tree.assignedIn ts
  | each counter _ body => counter :: Tree.assignedIn body

theorem assignedIn_append (ts us : List Tree) :
    Tree.assignedIn (ts ++ us) = Tree.assignedIn ts ++ Tree.assignedIn us := by
  induction ts with
  | nil => rfl
  | cons t ts ih => simp [Tree.assignedIn, ih]

theorem assignedIn_presentPart (t : Tree) : Tree.assignedIn (presentPart t) = t.assigned := by
  unfold presentPart
  cases ht : t.isAbsent with
  | true =>
    obtain rfl : t = .absent := by
      cases t <;> first | rfl | cases ht
    rfl
  | false => simp [Tree.assignedIn]

theorem assignedIn_whileForm (first condition update : Tree) (body : List Tree) :
    Tree.assignedIn (whileForm first condition update body) =
      first.assigned ++ (Tree.assignedIn body ++ update.assigned) := by
  simp [whileForm, assignedIn_append, assignedIn_presentPart, Tree.assignedIn, Tree.assigned]

theorem counter_mem_assigned {first condition update : Tree} {counter : String}
    {arguments : List Int}
    (h : writtenRange? first condition update = .ok (some (counter, arguments))) :
    counter ∈ first.assigned := by
  unfold writtenRange? at h
  cases hl : counting? first condition update with
  | error e =>
    rw [hl] at h
    cases h
  | ok o =>
    rw [hl] at h
    cases o with
    | none => cases h
    | some l =>
      obtain ⟨typeName, changed, rfl, -⟩ := Tree.parts_of_counting? hl
      simp only [bind, Except.bind] at h
      split at h
      · cases h
      · next r hr =>
        cases r with
        | none => cases h
        | some arguments' =>
          cases h
          simp [Tree.assigned]

/-- A run keeps the values of variables that are not assigned. -/
theorem Runs.eq_of_not_assigned {code : Code} {σ σ' : Store} {trace : List Shown}
    (h : Runs code σ trace σ') {x : String} (hx : x ∉ code.assigned) : σ' x = σ x := by
  induction h with
  | print => rfl
  | binding hn =>
    simp only [Code.assigned, Tree.assigned, List.mem_singleton] at hx
    exact Function.update_of_ne hx _ _
  | change hn =>
    simp only [Code.assigned, Tree.assigned, List.mem_singleton] at hx
    exact Function.update_of_ne hx _ _
  | branchThen hc h ih =>
    simp only [Code.assigned, Tree.assigned, List.mem_append, not_or] at hx
    exact ih hx.1.1
  | branchElseIf hc h ih =>
    rw [Code.assigned, Tree.assigned, List.mem_append, List.mem_append, not_or, not_or] at hx
    exact ih hx.1.2
  | @branchElse σ σ' condition elseIf body elseBody trace hc he h ih =>
    simp only [Code.assigned, Tree.assigned, List.mem_append, not_or] at hx
    apply ih
    cases elseBody with
    | none => simp [Code.assigned, Tree.assignedIn]
    | some ts => exact hx.2
  | whileStop hc => rfl
  | whileRound hc hb h ihb ih =>
    rw [ih hx, ihb hx]
  | forRange hr h ih =>
    simp only [Code.assigned, Tree.assigned, List.mem_append, not_or] at hx
    apply ih
    simp only [Code.assigned, List.mem_cons, not_or]
    refine ⟨?_, hx.2⟩
    rintro rfl
    exact hx.1.1 (counter_mem_assigned hr)
  | forWhile hr h ih =>
    simp only [Code.assigned, Tree.assigned, List.mem_append, not_or] at hx
    apply ih
    simp only [Code.assigned, assignedIn_whileForm, List.mem_append, not_or]
    exact ⟨hx.1.1, hx.2, hx.1.2⟩
  | nil => rfl
  | cons h₁ h₂ ih₁ ih₂ =>
    simp only [Code.assigned, Tree.assignedIn, List.mem_append, not_or] at hx
    rw [ih₂ hx.2, ih₁ hx.1]
  | eachStop => rfl
  | eachRound hb h ihb ih =>
    have hx' := hx
    simp only [Code.assigned, List.mem_cons, not_or] at hx
    rw [ih hx', ihb hx.2, Function.update_of_ne hx.1]

theorem Runs.append {ts us : List Tree} {σ σ₁ σ₂ : Store} {trace₁ trace₂ : List Shown}
    (h₁ : Runs (.block ts) σ trace₁ σ₁) (h₂ : Runs (.block us) σ₁ trace₂ σ₂) :
    Runs (.block (ts ++ us)) σ (trace₁ ++ trace₂) σ₂ := by
  induction ts generalizing σ trace₁ with
  | nil =>
    cases h₁
    exact h₂
  | cons t ts ih =>
    cases h₁ with
    | cons ht hts =>
      rw [List.append_assoc]
      exact .cons ht (ih hts)

theorem Runs.exists_of_append {ts us : List Tree} {σ σ₂ : Store} {trace : List Shown}
    (h : Runs (.block (ts ++ us)) σ trace σ₂) : ∃ trace₁ σ₁ trace₂, trace = trace₁ ++ trace₂ ∧
      Runs (.block ts) σ trace₁ σ₁ ∧ Runs (.block us) σ₁ trace₂ σ₂ := by
  induction ts generalizing σ trace with
  | nil => exact ⟨[], σ, trace, rfl, .nil, h⟩
  | cons t ts ih =>
    cases h with
    | @cons _ σ' _ _ _ trace₁ trace₂ ht hrest =>
      obtain ⟨trace₃, σ₁, trace₄, rfl, hts, hus⟩ := ih hrest
      exact ⟨trace₁ ++ trace₃, σ₁, trace₄, by rw [List.append_assoc], .cons ht hts, hus⟩

theorem runs_block_singleton {t : Tree} {σ σ' : Store} {trace : List Shown} :
    Runs (.block [t]) σ trace σ' ↔ Runs (.statement t) σ trace σ' := by
  constructor
  · intro h
    cases h with
    | cons ht hnil =>
      cases hnil
      rwa [List.append_nil]
  · intro h
    have hcons := Runs.cons h .nil
    rwa [List.append_nil] at hcons

end Offside
