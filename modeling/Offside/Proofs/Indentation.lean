import Offside.Proofs.Failures
import Offside.Proofs.Lines

/-!
# Indentation is the depth of nesting

The printer of trees writes the body of a block as if it stood at the margin, and indents the
text once for every block around it. The printer of this module carries the depth along and
writes every line where it belongs. `render_printed` says that the two agree on every program
whose texts have no line feeds: the second text at depth `d` is the first one indented by `d`
levels (`Moves`).
-/

namespace Offside

open Text (indent indentChars indentLine isBlank isBlankText EndsLine indent_append indent_indent
  writeNumeral readNumeral)
open Offside.Tree (RenderError Counting valueText connective commaSeparated rangeArguments?)

/-! ## The texts of a program -/

/-- The texts in a condition. -/
def Condition.texts : Condition → List String
  | test left operator right => [left, operator, right]
  | join left operator right => operator :: (left.texts ++ right.texts)

/-- The texts in a binding. -/
def Binding.texts (b : Binding) : List String := [b.name, b.value, b.typeName]

mutual

/-- The texts in a statement. -/
def Statement.texts : Statement → List String
  | .print argument => [argument]
  | .declare binding => binding.texts
  | .step step => [step.name]
  | .branch condition body otherwise =>
    condition.texts ++ (Statement.listTexts body ++ otherwise.texts)
  | .repeatWhile condition body => condition.texts ++ Statement.listTexts body
  | .count first condition update body =>
    first.toList.flatMap Binding.texts ++ (condition.toList.flatMap Condition.texts ++
      (update.toList.map Step.name ++ Statement.listTexts body))

/-- The texts in statements. -/
def Statement.listTexts : List Statement → List String
  | [] => []
  | s :: ss => s.texts ++ Statement.listTexts ss

/-- The texts after the body of a branch. -/
def Otherwise.texts : Otherwise → List String
  | .nothing => []
  | .elseIf condition body otherwise =>
    condition.texts ++ (Statement.listTexts body ++ otherwise.texts)
  | .elseDo body => Statement.listTexts body

end

/-- The texts in a program. -/
def Program.texts (p : Program) : List String := Statement.listTexts p.body

/-! ## A printer that carries the depth -/

/-- A line at a depth: four spaces for each level, the text and a line feed. -/
def lineAtDepth (depth : Nat) (text : String) : String :=
  String.ofList (List.replicate (4 * depth) ' ') ++ text ++ "\n"

/-- The text of a condition. -/
def Condition.text : Condition → String
  | test left operator right =>
    if operator = "" then left else left ++ " " ++ operator ++ " " ++ right
  | join left operator right =>
    "(" ++ left.text ++ ") " ++ connective operator ++ " (" ++ right.text ++ ")"

/-- The line of a binding. -/
def Binding.line (b : Binding) : String := b.name ++ " = " ++ valueText b.value

/-- The line of a step. -/
def Step.line (s : Step) : String :=
  match s.direction with
  | .up => s.name ++ " += 1"
  | .down => s.name ++ " -= 1"

/-- The arguments of the range of a loop over numbers, if there is such a range. -/
def Tree.Counting.arguments? (l : Counting) : Except Text.NumeralError (Option String) := do
  let start ← readNumeral l.start.toList
  let bound ← readNumeral l.bound.toList
  match rangeArguments? l.operator l.delta start bound with
  | none => return none
  | some ns => return some (← commaSeparated ns)

/-- The line that heads the loop over a range, if there is such a range. -/
def Head.rangeLine? (h : Head) : Except RenderError (Option String) :=
  match h.counting? with
  | none => .ok none
  | some l => (l.arguments?.mapError .numeral).map
      (Option.map fun arguments => "for " ++ l.counter ++ " in range(" ++ arguments ++ "):")

/-- A head at a depth, then a body and what follows it. -/
def printBlock (depth : Nat) (head : String) (body rest : Except RenderError String) :
    Except RenderError String := do
  let b ← body
  let r ← rest
  return lineAtDepth depth head ++ b ++ r

/-- A line at a depth, where there is one. -/
def optionalLine (depth : Nat) (text : Option String) : String :=
  (text.map (lineAtDepth depth)).getD ""

mutual

/-- The text of a statement at a depth. -/
def Statement.printed (depth : Nat) : Statement → Except RenderError String
  | .print argument => .ok (lineAtDepth depth ("print(" ++ argument ++ ")"))
  | .declare binding => .ok (lineAtDepth depth binding.line)
  | .step step => .ok (lineAtDepth depth step.line)
  | .branch condition body otherwise =>
    printBlock depth ("if " ++ condition.text ++ ":") (Statement.listPrinted (depth + 1) body)
      (otherwise.printed depth)
  | .repeatWhile condition body =>
    printBlock depth ("while " ++ condition.text ++ ":") (Statement.listPrinted (depth + 1) body)
      (.ok "")
  | .count first condition update body => do
    match ← (Head.mk first condition update).rangeLine? with
    | some head => printBlock depth head (Statement.listPrinted (depth + 1) body) (.ok "")
    | none =>
      let rounds := do
        let b ← Statement.listPrinted (depth + 1) body
        return b ++ optionalLine (depth + 1) (update.map Step.line)
      let loop ← printBlock depth ("while " ++ (condition.map Condition.text).getD "True" ++ ":")
        rounds (.ok "")
      return optionalLine depth (first.map Binding.line) ++ loop

/-- The texts of statements at a depth, one after the other. -/
def Statement.listPrinted (depth : Nat) : List Statement → Except RenderError String
  | [] => .ok ""
  | s :: ss => do
    let t ← s.printed depth
    let ts ← Statement.listPrinted depth ss
    return t ++ ts

/-- What follows the body of a branch at a depth. An empty block after `else` is left out. -/
def Otherwise.printed (depth : Nat) : Otherwise → Except RenderError String
  | .nothing => .ok ""
  | .elseIf condition body otherwise =>
    printBlock depth ("elif " ++ condition.text ++ ":") (Statement.listPrinted (depth + 1) body)
      (otherwise.printed depth)
  | .elseDo [] => .ok ""
  | .elseDo (s :: ss) =>
    printBlock depth "else:" (Statement.listPrinted (depth + 1) (s :: ss)) (.ok "")

end

/-- The text of a program, printed in one pass. -/
def Program.printed (p : Program) : Except RenderError String := Statement.listPrinted 0 p.body

/-! ## Lines -/

/-- A text that takes up one line: it has no line feed and is not blank. -/
structure IsLine (t : String) : Prop where
  flat : '\n' ∉ t.toList
  notBlank : isBlankText t.toList = false

/-- A line that has a character of a head or an assignment in it. -/
theorem isLine_of_mem {t : String} (c : Char) (hm : c ∈ t.toList) (hc : isBlank c = false)
    (ht : '\n' ∉ t.toList) : IsLine t :=
  ⟨ht, Text.isBlankText_of_mem hm hc⟩

theorem indent_line {t : String} (ht : IsLine t) (d : Nat) :
    indent d (t ++ "\n") = lineAtDepth d t := by
  have hline : indentChars d (t.toList ++ ['\n']) =
      List.replicate (4 * d) ' ' ++ t.toList ++ ['\n'] := by
    rw [Text.indentChars_line d ht.flat, Text.indentChars_nil]
    simp [indentLine, ht.notBlank, Text.indentWidth]
  rw [indent, String.toList_append, show "\n".toList = ['\n'] from rfl, hline]
  simp [lineAtDepth, String.ofList_append, String.append_assoc]

theorem indent_empty (d : Nat) : indent d "" = "" := by
  simp [indent]

theorem endsLine_line {t : String} : EndsLine (t ++ "\n").toList := .inr (by simp)

theorem endsLine_indent {a : String} (ha : EndsLine a.toList) (d : Nat) :
    EndsLine (indent d a).toList := by
  rw [indent, String.toList_ofList]
  exact ha.indentChars d

/-! ## Texts that move as a whole -/

/-- A text of whole lines, and what is printed at every depth: the text as it stands, but
indented to that depth. Where there is no text, nothing is printed for the same reason. -/
def Moves : Except RenderError String → (Nat → Except RenderError String) → Prop
  | .error e, printed => ∀ d, printed d = .error e
  | .ok t, printed => EndsLine t.toList ∧ ∀ d, printed d = .ok (indent d t)

/-- A head, then a body that is indented and what follows it. -/
def blockText (head : String) (body rest : Except RenderError String) :
    Except RenderError String := do
  let b ← body
  let r ← rest
  return head ++ "\n" ++ indent 1 b ++ r

namespace Moves

variable {x y : Except RenderError String} {p q : Nat → Except RenderError String}

theorem line {t : String} (ht : IsLine t) :
    Moves (.ok (t ++ "\n")) fun d => .ok (lineAtDepth d t) := by
  constructor
  · exact endsLine_line
  · intro d
    rw [indent_line ht]

theorem empty : Moves (.ok "") fun _ => .ok "" := by
  constructor
  · exact .inl rfl
  · intro d
    rw [indent_empty]

theorem optional {t : Option String} (ht : ∀ l ∈ t, IsLine l) :
    Moves (.ok ((t.map (· ++ "\n")).getD "")) fun d => .ok (optionalLine d t) := by
  cases t with
  | none => exact empty
  | some l => exact line (ht l rfl)

/-- One text after another. -/
theorem append (hx : Moves x p) (hy : Moves y q) :
    Moves (do let a ← x; let b ← y; return a ++ b)
      fun d => do let a ← p d; let b ← q d; return a ++ b := by
  cases x with
  | error e =>
    intro d
    simp only [hx d]
    rfl
  | ok a =>
    obtain ⟨ha, hp⟩ := hx
    cases y with
    | error e =>
      intro d
      simp only [hp d, hy d]
      rfl
    | ok b =>
      obtain ⟨hb, hq⟩ := hy
      constructor
      · rw [String.toList_append]
        exact ha.append hb
      · intro d
        simp only [hp d, hq d, indent_append d ha]
        rfl

/-- The body of a block is printed one level deeper than its head. -/
theorem block {head : String} (hh : IsLine head) (hx : Moves x p) (hy : Moves y q) :
    Moves (blockText head x y) fun d => printBlock d head (p (d + 1)) (q d) := by
  unfold printBlock
  cases x with
  | error e =>
    intro d
    simp only [hx (d + 1)]
    rfl
  | ok a =>
    obtain ⟨ha, hp⟩ := hx
    cases y with
    | error e =>
      intro d
      simp only [hp (d + 1), hy d]
      rfl
    | ok b =>
      obtain ⟨hb, hq⟩ := hy
      have hbody : EndsLine (head ++ "\n" ++ indent 1 a).toList := by
        rw [String.toList_append]
        exact endsLine_line.append (endsLine_indent ha 1)
      constructor
      · rw [String.toList_append]
        exact hbody.append hb
      · intro d
        simp only [hp (d + 1), hq d, indent_append d hbody, indent_append d endsLine_line,
          indent_line hh, indent_indent 1 d, Nat.add_comm 1 d]
        rfl

/-- At the margin a text is printed as it is. -/
theorem zero (hx : Moves x p) : p 0 = x := by
  cases x with
  | error e => exact hx 0
  | ok t =>
    rw [hx.2 0]
    simp [indent, Text.indentChars_zero]

end Moves

/-! ## Heads -/

theorem conditionText_eq (c : Condition) : Tree.conditionText c.toTree = .ok c.text := by
  induction c with
  | test left operator right => rfl
  | join left operator right ihl ihr =>
    rw [Condition.toTree, Tree.conditionText, ihl, ihr]
    rfl

/-- A branch after `else` is written with another word at its head. -/
theorem replaceFirst_if (t : String) :
    Text.replaceFirst "if" "elif" ("if " ++ t) = "elif " ++ t := by
  have hchars : ("if " ++ t).toList = 'i' :: 'f' :: ' ' :: t.toList := by simp
  have helif : "elif " ++ t = String.ofList ('e' :: 'l' :: 'i' :: 'f' :: ' ' :: t.toList) := by
    rw [← String.toList_inj]
    simp
  rw [Text.replaceFirst, hchars, helif]
  rfl

theorem branchText_eq (c : Condition) (x : Except RenderError String)
    (y : Except RenderError Tree.ElseText) :
    Tree.branchText (Tree.conditionText c.toTree) x y =
      blockText ("if " ++ c.text ++ ":") x (y.map Tree.ElseText.render) := by
  rw [conditionText_eq]
  cases x with
  | error e => rfl
  | ok b =>
    cases y with
    | error e => rfl
    | ok e =>
      show Except.ok ("if " ++ c.text ++ ":\n" ++ indent 1 b ++ e.render) =
        Except.ok ("if " ++ c.text ++ ":" ++ "\n" ++ indent 1 b ++ e.render)
      simp [String.append_assoc]

theorem blockText_elif (t : String) (x y : Except RenderError String) :
    (blockText ("if " ++ t ++ ":") x y).map (Text.replaceFirst "if" "elif") =
      blockText ("elif " ++ t ++ ":") x y := by
  cases x with
  | error e => rfl
  | ok b =>
    cases y with
    | error e => rfl
    | ok r =>
      show Except.ok (Text.replaceFirst "if" "elif" ("if " ++ t ++ ":" ++ "\n" ++ indent 1 b ++ r))
        = Except.ok ("elif " ++ t ++ ":" ++ "\n" ++ indent 1 b ++ r)
      simp only [String.append_assoc, replaceFirst_if]

theorem elseText_elseIf (c : Condition) (body : List Statement) (o : Otherwise) :
    (Tree.elseText (.elseIf c body o)).map Tree.ElseText.render =
      blockText ("elif " ++ c.text ++ ":") (Tree.statementsText (Statement.listToTree body))
        ((Tree.elseText o).map Tree.ElseText.render) := by
  have htext : (Tree.elseText (.elseIf c body o)).map Tree.ElseText.render =
      (Statement.branch c body o).toTree.statementText.map (Text.replaceFirst "if" "elif") := by
    rw [Tree.elseText]
    cases (Statement.branch c body o).toTree.statementText <;> rfl
  rw [htext, Tree.statementText_branch, branchText_eq, blockText_elif]

theorem elseText_elseDo (s : Statement) (ss : List Statement) :
    (Tree.elseText (.elseDo (s :: ss))).map Tree.ElseText.render =
      blockText "else:" (Tree.statementsText (Statement.listToTree (s :: ss))) (.ok "") := by
  rw [Tree.elseText]
  cases Tree.statementsText (Statement.listToTree (s :: ss)) with
  | error e => rfl
  | ok b =>
    show Except.ok ("else:\n" ++ indent 1 b) = Except.ok ("else:" ++ "\n" ++ indent 1 b ++ "")
    simp

theorem whileText_eq (t : String) (x : Except RenderError String) :
    Tree.whileText (.ok t) x = blockText ("while " ++ t ++ ":") x (.ok "") := by
  cases x with
  | error e => rfl
  | ok b =>
    show Except.ok ("while " ++ t ++ ":\n" ++ indent 1 b) =
      Except.ok ("while " ++ t ++ ":" ++ "\n" ++ indent 1 b ++ "")
    simp [String.append_assoc]

/-! ## Heads of ranges -/

theorem exists_of_bind {ε α β : Type} {x : Except ε α} {f : α → Except ε β} {b : β}
    (h : x >>= f = .ok b) : ∃ a, x = .ok a ∧ f a = .ok b := by
  cases x with
  | error e => cases h
  | ok a => exact ⟨a, rfl, h⟩

theorem newline_not_mem_writeNumeral {n : Int} {t : String} (h : writeNumeral n = .ok t) :
    '\n' ∉ t.toList := by
  have hdigits : ∀ m : Nat, '\n' ∉ m.repr.toList := by
    intro m hm
    rw [Nat.toList_repr] at hm
    have hdigit := Nat.isDigit_of_mem_toDigits (by decide) (by decide) hm
    revert hdigit
    decide
  unfold writeNumeral at h
  split at h
  · cases h
  · cases h
    cases n with
    | ofNat m => exact hdigits m
    | negSucc m =>
      show '\n' ∉ ("-" ++ (m + 1).repr).toList
      rw [String.toList_append, List.mem_append]
      simp only [hdigits, or_false]
      decide

theorem newline_not_mem_intercalate {ts : List String} (h : ∀ t ∈ ts, '\n' ∉ t.toList) :
    '\n' ∉ (String.intercalate ", " ts).toList := by
  induction ts with
  | nil => simp
  | cons t ts ih =>
    have ht := h t (by simp)
    have hts := ih fun u hu => h u (by simp [hu])
    cases ts with
    | nil => simpa using ht
    | cons u ts =>
      rw [String.intercalate_cons_cons, String.toList_append, String.toList_append]
      simp only [List.mem_append, ht, hts, false_or, or_false]
      decide

theorem newline_not_mem_mapM {ns : List Int} {ts : List String}
    (h : ns.mapM writeNumeral = .ok ts) : ∀ t ∈ ts, '\n' ∉ t.toList := by
  induction ns generalizing ts with
  | nil =>
    cases h
    simp
  | cons n ns ih =>
    rw [List.mapM_cons] at h
    obtain ⟨u, hu, h⟩ := exists_of_bind h
    obtain ⟨us, hus, h⟩ := exists_of_bind h
    cases h
    intro t ht
    obtain rfl | ht := List.mem_cons.1 ht
    · exact newline_not_mem_writeNumeral hu
    · exact ih hus t ht

theorem newline_not_mem_commaSeparated {ns : List Int} {t : String}
    (h : commaSeparated ns = .ok t) : '\n' ∉ t.toList := by
  obtain ⟨ts, hts, h⟩ := exists_of_bind h
  cases h
  exact newline_not_mem_intercalate (newline_not_mem_mapM hts)

theorem Tree.Counting.head?_eq (l : Counting) : l.head? = l.arguments?.map
    (Option.map fun arguments => "for " ++ l.counter ++ " in range(" ++ arguments ++ "):\n") := by
  unfold Counting.head? Counting.arguments?
  cases readNumeral l.start.toList with
  | error e => rfl
  | ok start =>
    cases readNumeral l.bound.toList with
    | error e => rfl
    | ok bound =>
      show (match rangeArguments? l.operator l.delta start bound with
        | none => _
        | some ns => _) = Except.map _ (match rangeArguments? l.operator l.delta start bound with
        | none => _
        | some ns => _)
      cases rangeArguments? l.operator l.delta start bound with
      | none => rfl
      | some ns =>
        show (commaSeparated ns >>= _) = Except.map _ (commaSeparated ns >>= _)
        cases commaSeparated ns with
        | error e => rfl
        | ok arguments => rfl

theorem Tree.Counting.newline_not_mem_arguments? {l : Counting} {t : String}
    (h : l.arguments? = .ok (some t)) : '\n' ∉ t.toList := by
  obtain ⟨start, -, h⟩ := exists_of_bind h
  obtain ⟨bound, -, h⟩ := exists_of_bind h
  split at h
  · cases h
  · obtain ⟨u, hu, h⟩ := exists_of_bind h
    cases h
    exact newline_not_mem_commaSeparated hu

namespace Head

theorem counter_of_counting? {h : Head} {l : Counting} (hl : h.counting? = some l) :
    ∃ b, h.first = some b ∧ b.name = l.counter := by
  unfold counting? at hl
  split at hl
  · split at hl
    · cases hl
      exact ⟨_, rfl, rfl⟩
    · cases hl
  · cases hl

theorem rangeHead?_eq (h : Head) :
    h.rangeHead? = h.rangeLine?.map (Option.map (· ++ "\n")) := by
  unfold rangeHead? Tree.rangeHead? rangeLine?
  rw [counting?_toTree]
  show (match h.counting? with
    | none => Except.ok none
    | some l => l.head?.mapError RenderError.numeral) = _
  cases h.counting? with
  | none => rfl
  | some l =>
    simp only [Counting.head?_eq]
    cases l.arguments? with
    | error e => rfl
    | ok arguments =>
      cases arguments with
      | none => rfl
      | some a =>
        show Except.ok (some ("for " ++ l.counter ++ " in range(" ++ a ++ "):\n")) =
          Except.ok (some ("for " ++ l.counter ++ " in range(" ++ a ++ "):" ++ "\n"))
        simp [String.append_assoc]

/-- The parts of the line that heads the loop over a range. -/
theorem exists_of_rangeLine? {h : Head} {t : String} (ht : h.rangeLine? = .ok (some t)) :
    ∃ l arguments, h.counting? = some l ∧ l.arguments? = .ok (some arguments) ∧
      t = "for " ++ l.counter ++ " in range(" ++ arguments ++ "):" := by
  unfold rangeLine? at ht
  cases hl : h.counting? with
  | none =>
    rw [hl] at ht
    cases ht
  | some l =>
    cases ha : l.arguments? with
    | error e =>
      simp only [hl, ha] at ht
      cases ht
    | ok arguments =>
      cases arguments with
      | none =>
        simp only [hl, ha] at ht
        cases ht
      | some a =>
        simp only [hl, ha] at ht
        cases ht
        exact ⟨l, a, rfl, ha, rfl⟩

theorem rangeLine?_isLine {h : Head} (hf : ∀ b ∈ h.first, '\n' ∉ b.name.toList) {t : String}
    (ht : h.rangeLine? = .ok (some t)) : IsLine t := by
  obtain ⟨l, a, hl, ha, rfl⟩ := exists_of_rangeLine? ht
  obtain ⟨b, hb, hname⟩ := counter_of_counting? hl
  have hcounter : '\n' ∉ l.counter.toList := hname ▸ hf b hb
  have harguments := Counting.newline_not_mem_arguments? ha
  exact isLine_of_mem ':' (by simp) (by decide) (by simp [hcounter, harguments])

end Head

/-! ## Lines of a program -/

/-- Texts without line feeds. -/
def Flat (ts : List String) : Prop := ∀ t ∈ ts, '\n' ∉ t.toList

theorem Flat.left {as bs : List String} (h : Flat (as ++ bs)) : Flat as :=
  fun t ht => h t (List.mem_append_left bs ht)

theorem Flat.right {as bs : List String} (h : Flat (as ++ bs)) : Flat bs :=
  fun t ht => h t (List.mem_append_right as ht)

theorem newline_not_mem_connective (operator : String) : '\n' ∉ (connective operator).toList := by
  unfold connective
  split <;> decide

theorem newline_not_mem_text {c : Condition} (h : Flat c.texts) : '\n' ∉ c.text.toList := by
  induction c with
  | test left operator right =>
    have hleft := h left (by simp [Condition.texts])
    have hoperator := h operator (by simp [Condition.texts])
    have hright := h right (by simp [Condition.texts])
    unfold Condition.text
    split
    · exact hleft
    · simp [hleft, hoperator, hright]
  | join left operator right ihl ihr =>
    have hparts : Flat (left.texts ++ right.texts) := fun t ht => h t (List.mem_cons_of_mem _ ht)
    have hl := ihl hparts.left
    have hr := ihr hparts.right
    simp [Condition.text, hl, hr, newline_not_mem_connective]

theorem newline_not_mem_valueText {v : String} (h : '\n' ∉ v.toList) :
    '\n' ∉ (valueText v).toList := by
  unfold valueText
  split
  · decide
  · split
    · decide
    · split
      · rw [String.toList_ofList]
        exact fun hm => h (List.dropLast_subset _ hm)
      · exact h

theorem Binding.isLine {b : Binding} (h : Flat b.texts) : IsLine b.line := by
  have hname := h b.name (by simp [Binding.texts])
  have hvalue := newline_not_mem_valueText (h b.value (by simp [Binding.texts]))
  exact isLine_of_mem '=' (by simp [Binding.line]) (by decide)
    (by simp [Binding.line, hname, hvalue])

theorem Step.isLine {s : Step} (h : '\n' ∉ s.name.toList) : IsLine s.line := by
  unfold Step.line
  split
  · exact isLine_of_mem '=' (by simp) (by decide) (by simp [h])
  · exact isLine_of_mem '=' (by simp) (by decide) (by simp [h])

/-- The line that heads a block: a word, a text and a colon. -/
theorem isLine_head {w t : String} (hw : '\n' ∉ w.toList) (ht : '\n' ∉ t.toList) :
    IsLine (w ++ t ++ ":") :=
  isLine_of_mem ':' (by simp) (by decide) (by simp [hw, ht])

theorem statementText_print (argument : String) :
    (Statement.print argument).toTree.statementText =
      .ok ("print(" ++ argument ++ ")" ++ "\n") := by
  show Except.ok ("print(" ++ argument ++ ")\n") = _
  simp [String.append_assoc]

theorem statementText_step (s : Step) : s.toTree.statementText = .ok (s.line ++ "\n") := by
  have hone : writeNumeral 1 = .ok "1" := rfl
  obtain ⟨x, d⟩ := s
  cases d with
  | up =>
    show Tree.changeText x 1 = _
    rw [Tree.changeText, if_pos (by decide), hone]
    show Except.ok (x ++ " += " ++ "1" ++ "\n") = _
    simp [Step.line, String.append_assoc]
  | down =>
    show Tree.changeText x (-1) = _
    rw [Tree.changeText, if_neg (by decide), show ((-1 : Int).natAbs : Int) = 1 from rfl, hone]
    show Except.ok (x ++ " -= " ++ "1" ++ "\n") = _
    simp [Step.line, String.append_assoc]

/-! ## Counting loops -/

/-- A counting loop with the text `body`, given the line of its range, if there is one. -/
def countText (range : Except RenderError (Option String)) (first : Option Binding)
    (condition : Option Condition) (update : Option Step) (body : Except RenderError String) :
    Except RenderError String := do
  match ← range with
  | some head => blockText head body (.ok "")
  | none =>
    let rounds := do
      let b ← body
      return b ++ ((update.map Step.line).map (· ++ "\n")).getD ""
    let loop ← blockText ("while " ++ (condition.map Condition.text).getD "True" ++ ":") rounds
      (.ok "")
    return ((first.map Binding.line).map (· ++ "\n")).getD "" ++ loop

theorem forText_eq (range : Except RenderError (Option String)) (i c u : String)
    (x : Except RenderError String) :
    Tree.forText (range.map (Option.map (· ++ "\n"))) (.ok i) (.ok c) x (.ok u) = do
      match ← range with
      | some head => blockText head x (.ok "")
      | none =>
        let loop ← blockText ("while " ++ c ++ ":") (do let b ← x; return b ++ u) (.ok "")
        return i ++ loop := by
  cases range with
  | error e => rfl
  | ok head =>
    cases x with
    | error e => cases head <;> rfl
    | ok b =>
      cases head with
      | none =>
        show Except.ok (i ++ ("while " ++ c ++ ":\n" ++ indent 1 (b ++ u))) =
          Except.ok (i ++ ("while " ++ c ++ ":" ++ "\n" ++ indent 1 (b ++ u) ++ ""))
        simp [String.append_assoc]
      | some h =>
        show Except.ok (h ++ "\n" ++ indent 1 b) = Except.ok (h ++ "\n" ++ indent 1 b ++ "")
        simp

theorem statementText_count (first : Option Binding) (c : Option Condition)
    (update : Option Step) (body : List Statement) :
    (Statement.count first c update body).toTree.statementText =
      countText (Head.mk first c update).rangeLine? first c update
        (Tree.statementsText (Statement.listToTree body)) := by
  have hcondition : (if (optionTree Condition.toTree c).isAbsent then pure "True"
      else Tree.conditionText (optionTree Condition.toTree c)) =
        Except.ok ((c.map Condition.text).getD "True") := by
    cases c with
    | none => rfl
    | some c =>
      have hpresent : c.toTree.isAbsent = false := by cases c <;> rfl
      rw [optionTree, hpresent, conditionText_eq]
      rfl
  have hfirst : (if (optionTree Binding.toTree first).isAbsent then pure ""
      else Tree.statementText (optionTree Binding.toTree first)) =
        Except.ok (((first.map Binding.line).map (· ++ "\n")).getD "") := by
    cases first <;> rfl
  have hupdate : (if (optionTree Step.toTree update).isAbsent then pure ""
      else Tree.statementText (optionTree Step.toTree update)) =
        Except.ok (((update.map Step.line).map (· ++ "\n")).getD "") := by
    cases update with
    | none => rfl
    | some u => exact statementText_step u
  rw [Statement.toTree, Tree.statementText, hcondition, hfirst, hupdate, countText, ← forText_eq,
    ← Head.rangeHead?_eq]
  rfl

/-- A counting loop, if its body does: its first binding stands before its head, and the update
at the end of the body. -/
theorem Moves.count {first : Option Binding} {c : Option Condition} {update : Option Step}
    (hfirst : Flat (first.toList.flatMap Binding.texts))
    (hc : Flat (c.toList.flatMap Condition.texts)) (hupdate : Flat (update.toList.map Step.name))
    {x : Except RenderError String} {p : Nat → Except RenderError String} (hx : Moves x p) :
    Moves (countText (Head.mk first c update).rangeLine? first c update x) fun d => do
      match ← (Head.mk first c update).rangeLine? with
      | some head => printBlock d head (p (d + 1)) (.ok "")
      | none =>
        let rounds := do
          let b ← p (d + 1)
          return b ++ optionalLine (d + 1) (update.map Step.line)
        let loop ← printBlock d ("while " ++ (c.map Condition.text).getD "True" ++ ":")
          rounds (.ok "")
        return optionalLine d (first.map Binding.line) ++ loop := by
  cases hrange : (Head.mk first c update).rangeLine? with
  | error e =>
    intro d
    rfl
  | ok range =>
    cases range with
    | some head =>
      have hhead : IsLine head := by
        refine Head.rangeLine?_isLine (fun b hb => ?_) hrange
        obtain rfl : first = some b := hb
        exact hfirst b.name (by simp [Binding.texts])
      exact hx.block hhead Moves.empty
    | none =>
      have hhead : IsLine ("while " ++ (c.map Condition.text).getD "True" ++ ":") := by
        refine isLine_head (by decide) ?_
        cases c with
        | none => decide
        | some c => exact newline_not_mem_text (by simpa using hc)
      have hinit : ∀ l ∈ first.map Binding.line, IsLine l := by
        intro l hl
        obtain ⟨b, rfl, rfl⟩ := Option.map_eq_some_iff.1 hl
        exact Binding.isLine (by simpa using hfirst)
      have hlast : ∀ l ∈ update.map Step.line, IsLine l := by
        intro l hl
        obtain ⟨u, rfl, rfl⟩ := Option.map_eq_some_iff.1 hl
        exact Step.isLine (hupdate u.name (by simp))
      have hrounds := hx.append (Moves.optional hlast)
      exact (Moves.optional hinit).append (hrounds.block hhead Moves.empty)

/-! ## Statements -/

mutual

/-- A statement is printed at every depth as it stands, but indented. -/
theorem Statement.moves : ∀ s : Statement, Flat s.texts →
    Moves s.toTree.statementText fun d => s.printed d
  | .print argument, h => by
    have hargument := h argument (by simp [Statement.texts])
    have hline : IsLine ("print(" ++ argument ++ ")") :=
      isLine_of_mem ')' (by simp) (by decide) (by simp [hargument])
    rw [statementText_print]
    exact .line hline
  | .declare b, h => .line (Binding.isLine h)
  | .step s, h => by
    rw [Statement.toTree, statementText_step]
    exact .line (Step.isLine (h s.name (by simp [Statement.texts])))
  | .branch c body o, h => by
    rw [Tree.statementText_branch, branchText_eq]
    have hhead := isLine_head (w := "if ") (by decide) (newline_not_mem_text h.left)
    exact (Statement.list_moves body h.right.left).block hhead (o.moves h.right.right)
  | .repeatWhile c body, h => by
    rw [Statement.toTree, Tree.statementText, conditionText_eq, whileText_eq]
    have hhead := isLine_head (w := "while ") (by decide) (newline_not_mem_text h.left)
    exact (Statement.list_moves body h.right).block hhead .empty
  | .count first c update body, h => by
    rw [statementText_count]
    exact .count h.left h.right.left h.right.right.left
      (Statement.list_moves body h.right.right.right)

/-- Statements are printed at every depth as they stand, but indented. -/
theorem Statement.list_moves : ∀ ss : List Statement, Flat (Statement.listTexts ss) →
    Moves (Tree.statementsText (Statement.listToTree ss)) fun d => Statement.listPrinted d ss
  | [], _ => .empty
  | s :: ss, h => by
    rw [Statement.listToTree, Tree.statementsText]
    exact (s.moves h.left).append (Statement.list_moves ss h.right)

/-- What follows the body of a branch is printed at the depth of the branch. -/
theorem Otherwise.moves : ∀ o : Otherwise, Flat o.texts →
    Moves ((Tree.elseText o).map Tree.ElseText.render) fun d => o.printed d
  | .nothing, _ => .empty
  | .elseIf c body o, h => by
    rw [elseText_elseIf]
    have hhead := isLine_head (w := "elif ") (by decide) (newline_not_mem_text h.left)
    exact (Statement.list_moves body h.right.left).block hhead (o.moves h.right.right)
  | .elseDo [], _ => .empty
  | .elseDo (s :: ss), h => by
    rw [elseText_elseDo]
    have hhead : IsLine "else:" := isLine_of_mem ':' (by decide) (by decide) (by decide)
    exact (Statement.list_moves (s :: ss) h).block hhead .empty

end

/-- On a program whose texts have no line feeds, the printer that indents what it has printed
and the one that carries the depth agree. -/
theorem render_printed (p : Program) (h : ∀ t ∈ p.texts, '\n' ∉ t.toList) :
    p.render = p.printed := by
  have hmoves := Statement.list_moves p.body h
  rw [Statement.listToTree_eq_map] at hmoves
  exact hmoves.zero.symm

/-- Loops in the blocks of a branch, the second with its update at the end of its body. -/
theorem render_printed_nested :
    let p : Program := ⟨[.branch (.test "a" "" "") [.repeatWhile (.test "b" "" "") [.print "x"]]
      (.elseIf (.test "x" "==" "1")
        [.count (some ⟨"i", "0", "int"⟩) none (some ⟨"i", .up⟩) [.print "\x22if\x22"]] .nothing)]⟩
    (∀ t ∈ p.texts, '\n' ∉ t.toList) ∧ p.render = p.printed ∧ p.printed = .ok
      ("if a:\n" ++
       "    while b:\n" ++
       "        print(x)\n" ++
       "elif x == 1:\n" ++
       "    i = 0\n" ++
       "    while True:\n" ++
       "        print(\x22if\x22)\n" ++
       "        i += 1\n") :=
  ⟨by decide, render_printed _ (by decide), rfl⟩

end Offside
