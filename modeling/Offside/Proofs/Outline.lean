import Offside.Proofs.Indentation

/-!
# The lines of a program

A program is a list of lines, each with the depth it stands at and a mark if it heads a block
(`Program.outline`). The text of the program is these lines, written one after the other
(`Program.render_eq`), whatever they have in them: a text that was cut into lines before it
was indented needs no condition on its characters.

Below a head stands a line one level deeper. That is so for all heads of a program exactly if
its blocks are filled (`Program.blocked_outline`). An empty block after `else` does no harm, since
nothing is written for it, and the update of a counting loop fills the block that it is put in.
-/

namespace Offside

open Text (indent EndsLine indent_append)
open Offside.Tree (RenderError)

/-! ## Lines -/

/-- A line to be written. -/
structure Line where
  depth : Nat
  /-- The line heads a block. -/
  isHead : Bool
  text : String
deriving DecidableEq, Repr

namespace Line

/-- A line at the margin that heads no block. -/
def plain (text : String) : Line := ⟨0, false, text⟩

/-- A line at the margin that heads a block. -/
def head (text : String) : Line := ⟨0, true, text⟩

/-- The line, some levels deeper. -/
def sink (n : Nat) (l : Line) : Line := { l with depth := l.depth + n }

/-- The text of the line at its depth, with a line feed. -/
def write (l : Line) : String := indent l.depth (l.text ++ "\n")

theorem sink_sink (a b : Nat) (l : Line) : (l.sink a).sink b = l.sink (a + b) := by
  simp [sink, Nat.add_assoc]

theorem write_sink (n : Nat) (l : Line) : (l.sink n).write = indent n l.write := by
  simp [write, sink, indent, Text.indentChars_indentChars]

theorem endsLine_write (l : Line) : EndsLine l.write.toList :=
  endsLine_indent endsLine_line l.depth

/-- At the margin a line is written as it is. -/
theorem write_margin (isHead : Bool) (t : String) : (Line.mk 0 isHead t).write = t ++ "\n" := by
  simp [write, indent, Text.indentChars_zero]

end Line

/-- Lines, written one after the other. -/
def writeLines : List Line → String
  | [] => ""
  | l :: ls => l.write ++ writeLines ls

theorem writeLines_append (as bs : List Line) :
    writeLines (as ++ bs) = writeLines as ++ writeLines bs := by
  induction as with
  | nil => simp [writeLines]
  | cons l as ih => simp [writeLines, ih, String.append_assoc]

theorem writeLines_sink (n : Nat) (ls : List Line) :
    writeLines (ls.map (Line.sink n)) = indent n (writeLines ls) := by
  induction ls with
  | nil => exact (indent_empty n).symm
  | cons l ls ih =>
    rw [List.map_cons, writeLines, writeLines, indent_append n l.endsLine_write, ih, l.write_sink]

/-! ## Outlines -/

/-- The line of a text, where there is one. -/
def optionalLines (text : Option String) : List Line := (text.map Line.plain).toList

/-- A head, then a body one level deeper and what follows it. -/
def outlineBlock (head : String) (body rest : Except RenderError (List Line)) :
    Except RenderError (List Line) := do
  let b ← body
  let r ← rest
  return .head head :: (b.map (Line.sink 1) ++ r)

/-- A counting loop, given the line of its range, if there is one. -/
def outlineCount (range : Except RenderError (Option String)) (first : Option Binding)
    (condition : Option Condition) (update : Option Step)
    (body : Except RenderError (List Line)) : Except RenderError (List Line) := do
  match ← range with
  | some head => outlineBlock head body (.ok [])
  | none =>
    let rounds := do
      let b ← body
      return b ++ optionalLines (update.map Step.line)
    let loop ← outlineBlock ("while " ++ (condition.map Condition.text).getD "True" ++ ":") rounds
      (.ok [])
    return optionalLines (first.map Binding.line) ++ loop

mutual

/-- The lines of a statement. -/
def Statement.outline : Statement → Except RenderError (List Line)
  | .print argument => .ok [.plain ("print(" ++ argument ++ ")")]
  | .declare binding => .ok [.plain binding.line]
  | .step step => .ok [.plain step.line]
  | .branch condition body otherwise =>
    outlineBlock ("if " ++ condition.text ++ ":") (Statement.listOutline body) otherwise.outline
  | .repeatWhile condition body =>
    outlineBlock ("while " ++ condition.text ++ ":") (Statement.listOutline body) (.ok [])
  | .count first condition update body =>
    outlineCount (Head.mk first condition update).rangeLine? first condition update
      (Statement.listOutline body)

/-- The lines of statements, one after the other. -/
def Statement.listOutline : List Statement → Except RenderError (List Line)
  | [] => .ok []
  | s :: ss => do
    let l ← s.outline
    let ls ← Statement.listOutline ss
    return l ++ ls

/-- The lines after the body of a branch. An empty block after `else` is left out. -/
def Otherwise.outline : Otherwise → Except RenderError (List Line)
  | .nothing => .ok []
  | .elseIf condition body otherwise =>
    outlineBlock ("elif " ++ condition.text ++ ":") (Statement.listOutline body) otherwise.outline
  | .elseDo [] => .ok []
  | .elseDo (s :: ss) => outlineBlock "else:" (Statement.listOutline (s :: ss)) (.ok [])

end

/-- The lines of a program. -/
def Program.outline (p : Program) : Except RenderError (List Line) :=
  Statement.listOutline p.body

/-! ## Texts are lines, written -/

/-- The text is what the lines make; where there is no text, there are no lines for the same
reason. -/
def Writes (text : Except RenderError String) (ls : Except RenderError (List Line)) : Prop :=
  text = ls.map writeLines

namespace Writes

variable {x y : Except RenderError String} {a b : Except RenderError (List Line)}

theorem empty : Writes (.ok "") (.ok []) := rfl

theorem line (t : String) : Writes (.ok (t ++ "\n")) (.ok [.plain t]) := by
  show Except.ok (t ++ "\n") = Except.ok ((Line.plain t).write ++ "")
  rw [Line.plain, Line.write_margin, String.append_empty]

theorem optional (t : Option String) :
    Writes (.ok ((t.map (· ++ "\n")).getD "")) (.ok (optionalLines t)) := by
  cases t with
  | none => exact empty
  | some t => exact line t

theorem append (hx : Writes x a) (hy : Writes y b) :
    Writes (do let s ← x; let t ← y; return s ++ t)
      (do let ls ← a; let ks ← b; return ls ++ ks) := by
  unfold Writes at hx hy ⊢
  subst hx hy
  cases a with
  | error e => rfl
  | ok ls =>
    cases b with
    | error e => rfl
    | ok ks => exact congrArg Except.ok (writeLines_append ls ks).symm

theorem block (head : String) (hx : Writes x a) (hy : Writes y b) :
    Writes (blockText head x y) (outlineBlock head a b) := by
  unfold Writes at hx hy ⊢
  subst hx hy
  cases a with
  | error e => rfl
  | ok ls =>
    cases b with
    | error e => rfl
    | ok ks =>
      have hlines : writeLines (.head head :: (ls.map (Line.sink 1) ++ ks)) =
          head ++ "\n" ++ indent 1 (writeLines ls) ++ writeLines ks := by
        rw [writeLines, Line.head, Line.write_margin, writeLines_append, writeLines_sink]
        simp only [String.append_assoc]
      exact congrArg Except.ok hlines.symm

theorem count (range : Except RenderError (Option String)) (first : Option Binding)
    (c : Option Condition) (update : Option Step) (hx : Writes x a) :
    Writes (countText range first c update x) (outlineCount range first c update a) := by
  cases range with
  | error e => rfl
  | ok head =>
    cases head with
    | some head => exact hx.block head empty
    | none =>
      have hrounds := hx.append (optional (update.map Step.line))
      exact (optional (first.map Binding.line)).append (hrounds.block _ empty)

end Writes

mutual

/-- The text of a statement is its lines. -/
theorem Statement.writes : ∀ s : Statement, Writes s.toTree.statementText s.outline
  | .print argument => by
    rw [statementText_print]
    exact .line _
  | .declare b => .line b.line
  | .step s => by
    rw [Statement.toTree, statementText_step]
    exact .line s.line
  | .branch c body o => by
    rw [Tree.statementText_branch, branchText_eq]
    exact (Statement.list_writes body).block _ o.writes
  | .repeatWhile c body => by
    rw [Statement.toTree, Tree.statementText, conditionText_eq, whileText_eq]
    exact (Statement.list_writes body).block _ .empty
  | .count first c update body => by
    rw [statementText_count]
    exact .count _ first c update (Statement.list_writes body)

/-- The texts of statements are their lines. -/
theorem Statement.list_writes : ∀ ss : List Statement,
    Writes (Tree.statementsText (Statement.listToTree ss)) (Statement.listOutline ss)
  | [] => .empty
  | s :: ss => by
    rw [Statement.listToTree, Tree.statementsText]
    exact s.writes.append (Statement.list_writes ss)

/-- The text after the body of a branch is its lines. -/
theorem Otherwise.writes : ∀ o : Otherwise,
    Writes ((Tree.elseText o).map Tree.ElseText.render) o.outline
  | .nothing => .empty
  | .elseIf c body o => by
    rw [elseText_elseIf]
    exact (Statement.list_writes body).block _ o.writes
  | .elseDo [] => .empty
  | .elseDo (s :: ss) => by
    rw [elseText_elseDo]
    exact (Statement.list_writes (s :: ss)).block _ .empty

end

/-- A program is rendered as its lines. -/
theorem Program.render_eq (p : Program) : p.render = p.outline.map writeLines := by
  have hwrites := Statement.list_writes p.body
  rw [Statement.listToTree_eq_map] at hwrites
  exact hwrites

/-! ## Blocks -/

/-- Below every head stands a line one level deeper. -/
def blocked : List Line → Bool
  | [] => true
  | l :: ls => (!l.isHead || ls.head?.any (·.depth == l.depth + 1)) && blocked ls

/-- The loop is written over a range. -/
def Head.isRange (h : Head) : Bool :=
  match h.rangeLine? with
  | .ok (some _) => true
  | _ => false

mutual

/-- No block of the statement is empty. -/
def Statement.isFilled : Statement → Bool
  | .print _ => true
  | .declare _ => true
  | .step _ => true
  | .branch _ body otherwise =>
    !body.isEmpty && Statement.listFilled body && otherwise.isFilled
  | .repeatWhile _ body => !body.isEmpty && Statement.listFilled body
  | .count first condition update body =>
    -- a loop on its condition has its update in the block
    (!body.isEmpty || !(Head.mk first condition update).isRange && update.isSome) &&
      Statement.listFilled body

/-- No block of the statements is empty. -/
def Statement.listFilled : List Statement → Bool
  | [] => true
  | s :: ss => s.isFilled && Statement.listFilled ss

/-- No block after the body of a branch is empty, but for one after `else`. -/
def Otherwise.isFilled : Otherwise → Bool
  | .nothing => true
  | .elseIf _ body otherwise =>
    !body.isEmpty && Statement.listFilled body && otherwise.isFilled
  | .elseDo body => Statement.listFilled body

end

/-- No block of the program is empty. -/
def Program.isFilled (p : Program) : Bool := Statement.listFilled p.body

/-- Lines that start at the margin, if there are any. At every depth, and whatever lines that are
no deeper follow, their heads have what they need exactly if `filled`. -/
structure Nests (ls : List Line) (filled empty : Bool) : Prop where
  isEmpty : ls.isEmpty = empty
  start : ∀ l ∈ ls.head?, l.depth = 0
  blocked : ∀ (n : Nat) (ks : List Line), (∀ k ∈ ks.head?, k.depth ≤ n) →
    blocked (ls.map (Line.sink n) ++ ks) = (filled && blocked ks)

namespace Nests

variable {as bs : List Line} {f g e d : Bool}

/-- The lines are no deeper than the depth they are put at, and so is what follows. -/
theorem depth_le (h : Nests as f e) {n : Nat} {ks : List Line}
    (hk : ∀ k ∈ ks.head?, k.depth ≤ n) : ∀ k ∈ (as.map (Line.sink n) ++ ks).head?, k.depth ≤ n := by
  cases as with
  | nil => exact hk
  | cons l as =>
    intro k hmem
    cases hmem
    have hl := h.start l rfl
    simp [Line.sink, hl]

theorem nil : Nests [] true true := by
  constructor
  · rfl
  · intro l hl
    cases hl
  · intro n ks _
    rfl

theorem plain (t : String) : Nests [.plain t] true false := by
  constructor
  · rfl
  · intro l hl
    cases hl
    rfl
  · intro n ks _
    simp [Offside.blocked, Line.sink, Line.plain]

theorem optional (t : Option String) : Nests (optionalLines t) true t.isNone := by
  cases t with
  | none => exact nil
  | some t => exact plain t

theorem append (ha : Nests as f e) (hb : Nests bs g d) : Nests (as ++ bs) (f && g) (e && d) := by
  constructor
  · rw [← ha.isEmpty, ← hb.isEmpty]
    cases as <;> rfl
  · intro l hl
    cases as with
    | nil => exact hb.start l hl
    | cons a as => exact ha.start l hl
  · intro n ks hk
    rw [List.map_append, List.append_assoc, ha.blocked n _ (hb.depth_le hk), hb.blocked n ks hk,
      Bool.and_assoc]

/-- A head needs a body; what follows the body is no deeper than the head. -/
theorem block (head : String) (ha : Nests as f e) (hb : Nests bs g d) :
    Nests (.head head :: (as.map (Line.sink 1) ++ bs)) (!e && f && g) false := by
  constructor
  · rfl
  · intro l hl
    cases hl
    rfl
  · intro n ks hk
    have hbehind := hb.depth_le hk
    have hdeeper : ∀ k ∈ (bs.map (Line.sink n) ++ ks).head?, k.depth ≤ 1 + n := by
      intro k hmem
      have := hbehind k hmem
      omega
    have hbody : (as.map (Line.sink 1)).map (Line.sink n) = as.map (Line.sink (1 + n)) := by
      simp [Line.sink_sink]
    have hfirst : (as.map (Line.sink (1 + n)) ++ (bs.map (Line.sink n) ++ ks)).head?.any
        (·.depth == n + 1) = !e := by
      rw [← ha.isEmpty]
      cases as with
      | nil =>
        -- the line below the head is no deeper than the head
        cases hnext : (bs.map (Line.sink n) ++ ks).head? with
        | none => simp [hnext]
        | some k =>
          have hle := hbehind k hnext
          have hne : k.depth ≠ n + 1 := by omega
          simp [hnext, hne]
      | cons a as =>
        have hmargin := ha.start a rfl
        simp [Line.sink, hmargin, Nat.add_comm]
    have hrest := ha.blocked (1 + n) _ hdeeper
    rw [hb.blocked n ks hk] at hrest
    rw [List.map_cons, List.map_append, hbody, List.cons_append, List.append_assoc,
      Offside.blocked, hrest]
    have hsunk : ((Line.head head).sink n).depth = n := by simp [Line.head, Line.sink]
    rw [hsunk, hfirst]
    simp [Line.head, Line.sink, Bool.and_assoc]

end Nests

/-- The same of lines that there may be none of, since a line could not be written. -/
def Nested (ls : Except RenderError (List Line)) (filled empty : Bool) : Prop :=
  ∀ l, ls = .ok l → Nests l filled empty

namespace Nested

variable {a b : Except RenderError (List Line)} {f g e d : Bool}

theorem ok {ls : List Line} (h : Nests ls f e) : Nested (.ok ls) f e := by
  intro l hl
  cases hl
  exact h

theorem append (ha : Nested a f e) (hb : Nested b g d) :
    Nested (do let ls ← a; let ks ← b; return ls ++ ks) (f && g) (e && d) := by
  intro l hl
  obtain ⟨ls, hls, hl⟩ := exists_of_bind hl
  obtain ⟨ks, hks, hl⟩ := exists_of_bind hl
  cases hl
  exact (ha ls hls).append (hb ks hks)

theorem block (head : String) (ha : Nested a f e) (hb : Nested b g d) :
    Nested (outlineBlock head a b) (!e && f && g) false := by
  intro l hl
  obtain ⟨ls, hls, hl⟩ := exists_of_bind hl
  obtain ⟨ks, hks, hl⟩ := exists_of_bind hl
  cases hl
  exact (ha ls hls).block head (hb ks hks)

theorem count (first : Option Binding) (c : Option Condition) (update : Option Step)
    (ha : Nested a f e) :
    Nested (outlineCount (Head.mk first c update).rangeLine? first c update a)
      ((!e || !(Head.mk first c update).isRange && update.isSome) && f) false := by
  unfold Head.isRange
  cases (Head.mk first c update).rangeLine? with
  | error _ =>
    intro l hl
    cases hl
  | ok range =>
    cases range with
    | some head =>
      have hloop := ha.block head (ok .nil)
      rw [Bool.and_true] at hloop
      show Nested (outlineBlock head a (.ok [])) ((!e || false) && f) false
      rwa [Bool.or_false]
    | none =>
      have hrounds := ha.append (ok (.optional (update.map Step.line)))
      have hloop := hrounds.block ("while " ++ (c.map Condition.text).getD "True" ++ ":") (ok .nil)
      have hall := (ok (.optional (first.map Binding.line))).append hloop
      have hfilled : (true && (!(e && (update.map Step.line).isNone) && (f && true) && true)) =
          ((!e || true && update.isSome) && f) := by
        cases update <;> simp
      rw [hfilled, Bool.and_false] at hall
      exact hall

end Nested

mutual

/-- The heads of a statement have what they need exactly if its blocks are filled. -/
theorem Statement.nested : ∀ s : Statement, Nested s.outline s.isFilled false
  | .print _ => .ok (.plain _)
  | .declare _ => .ok (.plain _)
  | .step _ => .ok (.plain _)
  | .branch c body o => by
    obtain ⟨e, ho⟩ := o.nested
    exact (Statement.list_nested body).block _ ho
  | .repeatWhile c body => by
    have hloop := (Statement.list_nested body).block ("while " ++ c.text ++ ":") (.ok .nil)
    rwa [Bool.and_true] at hloop
  | .count first c update body => .count first c update (Statement.list_nested body)

/-- The heads of statements have what they need exactly if their blocks are filled. -/
theorem Statement.list_nested : ∀ ss : List Statement,
    Nested (Statement.listOutline ss) (Statement.listFilled ss) ss.isEmpty
  | [] => .ok .nil
  | s :: ss => s.nested.append (Statement.list_nested ss)

/-- The heads after the body of a branch have what they need exactly if their blocks are
filled. -/
theorem Otherwise.nested : ∀ o : Otherwise, ∃ e, Nested o.outline o.isFilled e
  | .nothing => ⟨true, .ok .nil⟩
  | .elseIf c body o => by
    obtain ⟨e, ho⟩ := o.nested
    exact ⟨false, (Statement.list_nested body).block _ ho⟩
  | .elseDo [] => ⟨true, .ok .nil⟩
  | .elseDo (s :: ss) => by
    have hblock := (Statement.list_nested (s :: ss)).block "else:" (.ok .nil)
    rw [List.isEmpty_cons, Bool.not_false, Bool.true_and, Bool.and_true] at hblock
    exact ⟨false, hblock⟩

end

/-- Below every head of a program stands a line one level deeper exactly if no block is empty. -/
theorem Program.blocked_outline {p : Program} {ls : List Line} (h : p.outline = .ok ls) :
    blocked ls = p.isFilled := by
  have hnests := (Statement.list_nested p.body ls h).blocked 0 [] (by simp)
  have hsame : ls.map (Line.sink 0) = ls := List.map_id ls
  rwa [hsame, List.append_nil, blocked, Bool.and_true] at hnests

end Offside
