import Offside.Proofs.OwnCounter
import Offside.Proofs.Values

/-!
# What becomes of truth literals

A truth literal can stand in four places of a program: as the value of a declaration, as the first
value of a counting loop, as a whole condition, and on the right side of a comparison (`Role`). To
see where each of them comes out, lines are cut into fragments, and those that come from such a
place are marked (`Program.marked`); put together again they are the lines of the program.

Values that are assigned are capitalised if they are truth literals, but conditions are written as
they were read. `convert_truth_literals` says so of every literal of a source that gets into its
program: none is lost, each comes out where its leaf is, and all of them are capitalised exactly if
none stands in a condition. A loop that is written over a range drops its first value and its
condition, but these are numbers.
-/

namespace Offside

open Offside.Tree (RenderError valueText connective)
open Lexeme (sign name eof)

/-! ## Leaves -/

/-- The places of a program where a truth literal may stand. -/
inductive Role where
  /-- The value of a declaration. -/
  | value
  /-- The first value of a counting loop. -/
  | first
  /-- A whole condition. -/
  | whole
  /-- The right side of a comparison. -/
  | right
deriving DecidableEq, Repr

/-- The place is that of a value that is assigned. -/
def Role.isAssigned : Role → Bool
  | value => true
  | first => true
  | whole => false
  | right => false

/-- What a program has in such a place. -/
structure Leaf where
  role : Role
  text : String
deriving DecidableEq, Repr

/-- The text that is written for a leaf. -/
def Leaf.write (l : Leaf) : String := if l.role.isAssigned then valueText l.text else l.text

/-- The leaf is spelled like a truth literal. -/
def Leaf.isTruth (l : Leaf) : Bool := l.text == "true" || l.text == "false"

theorem Leaf.isTruth_iff {l : Leaf} : l.isTruth = true ↔ l.text = "true" ∨ l.text = "false" := by
  rw [isTruth, Bool.or_eq_true, beq_iff_eq, beq_iff_eq]

/-- The leaves of a condition. -/
def Condition.leaves : Condition → List Leaf
  | test left operator right => if operator = "" then [⟨.whole, left⟩] else [⟨.right, right⟩]
  | join left _ right => left.leaves ++ right.leaves

/-- The leaf of a binding. -/
def Binding.leaf (role : Role) (b : Binding) : Leaf := ⟨role, b.value⟩

/-- The leaves in the head of a counting loop. -/
def headLeaves (first : Option Binding) (condition : Option Condition) : List Leaf :=
  (first.map (Binding.leaf .first)).toList ++ (condition.map Condition.leaves).getD []

mutual

/-- The leaves of a statement, in the order in which they are read. -/
def Statement.leaves : Statement → List Leaf
  | .print _ => []
  | .declare binding => [binding.leaf .value]
  | .step _ => []
  | .branch condition body otherwise =>
    condition.leaves ++ (Statement.listLeaves body ++ otherwise.leaves)
  | .repeatWhile condition body => condition.leaves ++ Statement.listLeaves body
  | .count first condition _ body => headLeaves first condition ++ Statement.listLeaves body

/-- The leaves of statements. -/
def Statement.listLeaves : List Statement → List Leaf
  | [] => []
  | s :: ss => s.leaves ++ Statement.listLeaves ss

/-- The leaves after the body of a branch. -/
def Otherwise.leaves : Otherwise → List Leaf
  | .nothing => []
  | .elseIf condition body otherwise =>
    condition.leaves ++ (Statement.listLeaves body ++ otherwise.leaves)
  | .elseDo body => Statement.listLeaves body

end

/-- The leaves of a program. -/
def Program.leaves (p : Program) : List Leaf := Statement.listLeaves p.body

/-! ## Lines in fragments -/

/-- A fragment of a line. -/
inductive Fragment where
  | plain (text : String)
  | leaf (leaf : Leaf)
deriving DecidableEq, Repr

/-- The text of a fragment. -/
def Fragment.write : Fragment → String
  | plain text => text
  | leaf l => l.write

/-- The leaf of a fragment, if it is one. -/
def Fragment.leaves : Fragment → List Leaf
  | plain _ => []
  | leaf l => [l]

/-- Fragments, put together. -/
def joinFragments : List Fragment → String
  | [] => ""
  | f :: fs => f.write ++ joinFragments fs

theorem joinFragments_append (fs gs : List Fragment) :
    joinFragments (fs ++ gs) = joinFragments fs ++ joinFragments gs := by
  induction fs with
  | nil => simp [joinFragments]
  | cons f fs ih => simp [joinFragments, ih, String.append_assoc]

/-- A line in fragments. -/
structure MarkedLine where
  depth : Nat
  isHead : Bool
  fragments : List Fragment
deriving DecidableEq, Repr

namespace MarkedLine

/-- A line at the margin that heads no block. -/
def plain (fs : List Fragment) : MarkedLine := ⟨0, false, fs⟩

/-- A line at the margin that heads a block. -/
def head (fs : List Fragment) : MarkedLine := ⟨0, true, fs⟩

/-- The line, one level deeper. -/
def sink (m : MarkedLine) : MarkedLine := { m with depth := m.depth + 1 }

/-- The line, put together. -/
def line (m : MarkedLine) : Line := ⟨m.depth, m.isHead, joinFragments m.fragments⟩

/-- The leaves of the line. -/
def leaves (m : MarkedLine) : List Leaf := m.fragments.flatMap Fragment.leaves

@[simp] theorem leaves_sink (m : MarkedLine) : m.sink.leaves = m.leaves := rfl

end MarkedLine

/-- The fragments of a condition. -/
def Condition.fragments : Condition → List Fragment
  | test left operator right =>
    if operator = "" then [.leaf ⟨.whole, left⟩]
    else [.plain (left ++ " " ++ operator ++ " "), .leaf ⟨.right, right⟩]
  | join left operator right =>
    .plain "(" :: (left.fragments ++ .plain (") " ++ connective operator ++ " (") ::
      (right.fragments ++ [.plain ")"]))

/-- The fragments of the line of a binding. -/
def Binding.fragments (role : Role) (b : Binding) : List Fragment :=
  [.plain (b.name ++ " = "), .leaf (b.leaf role)]

/-- A word, a condition and a colon. -/
def headFragments (word : String) (condition : List Fragment) : List Fragment :=
  .plain word :: (condition ++ [.plain ":"])

/-- The line of some fragments, where there are any. -/
def optionalMarked (fs : Option (List Fragment)) : List MarkedLine := (fs.map .plain).toList

/-- A head, then a body one level deeper and what follows it. -/
def markBlock (head : List Fragment) (body rest : Except RenderError (List MarkedLine)) :
    Except RenderError (List MarkedLine) := do
  let b ← body
  let r ← rest
  return .head head :: (b.map MarkedLine.sink ++ r)

/-- A counting loop, given the line of its range, if there is one. -/
def markCount (range : Except RenderError (Option String)) (first : Option Binding)
    (condition : Option Condition) (update : Option Step)
    (body : Except RenderError (List MarkedLine)) : Except RenderError (List MarkedLine) := do
  match ← range with
  | some head => markBlock [.plain head] body (.ok [])
  | none =>
    let rounds := do
      let b ← body
      return b ++ optionalMarked (update.map fun u => [.plain u.line])
    let loop ← markBlock
      (headFragments "while " ((condition.map Condition.fragments).getD [.plain "True"])) rounds
      (.ok [])
    return optionalMarked (first.map (Binding.fragments .first)) ++ loop

mutual

/-- The lines of a statement, in fragments. -/
def Statement.marked : Statement → Except RenderError (List MarkedLine)
  | .print argument => .ok [.plain [.plain ("print(" ++ argument ++ ")")]]
  | .declare binding => .ok [.plain (binding.fragments .value)]
  | .step step => .ok [.plain [.plain step.line]]
  | .branch condition body otherwise =>
    markBlock (headFragments "if " condition.fragments) (Statement.listMarked body)
      otherwise.marked
  | .repeatWhile condition body =>
    markBlock (headFragments "while " condition.fragments) (Statement.listMarked body) (.ok [])
  | .count first condition update body =>
    markCount (Head.mk first condition update).rangeLine? first condition update
      (Statement.listMarked body)

/-- The lines of statements, in fragments. -/
def Statement.listMarked : List Statement → Except RenderError (List MarkedLine)
  | [] => .ok []
  | s :: ss => do
    let l ← s.marked
    let ls ← Statement.listMarked ss
    return l ++ ls

/-- The lines after the body of a branch, in fragments. -/
def Otherwise.marked : Otherwise → Except RenderError (List MarkedLine)
  | .nothing => .ok []
  | .elseIf condition body otherwise =>
    markBlock (headFragments "elif " condition.fragments) (Statement.listMarked body)
      otherwise.marked
  | .elseDo [] => .ok []
  | .elseDo (s :: ss) => markBlock [.plain "else:"] (Statement.listMarked (s :: ss)) (.ok [])

end

/-- The lines of a program, in fragments. -/
def Program.marked (p : Program) : Except RenderError (List MarkedLine) :=
  Statement.listMarked p.body

/-! ## Fragments are the lines, with the leaves in them -/

theorem joinFragments_condition (c : Condition) : joinFragments c.fragments = c.text := by
  induction c with
  | test left operator right =>
    unfold Condition.fragments Condition.text
    split
    · simp [joinFragments, Fragment.write, Leaf.write, Role.isAssigned]
    · simp [joinFragments, Fragment.write, Leaf.write, Role.isAssigned]
  | join left operator right ihl ihr =>
    simp only [Condition.fragments, Condition.text, joinFragments, joinFragments_append,
      Fragment.write, ihl, ihr, String.append_assoc, String.append_empty]

theorem leaves_condition (c : Condition) : c.fragments.flatMap Fragment.leaves = c.leaves := by
  induction c with
  | test left operator right =>
    unfold Condition.fragments Condition.leaves
    split
    · rfl
    · rfl
  | join left operator right ihl ihr =>
    simp [Condition.fragments, Condition.leaves, Fragment.leaves, ihl, ihr]

theorem joinFragments_head (word : String) {fs : List Fragment} {t : String}
    (h : joinFragments fs = t) : joinFragments (headFragments word fs) = word ++ t ++ ":" := by
  simp [headFragments, joinFragments, joinFragments_append, Fragment.write, h, String.append_assoc]

theorem leaves_head (word : String) (fs : List Fragment) :
    (headFragments word fs).flatMap Fragment.leaves = fs.flatMap Fragment.leaves := by
  simp [headFragments, Fragment.leaves]

theorem joinFragments_binding (role : Role) (hr : role.isAssigned = true) (b : Binding) :
    joinFragments (b.fragments role) = b.line := by
  simp [Binding.fragments, joinFragments, Fragment.write, Leaf.write, Binding.leaf, Binding.line,
    hr]

/-- The marked lines are these lines, if there are any, and the truth literals among their leaves
are those among the given ones. -/
structure Marks (m : Except RenderError (List MarkedLine)) (o : Except RenderError (List Line))
    (ls : List Leaf) : Prop where
  lines : o = m.map (List.map MarkedLine.line)
  truths : ∀ ms, m = .ok ms →
    (ms.flatMap MarkedLine.leaves).filter Leaf.isTruth = ls.filter Leaf.isTruth

namespace Marks

variable {m n : Except RenderError (List MarkedLine)} {o w : Except RenderError (List Line)}
  {ls ks : List Leaf}

theorem nil : Marks (.ok []) (.ok []) [] where
  lines := rfl
  truths ms h := by
    cases h
    rfl

theorem single {fs : List Fragment} {t : String} (ht : joinFragments fs = t) :
    Marks (.ok [.plain fs]) (.ok [.plain t]) (fs.flatMap Fragment.leaves) where
  lines := by
    subst ht
    rfl
  truths ms h := by
    cases h
    simp [MarkedLine.plain, MarkedLine.leaves]

theorem optional {fs : Option (List Fragment)} {t : Option String}
    (ht : fs.map joinFragments = t) :
    Marks (.ok (optionalMarked fs)) (.ok (optionalLines t))
      ((fs.map (List.flatMap Fragment.leaves)).getD []) := by
  subst ht
  cases fs with
  | none => exact nil
  | some fs => exact single rfl

/-- Where there are lines, they are marked. -/
theorem exists_of_ok (h : Marks m o ls) {l : List Line} (hl : o = .ok l) :
    ∃ ms, m = .ok ms ∧ l = ms.map MarkedLine.line := by
  rw [h.lines] at hl
  cases m with
  | error e => cases hl
  | ok ms =>
    cases hl
    exact ⟨ms, rfl, rfl⟩

theorem append (hm : Marks m o ls) (hn : Marks n w ks) :
    Marks (do let a ← m; let b ← n; return a ++ b) (do let a ← o; let b ← w; return a ++ b)
      (ls ++ ks) where
  lines := by
    rw [hm.lines, hn.lines]
    cases m with
    | error e => rfl
    | ok a =>
      cases n with
      | error e => rfl
      | ok b => exact congrArg Except.ok (List.map_append).symm
  truths ms h := by
    obtain ⟨a, ha, h⟩ := exists_of_bind h
    obtain ⟨b, hb, h⟩ := exists_of_bind h
    cases h
    rw [List.flatMap_append, List.filter_append, List.filter_append, hm.truths a ha,
      hn.truths b hb]

theorem block {fs : List Fragment} {head : String} (hf : joinFragments fs = head)
    (hm : Marks m o ls) (hn : Marks n w ks) :
    Marks (markBlock fs m n) (outlineBlock head o w)
      (fs.flatMap Fragment.leaves ++ (ls ++ ks)) where
  lines := by
    rw [hm.lines, hn.lines]
    subst hf
    cases m with
    | error e => rfl
    | ok a =>
      cases n with
      | error e => rfl
      | ok b =>
        refine congrArg Except.ok ?_
        simp only [List.map_cons, List.map_append, List.map_map]
        rfl
  truths ms h := by
    obtain ⟨a, ha, h⟩ := exists_of_bind h
    obtain ⟨b, hb, h⟩ := exists_of_bind h
    cases h
    have hbody : (a.map MarkedLine.sink).flatMap MarkedLine.leaves =
        a.flatMap MarkedLine.leaves := by simp [List.flatMap_map]
    rw [List.flatMap_cons, List.flatMap_append, hbody]
    simp only [List.filter_append, hm.truths a ha, hn.truths b hb]
    rfl

/-- A block below a condition. -/
theorem guarded (word : String) (c : Condition) (hm : Marks m o ls) (hn : Marks n w ks) :
    Marks (markBlock (headFragments word c.fragments) m n)
      (outlineBlock (word ++ c.text ++ ":") o w) (c.leaves ++ (ls ++ ks)) := by
  have hblock := block (joinFragments_head word (joinFragments_condition c)) hm hn
  rwa [leaves_head, leaves_condition] at hblock

/-- A block below a head without a leaf, with nothing behind it. -/
theorem plainBlock (head : String) (hm : Marks m o ls) :
    Marks (markBlock [.plain head] m (.ok [])) (outlineBlock head o (.ok [])) ls := by
  have hhead : joinFragments [.plain head] = head := String.append_empty
  have hblock := block hhead hm nil
  rwa [List.append_nil] at hblock

end Marks

theorem not_isTruth_of_isDigitText {t : String} (h : Text.isDigitText t.toList = true)
    (role : Role) : ¬ (Leaf.mk role t).isTruth = true := by
  rw [Leaf.isTruth_iff]
  intro ht
  obtain rfl | rfl := ht
  · exact absurd h (by decide)
  · exact absurd h (by decide)

theorem operator_of_arguments? {l : Tree.Counting} {arguments : String}
    (h : l.arguments? = .ok (some arguments)) : l.operator ≠ "" := by
  intro he
  obtain ⟨a, -, h⟩ := exists_of_bind h
  obtain ⟨b, -, h⟩ := exists_of_bind h
  have hnone : Tree.rangeArguments? "" l.delta a b = none := by simp [Tree.rangeArguments?]
  rw [he, hnone] at h
  cases h

/-- A loop over a range has only numbers in its head. -/
theorem headLeaves_of_rangeLine? {first : Option Binding} {c : Option Condition}
    {update : Option Step} {head : String}
    (h : (Head.mk first c update).rangeLine? = .ok (some head)) :
    (headLeaves first c).filter Leaf.isTruth = [] := by
  obtain ⟨l, arguments, hl, harguments, -⟩ := Head.exists_of_rangeLine? h
  obtain ⟨typeName, u, hfirst, hcondition, -, -, hstart, hbound⟩ := Head.parts_of_counting? hl
  have hoperator := operator_of_arguments? harguments
  have hleaves : headLeaves first c = [⟨.first, l.start⟩, ⟨.right, l.bound⟩] := by
    rw [show first = _ from hfirst, show c = _ from hcondition]
    simp [headLeaves, Binding.leaf, Condition.leaves, hoperator]
  rw [hleaves, List.filter_cons_of_neg (not_isTruth_of_isDigitText hstart .first),
    List.filter_cons_of_neg (not_isTruth_of_isDigitText hbound .right)]
  rfl

/-- A counting loop keeps its truth literals, whether it is written over a range or not. -/
theorem Marks.count {m : Except RenderError (List MarkedLine)}
    {o : Except RenderError (List Line)} {ls : List Leaf} (hm : Marks m o ls)
    (first : Option Binding) (c : Option Condition) (update : Option Step) :
    Marks (markCount (Head.mk first c update).rangeLine? first c update m)
      (outlineCount (Head.mk first c update).rangeLine? first c update o)
      (headLeaves first c ++ ls) := by
  cases hrange : (Head.mk first c update).rangeLine? with
  | error e => exact ⟨rfl, fun ms h => by cases h⟩
  | ok range =>
    cases range with
    | some head =>
      -- the head is dropped, and no literal with it
      have hloop := hm.plainBlock head
      refine ⟨hloop.lines, fun ms h => ?_⟩
      rw [hloop.truths ms h, List.filter_append, headLeaves_of_rangeLine? hrange, List.nil_append]
    | none =>
      have hupdate : (update.map fun u => [Fragment.plain u.line]).map joinFragments =
          update.map Step.line := by
        cases update with
        | none => rfl
        | some u => exact congrArg some String.append_empty
      have hfirst : (first.map (Binding.fragments .first)).map joinFragments =
          first.map Binding.line := by
        cases first with
        | none => rfl
        | some b => exact congrArg some (joinFragments_binding .first rfl b)
      have hhead : joinFragments ((c.map Condition.fragments).getD [.plain "True"]) =
          (c.map Condition.text).getD "True" := by
        cases c with
        | none => exact String.append_empty
        | some c => exact joinFragments_condition c
      have hloop := (optional hfirst).append
        ((hm.append (optional hupdate)).block (joinFragments_head "while " hhead) nil)
      have hnone : ((update.map fun u => [Fragment.plain u.line]).map
          (List.flatMap Fragment.leaves)).getD [] = [] := by cases update <;> rfl
      have hvalue : ((first.map (Binding.fragments .first)).map
          (List.flatMap Fragment.leaves)).getD [] = (first.map (Binding.leaf .first)).toList := by
        cases first <;> rfl
      have htest : ((c.map Condition.fragments).getD [.plain "True"]).flatMap Fragment.leaves =
          (c.map Condition.leaves).getD [] := by
        cases c with
        | none => rfl
        | some c => exact leaves_condition c
      rw [hnone, hvalue, leaves_head, htest, List.append_nil, List.append_nil,
        ← List.append_assoc] at hloop
      exact hloop

mutual

theorem Statement.marks : ∀ s : Statement, Marks s.marked s.outline s.leaves
  | .print argument => .single String.append_empty
  | .declare b => .single (joinFragments_binding .value rfl b)
  | .step step => .single String.append_empty
  | .branch c body o => .guarded "if " c (Statement.list_marks body) o.marks
  | .repeatWhile c body => by
    have hblock := Marks.guarded "while " c (Statement.list_marks body) .nil
    rwa [List.append_nil] at hblock
  | .count first c update body => (Statement.list_marks body).count first c update

theorem Statement.list_marks : ∀ ss : List Statement,
    Marks (Statement.listMarked ss) (Statement.listOutline ss) (Statement.listLeaves ss)
  | [] => .nil
  | s :: ss => s.marks.append (Statement.list_marks ss)

theorem Otherwise.marks : ∀ o : Otherwise, Marks o.marked o.outline o.leaves
  | .nothing => .nil
  | .elseIf c body o => .guarded "elif " c (Statement.list_marks body) o.marks
  | .elseDo [] => .nil
  | .elseDo (s :: ss) => (Statement.list_marks (s :: ss)).plainBlock "else:"

end

/-! ## Literals of a source -/

/-- A truth literal among the lexemes, and where it is in the program. -/
structure Site where
  role : Role
  literal : Lexeme
  isTruth : literal.kind ∈ Kind.truths

/-- What the program has for the literal. -/
def Site.leaf (x : Site) : Leaf := ⟨x.role, x.literal.text⟩

/-- The truth literals among the leaves are those of some lexemes, in order. -/
def Sites (ls : List Leaf) (us : List Lexeme) : Prop :=
  ∃ sites : List Site, ls.filter Leaf.isTruth = sites.map Site.leaf ∧
    (sites.map Site.literal).Sublist us

namespace Sites

variable {ls ks : List Leaf} {us vs : List Lexeme}

theorem nil (us : List Lexeme) : Sites [] us := ⟨[], rfl, List.nil_sublist us⟩

theorem append (hl : Sites ls us) (hk : Sites ks vs) : Sites (ls ++ ks) (us ++ vs) := by
  obtain ⟨xs, hxs, hus⟩ := hl
  obtain ⟨ys, hys, hvs⟩ := hk
  refine ⟨xs ++ ys, ?_, ?_⟩
  · rw [List.filter_append, hxs, hys, List.map_append]
  · rw [List.map_append]
    exact hus.append hvs

theorem mono (h : Sites ls us) (hu : us.Sublist vs) : Sites ls vs := by
  obtain ⟨xs, hxs, hus⟩ := h
  exact ⟨xs, hxs, hus.trans hu⟩

theorem cons (h : Sites ls us) (l : Lexeme) : Sites ls (l :: us) :=
  h.mono (List.sublist_cons_self l us)

theorem braced (h : Sites ls us) : Sites ls (braced us) :=
  h.mono (infix_braced us).sublist

/-- A condition between parentheses and a body between braces. -/
theorem guarded (hk : Sites ks us) (hl : Sites ls vs) : Sites (ks ++ ls) (guarded us vs) :=
  (hk.append (hl.braced.cons _)).cons _

end Sites

/-- A lexeme that is spelled like a truth literal is one, unless it is an identifier. -/
theorem Kind.Language.mem_truths {k : Kind} {t : String} (h : k.Language t.toList)
    (ht : t = "true" ∨ t = "false") (hn : k ≠ .identifier) : k ∈ Kind.truths := by
  have hkinds : ∀ k ∈ Kind.all, k.spelling? = some "true" ∨ k.spelling? = some "false" →
      k ∈ Kind.truths := by decide
  have hstart : ∃ c cs, t.toList = c :: cs ∧ (c = 't' ∨ c = 'f') := by
    obtain rfl | rfl := ht
    · exact ⟨'t', _, rfl, .inl rfl⟩
    · exact ⟨'f', _, rfl, .inr rfl⟩
  obtain ⟨c, cs, hchars, hc⟩ := hstart
  have hnumeral : ∀ {u v : List Char}, Numeral u → u ++ v ≠ c :: cs := by
    intro u v hu he
    obtain ⟨d, ds, rfl, ht, hf⟩ := hu.start
    cases he
    exact hc.elim ht hf
  unfold Kind.Language at h
  split at h
  · obtain ⟨body, -, he⟩ := h
    rw [hchars] at he
    cases he
    exact absurd hc (by decide)
  · obtain ⟨body, -, he⟩ := h
    rw [hchars] at he
    cases he
    exact absurd hc (by decide)
  · exact absurd rfl hn
  · exact absurd ((List.append_nil _).trans hchars) (hnumeral h)
  · obtain ⟨ds, suffix, hds, -, he⟩ := h
    exact absurd (he.symm.trans hchars) (hnumeral hds)
  · rw [String.ofList_toList] at h
    apply hkinds _ (Kind.mem_all_of_spelling? h)
    obtain rfl | rfl := ht
    · exact .inl h
    · exact .inr h

theorem Kind.text_of_mem_truths {k : Kind} (hk : k ∈ Kind.truths) {t : String}
    (h : k.Language t.toList) : t = "true" ∨ t = "false" := by
  simp only [Kind.truths, List.mem_cons, List.not_mem_nil, or_false] at hk
  obtain rfl | rfl := hk
  · exact .inl (h.eq_spelling rfl)
  · exact .inr (h.eq_spelling rfl)

/-- Lexemes as a scan leaves them. -/
structure Scanned (all : List Lexeme) : Prop where
  language : ∀ l ∈ all, l.kind ≠ .eof → l.kind.Language l.text.toList
  apart : ∀ x l y, [x, l, y] <:+: all → x.kind ∉ Kind.numerals → y.kind ∉ Kind.numerals →
    l.kind = .identifier → ¬ l.LooksReserved

/-- The leaf of a lexeme that stands between others that are no numbers. -/
theorem Scanned.sites {all : List Lexeme} (h : Scanned all) {x l y : Lexeme}
    (hin : [x, l, y] <:+: all) (hx : x.kind ∉ Kind.numerals) (hy : y.kind ∉ Kind.numerals)
    (hl : l.kind ≠ .eof) (role : Role) : Sites [⟨role, l.text⟩] [l] := by
  have hlanguage := h.language l (hin.subset (by simp)) hl
  by_cases hk : l.kind ∈ Kind.truths
  · have htruth : (Leaf.mk role l.text).isTruth = true :=
      Leaf.isTruth_iff.2 (Kind.text_of_mem_truths hk hlanguage)
    refine ⟨[⟨role, l, hk⟩], ?_, List.Sublist.refl _⟩
    rw [List.filter_cons_of_pos htruth]
    rfl
  · have htruth : ¬ (Leaf.mk role l.text).isTruth = true := by
      intro htruth
      have htext := Leaf.isTruth_iff.1 htruth
      by_cases hn : l.kind = .identifier
      · apply h.apart x l y hin hx hy hn
        obtain ht | ht := htext
        · exact ⟨.trueLiteral, by decide, congrArg some ht.symm⟩
        · exact ⟨.falseLiteral, by decide, congrArg some ht.symm⟩
      · exact hk (hlanguage.mem_truths htext hn)
    refine ⟨[], ?_, List.nil_sublist _⟩
    rw [List.filter_cons_of_neg htruth]
    rfl

theorem infix_condition (us vs : List Lexeme) :
    sign .leftParen :: (us ++ [sign .rightParen]) <:+: guarded us vs :=
  ⟨[], braced vs, by simp [guarded]⟩

variable {all : List Lexeme}

mutual

theorem Condition.SpelledTerm.sites (hall : Scanned all) : ∀ {c : Condition} {us : List Lexeme},
    c.SpelledTerm us → ∀ {x y : Lexeme}, x.kind ∉ Kind.numerals → y.kind ∉ Kind.numerals →
      x :: (us ++ [y]) <:+: all → Sites c.leaves us
  | _, _, .name n, x, y, hx, hy, hin => hall.sites hin hx hy (by simp) .whole
  | _, _, @Condition.SpelledTerm.compare n k hk v hv, x, y, hx, hy, hin => by
    have hsigns : ∀ k ∈ Kind.comparisons, (sign k).text ≠ "" ∧ k ∉ Kind.numerals := by decide
    have hoperands : ∀ k ∈ Kind.operands, k ≠ .eof := by decide
    have hsign := hsigns k hk
    have hright : [sign k, v, y] <:+: all :=
      (List.suffix_append [x, name n] _).isInfix.trans hin
    have hsites := hall.sites hright hsign.2 hy (hoperands _ hv) .right
    have hleaves : (Condition.test n (sign k).text v.text).leaves = [⟨.right, v.text⟩] :=
      if_neg hsign.1
    rw [hleaves]
    exact (hsites.cons _).cons _
  | _, _, @Condition.SpelledTerm.truth k hk, x, y, hx, hy, hin => by
    have htruths : ∀ k ∈ Kind.truths, k ≠ .eof := by decide
    exact hall.sites hin hx hy (htruths k hk) .whole
  | _, _, @Condition.SpelledTerm.group c us h, x, y, hx, hy, hin => by
    have hinner : sign .leftParen :: (us ++ [sign .rightParen]) <:+: all :=
      List.IsInfix.trans ⟨[x], [y], by simp⟩ hin
    have hsites := h.sites hall (by decide) (by decide) hinner
    exact (hsites.mono (List.sublist_append_left _ _)).cons _

/-- The truth literals of a condition. What stands beside the condition is no number. -/
theorem Condition.Spelled.sites (hall : Scanned all) : ∀ {c : Condition} {us : List Lexeme},
    c.Spelled us → ∀ {x y : Lexeme}, x.kind ∉ Kind.numerals → y.kind ∉ Kind.numerals →
      x :: (us ++ [y]) <:+: all → Sites c.leaves us
  | _, _, .term h, x, y, hx, hy, hin => h.sites hall hx hy hin
  | _, _, @Condition.Spelled.join l r us vs k hk hl hr, x, y, hx, hy, hin => by
    have hconnectives : ∀ k ∈ Kind.connectives, k ∉ Kind.numerals := by decide
    have hconnective := hconnectives k hk
    have hleft : x :: (us ++ [sign k]) <:+: all :=
      List.IsInfix.trans ⟨[], vs ++ [y], by simp⟩ hin
    have hright : sign k :: (vs ++ [y]) <:+: all :=
      List.IsInfix.trans ⟨x :: us, [], by simp⟩ hin
    have hlsites := hl.sites hall hx hconnective hleft
    have hrsites := hr.sites hall hconnective hy hright
    exact hlsites.append (hrsites.cons _)

end

theorem SpelledCondition.sites (hall : Scanned all) {c : Option Condition} {us : List Lexeme}
    (h : SpelledCondition c us) (hin : sign .semicolon :: (us ++ [sign .semicolon]) <:+: all) :
    Sites ((c.map Condition.leaves).getD []) us := by
  cases h with
  | absent => exact .nil []
  | present h => exact h.sites hall (by decide) (by decide) hin

theorem SpelledFirst.sites (hall : Scanned all) {b : Option Binding} {us : List Lexeme}
    (h : SpelledFirst .full b us) (hin : us ++ [sign .semicolon] <:+: all) :
    Sites (b.map (Binding.leaf .first)).toList us := by
  cases h with
  | absent => exact .nil []
  | @typed k hk n v hv =>
    have hbeside : [sign .assign, v, sign .semicolon] <:+: all :=
      (List.suffix_append [sign k, name n] _).isInfix.trans hin
    have hsites := hall.sites hbeside (by decide) (by decide) hv .first
    exact ((hsites.cons _).cons _).cons _
  | @untyped n v hv =>
    have hbeside : [sign .assign, v, sign .semicolon] <:+: all :=
      (List.suffix_append [name n] _).isInfix.trans hin
    have hsites := hall.sites hbeside (by decide) (by decide) hv .first
    exact (hsites.cons _).cons _

mutual

theorem Statement.Spelled.sites (hall : Scanned all) : ∀ {s : Statement} {us : List Lexeme},
    s.Spelled .full us → us <:+: all → Sites s.leaves us
  | _, _, .print hm hv, _ => .nil _
  | _, _, @Statement.Spelled.declare _ k hk n v hv, hin => by
    have hvalues : ∀ k ∈ Kind.values, k ≠ .eof := by decide
    have hbeside : [sign .assign, v, sign .semicolon] <:+: all :=
      (List.suffix_append [sign k, name n] _).isInfix.trans hin
    have hsites := hall.sites hbeside (by decide) (by decide) (hvalues _ hv) .value
    exact (((hsites.mono (List.sublist_append_left _ [sign .semicolon])).cons _).cons _).cons _
  | _, _, .step n d, _ => .nil _
  | _, _, @Statement.Spelled.branch _ c body o us vs ws b hc hb ho, hin => by
    have hguarded : guarded us vs <:+: all :=
      List.IsInfix.trans ⟨[sign .ifKeyword], ws, rfl⟩ hin
    have hrest : ws <:+: all :=
      List.IsInfix.trans ⟨sign .ifKeyword :: guarded us vs, [], by simp⟩ hin
    have hhead := hc.sites hall (by decide) (by decide) ((infix_condition us vs).trans hguarded)
    have hbody := hb.sites hall ((infix_guarded us vs).trans hguarded)
    have hsites := (hhead.guarded hbody).append (ho.sites hall hrest)
    rw [List.append_assoc] at hsites
    exact hsites.cons _
  | _, _, @Statement.Spelled.repeatWhile _ c body us vs b hc hb, hin => by
    have hguarded : guarded us vs <:+: all := (List.suffix_cons _ _).isInfix.trans hin
    have hhead := hc.sites hall (by decide) (by decide) ((infix_condition us vs).trans hguarded)
    have hbody := hb.sites hall ((infix_guarded us vs).trans hguarded)
    exact (hhead.guarded hbody).cons _
  | _, _, @Statement.Spelled.count _ first c update body fs us xs vs b hf hc hu hb, hin => by
    have hfirst : fs ++ [sign .semicolon] <:+: all :=
      List.IsInfix.trans ⟨[sign .forKeyword, sign .leftParen],
        us ++ sign .semicolon :: (xs ++ sign .rightParen :: braced vs), by simp⟩ hin
    have hcondition : sign .semicolon :: (us ++ [sign .semicolon]) <:+: all :=
      List.IsInfix.trans ⟨sign .forKeyword :: sign .leftParen :: fs,
        xs ++ sign .rightParen :: braced vs, by simp⟩ hin
    have hbody : vs <:+: all :=
      (infix_braced vs).trans (List.IsInfix.trans ⟨sign .forKeyword :: sign .leftParen ::
        (fs ++ sign .semicolon :: (us ++ sign .semicolon :: (xs ++ [sign .rightParen]))), [],
        by simp⟩ hin)
    have hrounds := (hb.sites hall hbody).braced.cons (sign .rightParen)
    have htail := (hc.sites hall hcondition).append
      ((hrounds.mono (List.sublist_append_right xs _)).cons (sign .semicolon))
    have hsites := (hf.sites hall hfirst).append (htail.cons (sign .semicolon))
    rw [← List.append_assoc] at hsites
    exact (hsites.cons _).cons _

theorem Otherwise.Spelled.sites (hall : Scanned all) : ∀ {o : Otherwise} {us : List Lexeme},
    o.Spelled .full us → us <:+: all → Sites o.leaves us
  | _, _, .nothing, _ => .nil _
  | _, _, @Otherwise.Spelled.elseIf _ c body o us vs ws b hc hb ho, hin => by
    have hguarded : guarded us vs <:+: all :=
      List.IsInfix.trans ⟨[sign .elseKeyword, sign .ifKeyword], ws, rfl⟩ hin
    have hrest : ws <:+: all :=
      List.IsInfix.trans ⟨sign .elseKeyword :: sign .ifKeyword :: guarded us vs, [], by simp⟩ hin
    have hhead := hc.sites hall (by decide) (by decide) ((infix_condition us vs).trans hguarded)
    have hbody := hb.sites hall ((infix_guarded us vs).trans hguarded)
    have hsites := (hhead.guarded hbody).append (ho.sites hall hrest)
    rw [List.append_assoc] at hsites
    exact (hsites.cons _).cons _
  | _, _, @Otherwise.Spelled.elseDo _ body vs b hb, hin => by
    have hbody := hb.sites hall ((infix_braced vs).trans ((List.suffix_cons _ _).isInfix.trans hin))
    exact hbody.braced.cons _

/-- The truth literals of a body that was read are those of its lexemes. -/
theorem SpelledBody.sites (hall : Scanned all) : ∀ {top after behind : Bool}
    {ss : List Statement} {us : List Lexeme}, SpelledBody .full top after behind ss us →
      us <:+: all → Sites (Statement.listLeaves ss) us
  | _, _, _, _, _, .nil, _ => .nil _
  | _, _, _, _, _, @SpelledBody.cons _ _ _ _ s ss us vs hs hb, hin => by
    have hfirst := hs.sites hall ((List.prefix_append us vs).isInfix.trans hin)
    have hrest := hb.sites hall ((List.suffix_append us vs).isInfix.trans hin)
    exact hfirst.append hrest
  | _, _, _, _, _, @SpelledBody.unknown _ _ _ _ ss js vs hj hb, hin => by
    have hafter : vs <:+: js ++ sign .semicolon :: vs :=
      ((List.suffix_cons _ vs).trans (List.suffix_append js _)).isInfix
    exact (hb.sites hall (hafter.trans hin)).mono hafter.sublist

end

/-! ## Conversion -/

theorem scanned_tokenize {s : String} {ts : List Token} (h : tokenize s = .ok ts) :
    Scanned (ts.map Token.lexeme) where
  language _ hl hk := language_of_mem_lexemes h hl hk
  apart _ _ _ hin hx hy hl :=
    not_looksReserved (lexemesOf?_eq_some_iff.2 ⟨ts, h, rfl⟩) hin hx hy hl

/-- A truth literal is capitalised where it is assigned, and nowhere else. -/
theorem Site.write_leaf {x : Site} (h : x.literal.kind.Language x.literal.text.toList) :
    x.leaf.write = (if x.role.isAssigned then x.literal.meaning else x.literal.text) ∧
      x.literal.meaning ≠ x.literal.text := by
  obtain ⟨role, ⟨k, t⟩, hk⟩ := x
  simp only [Kind.truths, List.mem_cons, List.not_mem_nil, or_false] at hk
  obtain rfl | rfl := hk
  · obtain rfl : t = "true" := h.eq_spelling rfl
    exact ⟨rfl, show "True" ≠ "true" by decide⟩
  · obtain rfl : t = "false" := h.eq_spelling rfl
    exact ⟨rfl, show "False" ≠ "false" by decide⟩

/-- The text for a source is the lines of its program, put together from their fragments. The truth
literals of the program, at any depth, are tokens of the source, and they are found again, in the
same order, among the fragments of the lines. There they are written with their meaning if they are
assigned, and as they were read if they are conditions or stand in one. So all of them are written
with their meaning exactly if none stands in a condition. -/
theorem convert_truth_literals {s q : String} (h : convert s = .ok q) :
    ∃ ts p ms, ∃ sites : List Site, tokenize s = .ok ts ∧ parse ts = .ok p ∧
      p.marked = .ok ms ∧ q = writeLines (ms.map MarkedLine.line) ∧
      p.leaves.filter Leaf.isTruth = sites.map Site.leaf ∧
      (sites.map Site.literal).Sublist (ts.map Token.lexeme) ∧
      (ms.flatMap MarkedLine.leaves).filter Leaf.isTruth = sites.map Site.leaf ∧
      (∀ x ∈ sites, x.leaf.write =
        if x.role.isAssigned then x.literal.meaning else x.literal.text) ∧
      ((∀ x ∈ sites, x.leaf.write = x.literal.meaning) ↔
        ∀ x ∈ sites, x.role.isAssigned = true) := by
  obtain ⟨ts, p, ls, behind, us, ht, hp, houtline, rfl, hin, hbody⟩ := exists_lines_of_convert h
  have hmarks := Statement.list_marks p.body
  obtain ⟨ms, hmarked, rfl⟩ := hmarks.exists_of_ok houtline
  obtain ⟨sites, hleaves, hsub⟩ := hbody.sites (scanned_tokenize ht) hin
  have htokens := hsub.trans hin.sublist
  have hwrite : ∀ x ∈ sites, x.leaf.write =
      (if x.role.isAssigned then x.literal.meaning else x.literal.text) ∧
        x.literal.meaning ≠ x.literal.text := by
    intro x hx
    have htruths : ∀ k ∈ Kind.truths, k ≠ .eof := by decide
    apply Site.write_leaf
    exact language_of_mem_lexemes ht (htokens.subset (List.mem_map_of_mem hx))
      (htruths _ x.isTruth)
  refine ⟨ts, p, ms, sites, ht, hp, hmarked, rfl, hleaves, htokens,
    (hmarks.truths ms hmarked).trans hleaves, fun x hx => (hwrite x hx).1, ?_⟩
  constructor
  · intro hmeaning x hx
    by_contra hrole
    have hboth := hwrite x hx
    rw [hmeaning x hx, if_neg hrole] at hboth
    exact hboth.2 hboth.1
  · intro hroles x hx
    rw [(hwrite x hx).1, if_pos (hroles x hx)]

/-- A loop that does not end by itself: its condition is a name that nothing has. -/
theorem convert_truth_literals_loop : convert "while(true)\x7bx++;\x7d" =
      .ok "while true:\n    x += 1\n" ∧
    ∃ ts p ms, ∃ sites : List Site, tokenize "while(true)\x7bx++;\x7d" = .ok ts ∧
      parse ts = .ok p ∧ p.marked = .ok ms ∧
      "while true:\n    x += 1\n" = writeLines (ms.map MarkedLine.line) ∧
      p.leaves.filter Leaf.isTruth = sites.map Site.leaf ∧
      (sites.map Site.literal).Sublist (ts.map Token.lexeme) ∧
      (ms.flatMap MarkedLine.leaves).filter Leaf.isTruth = sites.map Site.leaf ∧
      (∀ x ∈ sites, x.leaf.write =
        if x.role.isAssigned then x.literal.meaning else x.literal.text) ∧
      ((∀ x ∈ sites, x.leaf.write = x.literal.meaning) ↔
        ∀ x ∈ sites, x.role.isAssigned = true) := by
  have hlexemes : lexemesOf? none "while(true)\x7bx++;\x7d".toList =
      some [sign .whileKeyword, sign .leftParen, sign .trueLiteral, sign .rightParen,
        sign .leftBrace, name "x", sign .increment, sign .semicolon, sign .rightBrace, eof] := by
    rw [lexemesOf?_eq_within]
    decide +kernel
  have hloop : SpelledBody .full true false false
      [.repeatWhile (.test "true" "" "") [.step ⟨"x", .up⟩]] _ :=
    .cons (.repeatWhile (.term (.truth (k := .trueLiteral) (by decide)))
      (.cons (.step "x" .up) .nil)) .nil
  have hconvert : convert "while(true)\x7bx++;\x7d" = .ok "while true:\n    x += 1\n" :=
    convert_eq_ok_iff.2 ⟨_, _, hlexemes,
      ⟨false, _, [], rfl, hloop, Grammar.passable_nil _ _⟩, rfl⟩
  exact ⟨hconvert, convert_truth_literals hconvert⟩

end Offside
