import Offside.Proofs.Conversion
import Offside.Proofs.Counting
import Offside.Proofs.Ranges

/-!
# Which loops are written over a range

A counting loop is written over a range if its head counts from one numeral to another
(`Head.Spans`). The head says which variable the loop starts and compares, but nobody asks which
variable it changes, nor what its body assigns: `Head.range?_eq_some_iff` mentions neither. Where
the loop changes its counter, and its body leaves the counter alone, this does no harm. Where no
round changes the counter, the loop on its condition goes on for ever, while the loop over the range
ends (`not_runs_whileForm`).
-/

namespace Offside

open Lexeme (sign name eof)
open Text (readNumeral isDigitText)
open Offside.Tree (Counting RenderError rangeArguments?)

/-! ## Heads that span a range -/

/-- The range that a loop with this head is written over, with the variable that goes through
it. -/
def Head.range? (h : Head) : Except RenderError (Option (String × List Int)) :=
  writtenRange? (optionTree Binding.toTree h.first) (optionTree Condition.toTree h.condition)
    (optionTree Step.toTree h.update)

/-- The head starts `x` at the numeral `a`, compares `x` with the numeral `b`, and has an update;
for this comparison and the direction of the update there is the range `ns`. -/
structure Head.Spans (h : Head) (x operator : String) (a b : Nat) (u : Step) (ns : List Int) :
    Prop where
  start : ∃ v typeName, h.first = some ⟨x, v, typeName⟩ ∧ isDigitText v.toList = true ∧
    readNumeral v.toList = .ok a
  bound : ∃ v, h.condition = some (.test x operator v) ∧ isDigitText v.toList = true ∧
    readNumeral v.toList = .ok b
  update : h.update = some u
  range : rangeArguments? operator u.direction.amount a b = some ns

namespace Head

theorem range?_of_counting? {h : Head} {l : Counting} (hl : h.counting? = some l) :
    h.range? = (l.range?.mapError .numeral).map (Option.map (l.counter, ·)) := by
  unfold range? writtenRange?
  rw [counting?_toTree, hl]
  show (l.range?.mapError RenderError.numeral >>= _) = _
  cases l.range? with
  | error e => rfl
  | ok o => rfl

theorem range?_of_counting?_none {h : Head} (hl : h.counting? = none) : h.range? = .ok none := by
  unfold range? writtenRange?
  rw [counting?_toTree, hl]
  rfl

theorem Spans.counting? {h : Head} {x operator : String} {a b : Nat} {u : Step} {ns : List Int}
    (hs : h.Spans x operator a b u ns) : ∃ l, h.counting? = some l ∧ l.counter = x ∧
      l.operator = operator ∧ l.delta = u.direction.amount ∧
      readNumeral l.start.toList = .ok a ∧ readNumeral l.bound.toList = .ok b := by
  obtain ⟨v, typeName, hfirst, hv, ha⟩ := hs.start
  obtain ⟨w, hcondition, hw, hb⟩ := hs.bound
  refine ⟨⟨x, v, w, operator, u.direction.amount⟩, ?_, rfl, rfl, rfl, ha, hb⟩
  obtain ⟨first, condition, update⟩ := h
  obtain rfl : first = _ := hfirst
  obtain rfl : condition = _ := hcondition
  obtain rfl : update = _ := hs.update
  simp [Head.counting?, hv, hw]

/-- The heads of the loops that are written over a range. The variable that is changed after each
round is not among what is asked for. -/
theorem range?_eq_some_iff {h : Head} {x : String} {ns : List Int} :
    h.range? = .ok (some (x, ns)) ↔ ∃ operator a b u, h.Spans x operator a b u ns := by
  constructor
  · intro hr
    cases hl : h.counting? with
    | none =>
      rw [range?_of_counting?_none hl] at hr
      cases hr
    | some l =>
      obtain ⟨typeName, u, hfirst, hcondition, hupdate, hdelta, hstart, hbound⟩ :=
        parts_of_counting? hl
      rw [range?_of_counting? hl] at hr
      cases ha : readNumeral l.start.toList with
      | error e =>
        simp only [Counting.range?, ha] at hr
        cases hr
      | ok a =>
        cases hb : readNumeral l.bound.toList with
        | error e =>
          simp only [Counting.range?, ha, hb] at hr
          cases hr
        | ok b =>
          rw [range?_eq_ok ha hb] at hr
          cases hn : rangeArguments? l.operator l.delta a b with
          | none =>
            rw [hn] at hr
            cases hr
          | some ms =>
            rw [hn] at hr
            cases hr
            exact ⟨l.operator, a, b, u, ⟨_, typeName, hfirst, hstart, ha⟩,
              ⟨_, hcondition, hbound, hb⟩, hupdate, by rw [hdelta, hn]⟩
  · rintro ⟨operator, a, b, u, hs⟩
    obtain ⟨l, hl, rfl, rfl, hdelta, ha, hb⟩ := hs.counting?
    rw [range?_of_counting? hl, range?_eq_ok ha hb, hdelta, hs.range]
    rfl

/-- A head that spans a range does so whatever variable it changes. -/
theorem Spans.rename {h : Head} {x operator : String} {a b : Nat} {u : Step} {ns : List Int}
    (hs : h.Spans x operator a b u ns) (y : String) :
    Spans ⟨h.first, h.condition, some ⟨y, u.direction⟩⟩ x operator a b ⟨y, u.direction⟩ ns :=
  ⟨hs.start, hs.bound, rfl, hs.range⟩

/-- A loop whose head spans a range is written over it, whatever its body is. -/
theorem Spans.statementText {h : Head} {x operator : String} {a b : Nat} {u : Step} {ns : List Int}
    (hs : h.Spans x operator a b u ns) (body : List Statement) :
    (Statement.count h.first h.condition h.update body).toTree.statementText =
      rangeText x ns (Tree.statementsText (Statement.listToTree body)) := by
  have hr : writtenRange? (optionTree Binding.toTree h.first)
      (optionTree Condition.toTree h.condition) (optionTree Step.toTree h.update) =
        .ok (some (x, ns)) := range?_eq_some_iff.2 ⟨operator, a, b, u, hs⟩
  rw [Statement.toTree, statementText_forLoop, hr]
  rfl

end Head

/-! ## Loops that do not end -/

/-- A loop does not end where its condition holds in all the stores that its rounds lead to. -/
theorem not_runs_whileLoop {I : Store → Prop} {condition : Tree} {body : List Tree}
    (hgo : ∀ σ, I σ → truth? σ condition = some true)
    (hkeep : ∀ σ trace σ', I σ → Runs (.block body) σ trace σ' → I σ') {σ σ' : Store}
    {trace : List Shown} (hσ : I σ) :
    ¬ Runs (.statement (.whileLoop condition body)) σ trace σ' := by
  intro h
  generalize hcode : Code.statement (.whileLoop condition body) = code at h
  induction h with
  | whileStop hstop =>
    cases hcode
    cases hstop.symm.trans (hgo _ hσ)
  | whileRound _ hround _ _ ih =>
    cases hcode
    exact ih (hkeep _ _ _ hσ hround) rfl
  | _ => cases hcode

/-- The rounds of a loop: the body, and then the update. -/
def roundOf (body : List Statement) (u : Step) : List Tree :=
  Statement.listToTree body ++ [u.toTree]

/-- The loop on its condition, for a loop that has all three parts in its head. -/
def Head.whileForm (h : Head) (body : List Statement) : List Tree :=
  Offside.whileForm (optionTree Binding.toTree h.first) (optionTree Condition.toTree h.condition)
    (optionTree Step.toTree h.update) (Statement.listToTree body)

section Spans

variable {h : Head} {x operator : String} {a b : Nat} {u : Step} {ns : List Int}
  {body : List Statement}

/-- A loop that has a first round, and whose rounds leave its counter as it was, does not end
when it goes on its condition. -/
theorem not_runs_whileForm (hs : h.Spans x operator a b u ns)
    (htest : comparesWith operator b a = true)
    (hkept : ∀ σ trace σ', Runs (.block (roundOf body u)) σ trace σ' → σ' x = σ x)
    (σ : Store) (trace : List Shown) (σ' : Store) :
    ¬ Runs (.block (h.whileForm body)) σ trace σ' := by
  obtain ⟨l, hl, rfl, rfl, hdelta, ha, hb⟩ := hs.counting?
  obtain ⟨typeName, u', hfirst, hcondition, hupdate, -, hstart, hbound⟩ :=
    Head.parts_of_counting? hl
  obtain rfl : u = u' := Option.some.inj (hs.update.symm.trans hupdate)
  have hrange : rangeArguments? l.operator l.delta a b = some ns := hdelta ▸ hs.range
  have hset : value? σ (Tree.valueText l.start) = some (a : Int) := by
    rw [valueText_of_isDigitText hstart, value?_of_readNumeral σ hstart ha]
  have hform : h.whileForm body = .binding l.counter (some l.start) typeName ::
      [.whileLoop (.comparison l.counter l.operator (some l.bound)) (roundOf body u)] := by
    simp only [Head.whileForm, hfirst, hcondition, hupdate]
    rfl
  rw [hform]
  intro hrun
  cases hrun with
  | cons hbind hloop =>
    cases hbind with
    | binding hn =>
      obtain rfl := Option.some.inj (hn.symm.trans hset)
      -- the counter keeps the number that it starts with, and so the condition goes on holding
      refine not_runs_whileLoop (I := fun ρ => ρ l.counter = some (a : Int)) ?_ ?_
        (Function.update_self ..) (runs_block_singleton.1 hloop)
      · intro ρ hρ
        rw [truth?_of_rangeArguments? hbound hb hrange hρ, htest]
      · intro ρ trace ρ' hρ hround
        rw [hkept ρ trace ρ' hround, hρ]

/-- A round that changes another variable leaves the counter as it was, if the body does not
assign it. -/
theorem round_keeps (hu : u.name ≠ x) (hbody : x ∉ Tree.assignedIn (Statement.listToTree body))
    (σ : Store) (trace : List Shown) (σ' : Store)
    (hround : Runs (.block (roundOf body u)) σ trace σ') : σ' x = σ x := by
  apply hround.eq_of_not_assigned
  simp only [Code.assigned, roundOf, assignedIn_append, List.mem_append, not_or]
  refine ⟨hbody, ?_⟩
  simpa [Tree.assignedIn, Tree.assigned, Step.toTree] using hu.symm

/-- A loop that changes its own counter does the same in both forms, if the body does not assign
it. -/
theorem agreeBut_of_own (hs : h.Spans x operator a b u ns) (hu : u.name = x)
    (hbody : x ∉ Tree.assignedIn (Statement.listToTree body))
    (htest : comparesWith operator b a = true) (hne : operator = "!=" → a ≤ b) :
    Code.AgreeBut x (.each x (rangeValues ns) (Statement.listToTree body))
      (.block (h.whileForm body)) := by
  obtain ⟨l, hl, rfl, rfl, hdelta, ha, hb⟩ := hs.counting?
  have hrange : rangeArguments? l.operator l.delta a b = some ns := hdelta ▸ hs.range
  have hcounts : Counts (comparesWith l.operator b) l.delta a (rangeValues ns) := by
    rw [counts_rangeValues_iff hrange]
    refine ⟨fun heq => ?_, fun hop => Int.ofNat_le.2 (hne hop)⟩
    rw [heq] at htest
    simpa [comparesWith, compare?] using htest
  refine agreeBut_whileForm (h.counting?_toTree.trans (congrArg _ hl)) ?_ hbody ha hb hrange hcounts
  rw [hs.update, hdelta]
  exact congrArg (Tree.change · u.direction.amount) hu

end Spans

/-! ## The choice between the forms -/

/-- A counting loop is written over a range exactly if its head starts a variable at a numeral,
compares the same variable with a numeral, and has an update in a direction that goes with the
comparison. The variable that the update changes has no say in it, nor has the body: with any other
of the two the loop is written over the same range. But they decide what the loop does. Suppose that
it has a first round and that its body does not assign the counter. If the update changes the
counter, the loop over the range does what the loop on its condition does. If it changes any other
variable, the loop on its condition does not end from any store. -/
theorem range_written_iff_spans (h : Head) (x : String) (ns : List Int) :
    (h.range? = .ok (some (x, ns)) ↔ ∃ operator a b u, h.Spans x operator a b u ns) ∧
    ∀ (operator : String) (a b : Nat) (u : Step), h.Spans x operator a b u ns →
      (∀ (y : String) (body : List Statement),
        (Statement.count h.first h.condition (some ⟨y, u.direction⟩) body).toTree.statementText =
          rangeText x ns (Tree.statementsText (Statement.listToTree body))) ∧
      ∀ body : List Statement, x ∉ Tree.assignedIn (Statement.listToTree body) →
        comparesWith operator b a = true →
        (u.name = x → (operator = "!=" → a ≤ b) →
          Code.AgreeBut x (.each x (rangeValues ns) (Statement.listToTree body))
            (.block (h.whileForm body))) ∧
        (u.name ≠ x → ∀ σ trace σ', ¬ Runs (.block (h.whileForm body)) σ trace σ') := by
  refine ⟨Head.range?_eq_some_iff, fun operator a b u hs => ⟨?_, ?_⟩⟩
  · intro y body
    exact (hs.rename y).statementText body
  · intro body hbody htest
    constructor
    · intro hu hne
      exact agreeBut_of_own hs hu hbody htest hne
    · intro hu
      exact not_runs_whileForm hs htest (round_keeps hu hbody)

/-- The loop that counts with `i` and changes `j` is written over a range, and would not end on its
condition. -/
theorem range_written_for_other_variable :
    convert "for(int i=0;i<10;j++)\x7bx++;\x7d" = .ok "for i in range(0, 10):\n    x += 1\n" ∧
    ∀ σ trace σ', ¬ Runs (.block (Head.whileForm
      ⟨some ⟨"i", "0", "int"⟩, some (.test "i" "<" "10"), some ⟨"j", .up⟩⟩ [.step ⟨"x", .up⟩]))
        σ trace σ' := by
  have hlexemes : lexemesOf? none "for(int i=0;i<10;j++)\x7bx++;\x7d".toList =
      some [sign .forKeyword, sign .leftParen, sign .intType, name "i", sign .assign,
        ⟨.number, "0"⟩, sign .semicolon, name "i", sign .lt, ⟨.number, "10"⟩, sign .semicolon,
        name "j", sign .increment, sign .rightParen, sign .leftBrace, name "x", sign .increment,
        sign .semicolon, sign .rightBrace, eof] := by
    rw [lexemesOf?_eq_within]
    decide +kernel
  have hspans : Head.Spans ⟨some ⟨"i", "0", "int"⟩, some (.test "i" "<" "10"), some ⟨"j", .up⟩⟩
      "i" "<" 0 10 ⟨"j", .up⟩ [0, 10] :=
    ⟨⟨_, _, rfl, rfl, rfl⟩, ⟨_, rfl, rfl, rfl⟩, rfl, rfl⟩
  have hloop := ((range_written_iff_spans _ "i" [0, 10]).2 _ _ _ _ hspans).2 [.step ⟨"x", .up⟩]
  have hspelled : Statement.Spelled .full (.count (some ⟨"i", "0", "int"⟩)
      (some (.test "i" "<" "10")) (some ⟨"j", .up⟩) [.step ⟨"x", .up⟩]) _ :=
    .count (.typed (k := .intType) (by decide) "i" (v := ⟨.number, "0"⟩) nofun)
      (.present (.term (.compare "i" (k := .lt) (by decide) (v := ⟨.number, "10"⟩) (by decide))))
      (.present "j" .up) (.cons (.step "x" .up) .nil)
  exact ⟨convert_eq_ok_iff.2 ⟨_, _, hlexemes,
    ⟨false, _, [], rfl, .cons hspelled .nil, Grammar.passable_nil _ _⟩, rfl⟩,
    (hloop (by decide) rfl).2 (by decide)⟩

/-- The body may undo what the update does: the loop is written over a range all the same, runs
there ten times, and would not end on its condition. -/
theorem range_written_for_assigned_counter :
    (Statement.count (some ⟨"i", "0", "int"⟩) (some (.test "i" "<" "10")) (some ⟨"i", .up⟩)
      [.step ⟨"i", .down⟩]).toTree.statementText =
        .ok "for i in range(0, 10):\n    i -= 1\n" ∧
    ∀ σ trace σ', ¬ Runs (.block (Head.whileForm
      ⟨some ⟨"i", "0", "int"⟩, some (.test "i" "<" "10"), some ⟨"i", .up⟩⟩ [.step ⟨"i", .down⟩]))
        σ trace σ' := by
  have hspans : Head.Spans ⟨some ⟨"i", "0", "int"⟩, some (.test "i" "<" "10"), some ⟨"i", .up⟩⟩
      "i" "<" 0 10 ⟨"i", .up⟩ [0, 10] :=
    ⟨⟨_, _, rfl, rfl, rfl⟩, ⟨_, rfl, rfl, rfl⟩, rfl, rfl⟩
  refine ⟨(hspans.statementText _).trans rfl, not_runs_whileForm hspans rfl ?_⟩
  intro σ trace σ' hround
  cases hround with
  | cons hdown hup =>
    cases hdown with
    | change hn =>
      cases runs_block_singleton.1 hup with
      | change hm =>
        rw [Function.update_self] at hm
        cases hm
        rw [Function.update_self, hn]
        exact congrArg some (Int.neg_add_cancel_right _ 1)

end Offside
