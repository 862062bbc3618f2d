import Offside.Proofs.Reading

/-!
# How conditions are grouped

A condition is written as terms with connectives between them. In the usual reading `&&`
binds tighter than `||`: a condition holds if all terms up to its first `||` hold, or what
follows that `||` does (`Chain.value`). The grammar groups to the right instead, whichever
connectives it meets (`Chain.nested`).

Both readings give the same value as long as no `||` follows a `&&` in the same chain of
terms, and that is the only way in which they always do: any other condition, if its terms
are different variables or comparisons, has a valuation that tells the readings apart
(`condition_value_iff`).
-/

namespace Offside

open Lexeme (sign name eof next)
open Grammar (condition)

/-! ## Values of conditions -/

/-- A condition without connectives, as the grammar keeps it. -/
structure Test where
  left : String
  operator : String
  right : String
deriving DecidableEq, Repr

/-- The literal that always holds. -/
def Test.yes : Test := ⟨"true", "", ""⟩

/-- The literal that never holds. -/
def Test.no : Test := ⟨"false", "", ""⟩

/-- Not a truth literal, so that its value is not settled by how it is written. -/
def Test.isOpen (t : Test) : Bool := t != yes && t != no

/-- The truth literals have the values they name. -/
structure Faithful (v : Test → Bool) : Prop where
  yes : v .yes = true
  no : v .no = false

/-- The value of a condition as it is grouped, where `v` gives the values of its tests. -/
def Condition.value (v : Test → Bool) : Condition → Bool
  | test left operator right => v ⟨left, operator, right⟩
  | join left operator right =>
    if operator = "&&" then left.value v && right.value v else left.value v || right.value v

/-! ## Conditions as they are written -/

/-- The operators that join conditions. -/
inductive Connective where
  | and
  | or
deriving DecidableEq, Repr

/-- The kind of the tokens that write a connective. -/
def Connective.kind : Connective → Kind
  | and => .and
  | or => .or

theorem Connective.kind_mem (k : Connective) : k.kind ∈ Kind.connectives := by
  cases k <;> decide

/-- A term without parentheses: an identifier, a comparison, or a truth literal. -/
inductive Atom where
  | name (n : String)
  | compare (n : String) (k : Kind) (hk : k ∈ Kind.comparisons) (v : Lexeme)
      (hv : v.kind ∈ Kind.operands)
  | truth (k : Kind) (hk : k ∈ Kind.truths)

/-- What the grammar keeps of an atom. -/
def Atom.test : Atom → Test
  | name n => ⟨n, "", ""⟩
  | compare n k _ v _ => ⟨n, (sign k).text, v.text⟩
  | truth k _ => ⟨(sign k).text, "", ""⟩

/-- How an atom is written. -/
def Atom.lexemes : Atom → List Lexeme
  | name n => [Lexeme.name n]
  | compare n k _ v _ => [Lexeme.name n, sign k, v]
  | truth k _ => [sign k]

mutual

/-- A term of a condition. -/
inductive Term where
  | atom (a : Atom)
  /-- A condition between parentheses. -/
  | group (inner : Chain)

/-- A condition: terms with connectives between them. -/
inductive Chain where
  | last (t : Term)
  | join (t : Term) (k : Connective) (rest : Chain)

end

mutual

/-- How a term is written. -/
def Term.lexemes : Term → List Lexeme
  | .atom a => a.lexemes
  | .group inner => sign .leftParen :: (inner.lexemes ++ [sign .rightParen])

/-- How a condition is written. -/
def Chain.lexemes : Chain → List Lexeme
  | .last t => t.lexemes
  | .join t k rest => t.lexemes ++ sign k.kind :: rest.lexemes

end

mutual

/-- The tests of a term, in the order in which they are written. -/
def Term.tests : Term → List Test
  | .atom a => [a.test]
  | .group inner => inner.tests

/-- The tests of a condition, in the order in which they are written. -/
def Chain.tests : Chain → List Test
  | .last t => t.tests
  | .join t _ rest => t.tests ++ rest.tests

end

/-! ## The two readings -/

mutual

/-- The value of a term. -/
def Term.value (v : Test → Bool) : Term → Bool
  | .atom a => v a.test
  | .group inner => inner.upToOr v || inner.afterOr v

/-- All terms before the first `||` hold. -/
def Chain.upToOr (v : Test → Bool) : Chain → Bool
  | .last t => t.value v
  | .join t .and rest => t.value v && rest.upToOr v
  | .join t .or _ => t.value v

/-- There is a `||`, and the condition that follows the first one holds. -/
def Chain.afterOr (v : Test → Bool) : Chain → Bool
  | .last _ => false
  | .join _ .and rest => rest.afterOr v
  | .join _ .or rest => rest.upToOr v || rest.afterOr v

end

/-- The value of a condition in which `&&` binds tighter than `||`. -/
def Chain.value (v : Test → Bool) (c : Chain) : Bool := c.upToOr v || c.afterOr v

mutual

/-- A term, with everything in it grouped to the right. -/
def Term.nested : Term → Condition
  | .atom a => .test a.test.left a.test.operator a.test.right
  | .group inner => inner.nested

/-- A condition grouped to the right, whichever connectives it has. -/
def Chain.nested : Chain → Condition
  | .last t => t.nested
  | .join t k rest => .join t.nested (sign k.kind).text rest.nested

end

/-- The condition has no `||` outside parentheses. -/
def Chain.isConjunction : Chain → Bool
  | .last _ => true
  | .join _ .and rest => rest.isConjunction
  | .join _ .or _ => false

mutual

/-- In every chain inside the term, all `||` stand before all `&&`. -/
def Term.orsFirst : Term → Bool
  | .atom _ => true
  | .group inner => inner.orsFirst

/-- In the condition and in every chain inside it, all `||` stand before all `&&`. -/
def Chain.orsFirst : Chain → Bool
  | .last t => t.orsFirst
  | .join t .and rest => t.orsFirst && rest.orsFirst && rest.isConjunction
  | .join t .or rest => t.orsFirst && rest.orsFirst

end

@[simp] theorem Term.value_group (v : Test → Bool) (c : Chain) :
    (Term.group c).value v = c.value v := by
  simp [Term.value, Chain.value]

@[simp] theorem Chain.value_last (v : Test → Bool) (t : Term) :
    (Chain.last t).value v = t.value v := by
  simp [Chain.value, Chain.upToOr, Chain.afterOr]

@[simp] theorem Chain.value_or (v : Test → Bool) (t : Term) (rest : Chain) :
    (Chain.join t .or rest).value v = (t.value v || rest.value v) := by
  simp [Chain.value, Chain.upToOr, Chain.afterOr]

theorem Chain.afterOr_of_isConjunction (v : Test → Bool) : ∀ c : Chain,
    c.isConjunction = true → c.afterOr v = false
  | .last _, _ => by simp [Chain.afterOr]
  | .join _ .and rest, h => by simpa [Chain.afterOr] using rest.afterOr_of_isConjunction v h
  | .join _ .or _, h => by simp [Chain.isConjunction] at h

/-- A `&&` before terms that `&&` alone joins needs both sides. -/
theorem Chain.value_and (v : Test → Bool) (t : Term) {rest : Chain}
    (h : rest.isConjunction = true) :
    (Chain.join t .and rest).value v = (t.value v && rest.value v) := by
  simp [Chain.value, Chain.upToOr, Chain.afterOr, rest.afterOr_of_isConjunction v h]

@[simp] theorem Chain.value_nested_and (v : Test → Bool) (t : Term) (rest : Chain) :
    (Chain.join t .and rest).nested.value v = (t.nested.value v && rest.nested.value v) := by
  simp [Chain.nested, Condition.value, Connective.kind, sign, Kind.spelling?]

@[simp] theorem Chain.value_nested_or (v : Test → Bool) (t : Term) (rest : Chain) :
    (Chain.join t .or rest).nested.value v = (t.nested.value v || rest.nested.value v) := by
  simp [Chain.nested, Condition.value, Connective.kind, sign, Kind.spelling?]

/-! ## The grammar groups to the right -/

theorem Atom.spelledTerm (a : Atom) : (Term.atom a).nested.SpelledTerm a.lexemes := by
  cases a with
  | name n => exact .name n
  | compare n k hk v hv => exact .compare n hk hv
  | truth k hk => exact .truth hk

mutual

theorem Term.spelledTerm : ∀ t : Term, t.nested.SpelledTerm t.lexemes
  | .atom a => a.spelledTerm
  | .group inner => .group inner.spelled

/-- A written condition spells its grouping to the right. -/
theorem Chain.spelled : ∀ c : Chain, c.nested.Spelled c.lexemes
  | .last t => .term t.spelledTerm
  | .join t k rest => .join k.kind_mem t.spelledTerm rest.spelled

end

/-! ## Where the readings agree -/

mutual

theorem Term.value_nested (v : Test → Bool) : ∀ t : Term, t.orsFirst = true →
    t.nested.value v = t.value v
  | .atom a, _ => by simp [Term.nested, Condition.value, Term.value]
  | .group inner, h => by
    rw [Term.value_group]
    exact inner.value_nested v h

/-- If all `||` stand before all `&&`, grouping to the right does not change the value. -/
theorem Chain.value_nested (v : Test → Bool) : ∀ c : Chain, c.orsFirst = true →
    c.nested.value v = c.value v
  | .last t, h => by
    rw [Chain.value_last]
    exact t.value_nested v h
  | .join t .and rest, h => by
    simp only [Chain.orsFirst, Bool.and_eq_true] at h
    obtain ⟨⟨ht, hr⟩, hc⟩ := h
    rw [Chain.value_nested_and, Chain.value_and v t hc, t.value_nested v ht,
      rest.value_nested v hr]
  | .join t .or rest, h => by
    simp only [Chain.orsFirst, Bool.and_eq_true] at h
    obtain ⟨ht, hr⟩ := h
    rw [Chain.value_nested_or, Chain.value_or, t.value_nested v ht, rest.value_nested v hr]

end

/-! ## Where the readings differ -/

section Valuations

variable {v w : Test → Bool}

mutual

theorem Term.value_congr : ∀ t : Term, (∀ x ∈ t.tests, v x = w x) →
    t.value v = t.value w ∧ t.nested.value v = t.nested.value w
  | .atom a, h => by
    have ha : v a.test = w a.test := h a.test (by simp [Term.tests])
    simp [Term.value, Term.nested, Condition.value, ha]
  | .group inner, h => by
    obtain ⟨hu, ha, hn⟩ := inner.value_congr h
    exact ⟨by simp [Chain.value, hu, ha], hn⟩

/-- In either reading the value depends only on the tests of the condition. -/
theorem Chain.value_congr : ∀ c : Chain, (∀ x ∈ c.tests, v x = w x) →
    c.upToOr v = c.upToOr w ∧ c.afterOr v = c.afterOr w ∧ c.nested.value v = c.nested.value w
  | .last t, h => by
    obtain ⟨ht, hn⟩ := t.value_congr h
    exact ⟨ht, rfl, hn⟩
  | .join t k rest, h => by
    obtain ⟨ht, hn⟩ := t.value_congr fun x hx => h x (by simp [Chain.tests, hx])
    obtain ⟨hu, ha, hr⟩ := rest.value_congr fun x hx => h x (by simp [Chain.tests, hx])
    cases k with
    | and => simp [Chain.upToOr, Chain.afterOr, ht, hn, hu, ha, hr]
    | or => simp [Chain.upToOr, Chain.afterOr, ht, hn, hu, ha, hr]

end

mutual

theorem Term.value_const (b : Bool) : ∀ t : Term,
    t.value (fun _ => b) = b ∧ t.nested.value (fun _ => b) = b
  | .atom a => by simp [Term.value, Term.nested, Condition.value]
  | .group inner => by
    obtain ⟨hv, hn⟩ := inner.value_const b
    exact ⟨by rw [Term.value_group, hv], hn⟩

/-- Where all tests have one value, so has the condition, in either reading. -/
theorem Chain.value_const (b : Bool) : ∀ c : Chain,
    c.value (fun _ => b) = b ∧ c.nested.value (fun _ => b) = b
  | .last t => by
    obtain ⟨hv, hn⟩ := t.value_const b
    exact ⟨by rw [Chain.value_last, hv], hn⟩
  | .join t .and rest => by
    obtain ⟨hv, hn⟩ := t.value_const b
    obtain ⟨hv', hn'⟩ := rest.value_const b
    refine ⟨?_, by rw [Chain.value_nested_and, hn, hn', Bool.and_self]⟩
    simp only [Chain.value] at hv'
    simp only [Chain.value, Chain.upToOr, Chain.afterOr, hv]
    cases b <;> simp_all
  | .join t .or rest => by
    obtain ⟨hv, hn⟩ := t.value_const b
    obtain ⟨hv', hn'⟩ := rest.value_const b
    rw [Chain.value_or, Chain.value_nested_or, hv, hn, hv', hn', Bool.or_self]
    exact ⟨rfl, rfl⟩

end

end Valuations

/-- A valuation that follows `v` on the tests `xs` and `w` on all others. -/
def overlay (xs : List Test) (v w : Test → Bool) : Test → Bool :=
  fun x => if x ∈ xs then v x else w x

theorem overlay_of_mem {xs : List Test} {x : Test} (h : x ∈ xs) (v w : Test → Bool) :
    overlay xs v w x = v x := if_pos h

theorem overlay_of_apart {xs ys : List Test} (h : ∀ a ∈ xs, ∀ b ∈ ys, a ≠ b) {x : Test}
    (hx : x ∈ ys) (v w : Test → Bool) : overlay xs v w x = w x :=
  if_neg fun hm => h x hm x hx rfl

/-- Terms with different tests can be given their values one by one. -/
theorem Chain.value_overlay {t : Term} {rest : Chain}
    (h : ∀ a ∈ t.tests, ∀ b ∈ rest.tests, a ≠ b) (v w : Test → Bool) :
    t.value (overlay t.tests v w) = t.value v ∧
    t.nested.value (overlay t.tests v w) = t.nested.value v ∧
    rest.value (overlay t.tests v w) = rest.value w ∧
    rest.nested.value (overlay t.tests v w) = rest.nested.value w ∧
    rest.afterOr (overlay t.tests v w) = rest.afterOr w := by
  obtain ⟨ht, hn⟩ := t.value_congr fun x hx => overlay_of_mem hx v w
  obtain ⟨hu, ha, hr⟩ := rest.value_congr fun x hx => overlay_of_apart h hx v w
  exact ⟨ht, hn, by rw [Chain.value, hu, ha, Chain.value], hr, ha⟩

/-- What follows a `||` can hold whatever stands before it. -/
theorem Chain.afterOr_const : ∀ c : Chain, c.isConjunction = false →
    c.afterOr (fun _ => true) = true
  | .last _, h => by simp [Chain.isConjunction] at h
  | .join _ .and rest, h => by simpa [Chain.afterOr] using rest.afterOr_const h
  | .join _ .or rest, _ => (rest.value_const true).1

mutual

theorem Term.exists_differs : ∀ t : Term, t.tests.Nodup → t.orsFirst = false →
    ∃ v, t.nested.value v ≠ t.value v
  | .atom _, _, h => by simp [Term.orsFirst] at h
  | .group inner, hn, h => by
    obtain ⟨v, hv⟩ := inner.exists_differs hn h
    exact ⟨v, by rwa [Term.value_group]⟩

/-- Where a `||` follows a `&&`, some valuation tells the readings apart. -/
theorem Chain.exists_differs : ∀ c : Chain, c.tests.Nodup → c.orsFirst = false →
    ∃ v, c.nested.value v ≠ c.value v
  | .last t, hn, h => by
    obtain ⟨v, hv⟩ := t.exists_differs hn h
    exact ⟨v, by rwa [Chain.value_last]⟩
  | .join t .or rest, hn, h => by
    obtain ⟨hnt, hnr, hd⟩ := List.nodup_append.1 hn
    -- the other side of the `||` is made false
    by_cases ht : t.orsFirst = true
    · have hr : rest.orsFirst = false := by simpa [Chain.orsFirst, ht] using h
      obtain ⟨w, hw⟩ := rest.exists_differs hnr hr
      obtain ⟨h₁, h₂, h₃, h₄, -⟩ := Chain.value_overlay hd (fun _ => false) w
      obtain ⟨hc, hc'⟩ := t.value_const false
      refine ⟨overlay t.tests (fun _ => false) w, ?_⟩
      rw [Chain.value_nested_or, Chain.value_or, h₁, h₂, h₃, h₄, hc, hc']
      simpa using hw
    · obtain ⟨v, hv⟩ := t.exists_differs hnt (by simpa using ht)
      obtain ⟨h₁, h₂, h₃, h₄, -⟩ := Chain.value_overlay hd v fun _ => false
      obtain ⟨hc, hc'⟩ := rest.value_const false
      refine ⟨overlay t.tests v fun _ => false, ?_⟩
      rw [Chain.value_nested_or, Chain.value_or, h₁, h₂, h₃, h₄, hc, hc']
      simpa using hv
  | .join t .and rest, hn, h => by
    obtain ⟨hnt, hnr, hd⟩ := List.nodup_append.1 hn
    by_cases hc : rest.isConjunction = true
    · -- only `&&` at this level: the other side is made true
      by_cases ht : t.orsFirst = true
      · have hr : rest.orsFirst = false := by simpa [Chain.orsFirst, ht, hc] using h
        obtain ⟨w, hw⟩ := rest.exists_differs hnr hr
        obtain ⟨h₁, h₂, h₃, h₄, -⟩ := Chain.value_overlay hd (fun _ => true) w
        obtain ⟨hv, hv'⟩ := t.value_const true
        refine ⟨overlay t.tests (fun _ => true) w, ?_⟩
        rw [Chain.value_nested_and, Chain.value_and _ t hc, h₁, h₂, h₃, h₄, hv, hv']
        simpa using hw
      · obtain ⟨v, hv⟩ := t.exists_differs hnt (by simpa using ht)
        obtain ⟨h₁, h₂, h₃, h₄, -⟩ := Chain.value_overlay hd v fun _ => true
        obtain ⟨hw, hw'⟩ := rest.value_const true
        refine ⟨overlay t.tests v fun _ => true, ?_⟩
        rw [Chain.value_nested_and, Chain.value_and _ t hc, h₁, h₂, h₃, h₄, hw, hw']
        simpa using hv
    · -- the term before the `&&` is false, and all that follows is true
      have hor : rest.isConjunction = false := by simpa using hc
      obtain ⟨-, h₂, -, -, h₅⟩ := Chain.value_overlay hd (fun _ => false) fun _ => true
      refine ⟨overlay t.tests (fun _ => false) fun _ => true, ?_⟩
      have hright : (Chain.join t .and rest).nested.value
          (overlay t.tests (fun _ => false) fun _ => true) = false := by
        rw [Chain.value_nested_and, h₂, (t.value_const false).2, Bool.false_and]
      have husual : (Chain.join t .and rest).value
          (overlay t.tests (fun _ => false) fun _ => true) = true := by
        simp [Chain.value, Chain.afterOr, h₅, rest.afterOr_const hor]
      rw [hright, husual]
      exact Bool.false_ne_true

end

/-- The valuation `v` with the truth literals given the values they name. -/
def literally (v : Test → Bool) : Test → Bool :=
  fun x => if x = .yes then true else if x = .no then false else v x

theorem faithful_literally (v : Test → Bool) : Faithful (literally v) :=
  ⟨by simp [literally], by simp [literally, Test.yes, Test.no]⟩

theorem literally_of_isOpen (v : Test → Bool) {x : Test} (h : x.isOpen = true) :
    literally v x = v x := by
  simp only [Test.isOpen, Bool.and_eq_true, bne_iff_ne] at h
  simp [literally, h]

/-- As long as no test is a truth literal, the readings are told apart by a valuation that
gives the literals their own values. -/
theorem Chain.exists_differs_faithful {c : Chain} (hn : c.tests.Nodup)
    (ho : c.tests.all Test.isOpen = true) (h : c.orsFirst = false) :
    ∃ v, Faithful v ∧ c.nested.value v ≠ c.value v := by
  obtain ⟨v, hv⟩ := c.exists_differs hn h
  have hopen := List.all_eq_true.1 ho
  obtain ⟨hu, ha, hr⟩ := c.value_congr fun x hx => literally_of_isOpen v (hopen x hx)
  refine ⟨literally v, faithful_literally v, ?_⟩
  rwa [hr, Chain.value, hu, ha]

/-! ## Conditions that are read -/

/-- A condition is read as its grouping to the right. That has the usual value if all `||`
stand before all `&&`; if the condition is made of different tests, none of them a truth
literal, it has the usual value under every valuation only then. -/
theorem condition_value_iff (c : Chain) (ls : List Lexeme)
    (hl : next ls ∉ Kind.comparisons ++ Kind.connectives) :
    condition.Reads (c.lexemes ++ ls) c.nested ls ∧
    (c.orsFirst = true → ∀ v, c.nested.value v = c.value v) ∧
    (c.tests.Nodup → c.tests.all Test.isOpen = true →
      ((∀ v, Faithful v → c.nested.value v = c.value v) ↔ c.orsFirst = true)) := by
  rw [List.mem_append, not_or] at hl
  refine ⟨Grammar.reads_condition c.spelled hl.1 hl.2, fun h v => c.value_nested v h, ?_⟩
  intro hn ho
  constructor
  · intro h
    cases hf : c.orsFirst with
    | true => rfl
    | false =>
      obtain ⟨v, hv, hne⟩ := Chain.exists_differs_faithful hn ho hf
      exact absurd (h v hv) hne
  · intro h v _
    exact c.value_nested v h

/-- The condition `a && b || c`, before the parenthesis that closes it: it is read as
`a && (b || c)`, and does not keep its value. -/
theorem condition_value_mixed :
    condition.Reads [name "a", sign .and, name "b", sign .or, name "c", sign .rightParen, eof]
      (.join (.test "a" "" "") "&&" (.join (.test "b" "" "") "||" (.test "c" "" "")))
      [sign .rightParen, eof] ∧
    ¬ ∀ v, Faithful v →
      (v ⟨"a", "", ""⟩ && (v ⟨"b", "", ""⟩ || v ⟨"c", "", ""⟩)) =
        (v ⟨"a", "", ""⟩ && v ⟨"b", "", ""⟩ || v ⟨"c", "", ""⟩) := by
  obtain ⟨hr, -, hiff⟩ := condition_value_iff
    (.join (.atom (.name "a")) .and (.join (.atom (.name "b")) .or (.last (.atom (.name "c")))))
    [sign .rightParen, eof] (by decide)
  refine ⟨hr, fun h => ?_⟩
  have hfalse := (hiff (by decide) (by decide)).1 fun v hv => by
    simpa [Chain.value, Chain.upToOr, Chain.afterOr, Term.value, Atom.test, Chain.nested,
      Term.nested, Condition.value, Connective.kind, sign, Kind.spelling?] using h v hv
  exact absurd hfalse (by decide)

end Offside
