import Offside.Proofs.Indentation
import Offside.Proofs.Languages

/-!
# Conditions can be read back

The text of a condition has parentheses around both sides of every connective, so that it is the
text of no other condition (`conditionText_unique`). A test has neither a parenthesis nor, in each
of its parts, a space; so its parts are told apart by its spaces, and it is told from two joined
conditions by its first character.

The induction is over texts with a closing parenthesis and more behind them
(`Condition.Formed.eq_of_closed`), so that no parentheses have to be counted: the left side of a
connective ends before such a parenthesis, and what follows it ends before another.
-/

namespace Offside

open Offside.Tree (connective conditionText)

/-! ## Conditions -/

/-- What may stand on the left of a comparison, or alone. -/
def Kind.subjects : List Kind := [.identifier, .trueLiteral, .falseLiteral]

/-- A condition made of names, truth literals, comparisons and the two connectives. -/
inductive Condition.Formed : Condition → Prop
  | alone {left : String} (hl : ∃ k ∈ Kind.subjects, k.Language left.toList) :
      Formed (.test left "" "")
  | compared {left operator right : String} (hl : ∃ k ∈ Kind.subjects, k.Language left.toList)
      (ho : ∃ k ∈ Kind.comparisons, k.spelling? = some operator)
      (hr : ∃ k ∈ Kind.operands, k.Language right.toList) : Formed (.test left operator right)
  | join {left right : Condition} {operator : String} (hl : Formed left)
      (ho : ∃ k ∈ Kind.connectives, k.spelling? = some operator) (hr : Formed right) :
      Formed (.join left operator right)

/-! ## Words -/

/-- A text without spaces and closing parentheses. -/
structure Unbroken (u : List Char) : Prop where
  space : ' ' ∉ u
  paren : ')' ∉ u

theorem unbroken_of_all {p : Char → Bool} {u : List Char} (h : ∀ c ∈ u, p c = true)
    (hp : p ' ' = false ∧ p ')' = false) : Unbroken u := by
  constructor
  · intro hm
    rw [h _ hm] at hp
    cases hp.1
  · intro hm
    rw [h _ hm] at hp
    cases hp.2

theorem unbroken_identifier {u : List Char} (h : isIdentifier u = true) : Unbroken u :=
  unbroken_of_all (isIdentifierPart_of_mem h) (by decide)

theorem exists_start {u : List Char} (h : isIdentifier u = true) :
    ∃ c cs, u = c :: cs ∧ isIdentifierStart c = true := by
  cases u with
  | nil => cases h
  | cons c cs => exact ⟨c, cs, rfl, (Bool.and_eq_true_iff.1 h).1⟩

theorem unbroken_numeral {u : List Char} (h : Numeral u) : Unbroken u := by
  have hdigits : Text.isDecimal ' ' = false ∧ Text.isDecimal ')' = false := by decide
  cases h with
  | whole hd => exact unbroken_of_all hd.decimal hdigits
  | fraction hd he =>
    obtain ⟨hspace, hparen⟩ := unbroken_of_all hd.decimal hdigits
    obtain ⟨hspace', hparen'⟩ := unbroken_of_all he.decimal hdigits
    constructor
    · simp [hspace, hspace']
    · simp [hparen, hparen']

/-- What stands on the left is spelled like an identifier, truth literals too. -/
theorem isIdentifier_of_subject {left : String}
    (h : ∃ k ∈ Kind.subjects, k.Language left.toList) : isIdentifier left.toList = true := by
  obtain ⟨k, hk, h⟩ := h
  simp only [Kind.subjects, List.mem_cons, List.not_mem_nil, or_false] at hk
  obtain rfl | rfl | rfl := hk
  · exact h
  · rw [Kind.Language.eq_spelling h rfl]
    decide
  · rw [Kind.Language.eq_spelling h rfl]
    decide

theorem unbroken_operand {right : String}
    (h : ∃ k ∈ Kind.operands, k.Language right.toList) : Unbroken right.toList := by
  obtain ⟨k, hk, h⟩ := h
  simp only [Kind.operands, List.mem_cons, List.not_mem_nil, or_false] at hk
  obtain rfl | rfl | rfl | rfl := hk
  · exact unbroken_numeral h
  · exact unbroken_identifier h
  · exact unbroken_identifier (isIdentifier_of_subject ⟨.trueLiteral, by decide, h⟩)
  · exact unbroken_identifier (isIdentifier_of_subject ⟨.falseLiteral, by decide, h⟩)

theorem unbroken_comparison {operator : String}
    (h : ∃ k ∈ Kind.comparisons, k.spelling? = some operator) :
    operator ≠ "" ∧ Unbroken operator.toList := by
  obtain ⟨k, hk, h⟩ := h
  have hsigns : Kind.comparisons.all (fun k => k.spelling?.all fun w =>
      w != "" && w.toList.all fun c => c != ' ' && c != ')') = true := by decide
  have hsign := List.all_eq_true.1 hsigns k hk
  rw [h, Option.all_some, Bool.and_eq_true, List.all_eq_true, bne_iff_ne] at hsign
  exact ⟨hsign.1, unbroken_of_all hsign.2 (by decide)⟩

theorem eq_of_connective {operator : String}
    (h : ∃ k ∈ Kind.connectives, k.spelling? = some operator) :
    operator = "&&" ∨ operator = "||" := by
  obtain ⟨k, hk, h⟩ := h
  simp only [Kind.connectives, List.mem_cons, List.not_mem_nil, or_false] at hk
  obtain rfl | rfl := hk
  · exact .inl (Option.some.inj h).symm
  · exact .inr (Option.some.inj h).symm

/-- The connectives are written as different words. -/
theorem connective_inj {operator operator' : String}
    (h : ∃ k ∈ Kind.connectives, k.spelling? = some operator)
    (h' : ∃ k ∈ Kind.connectives, k.spelling? = some operator')
    (he : connective operator = connective operator') : operator = operator' := by
  obtain rfl | rfl := eq_of_connective h
  · obtain rfl | rfl := eq_of_connective h'
    · rfl
    · simp [connective] at he
  · obtain rfl | rfl := eq_of_connective h'
    · simp [connective] at he
    · rfl

theorem space_not_mem_connective (operator : String) : ' ' ∉ (connective operator).toList := by
  unfold connective
  split <;> decide

/-! ## Texts -/

/-- A text is cut in one way at the first of some character. -/
theorem cut_unique {a : Char} {u v t w : List Char} (hu : a ∉ u) (hv : a ∉ v)
    (h : u ++ a :: t = v ++ a :: w) : u = v ∧ t = w := by
  induction u generalizing v with
  | nil =>
    cases v with
    | nil => simpa using h
    | cons d v =>
      obtain ⟨rfl, -⟩ := List.cons.inj h
      exact absurd List.mem_cons_self hv
  | cons c u ih =>
    cases v with
    | nil =>
      obtain ⟨rfl, -⟩ := List.cons.inj h
      exact absurd List.mem_cons_self hu
    | cons d v =>
      obtain ⟨rfl, htail⟩ := List.cons.inj h
      obtain ⟨rfl, rfl⟩ := ih (fun hm => hu (.tail _ hm)) (fun hm => hv (.tail _ hm)) htail
      exact ⟨rfl, rfl⟩

namespace Condition

theorem toList_text_alone (left : String) : (test left "" "").text.toList = left.toList := by
  simp [text]

theorem toList_text_compared (left right : String) {operator : String} (ho : operator ≠ "") :
    (test left operator right).text.toList =
      left.toList ++ ' ' :: (operator.toList ++ ' ' :: right.toList) := by
  simp [text, ho]

theorem toList_text_join (left right : Condition) (operator : String) :
    (join left operator right).text.toList = '(' :: (left.text.toList ++ ')' :: ' ' ::
      ((connective operator).toList ++ ' ' :: '(' :: (right.text.toList ++ [')']))) := by
  simp [text]

/-- A test starts like an identifier and has no closing parenthesis. -/
theorem Formed.test_text {left operator right : String} (h : Formed (test left operator right)) :
    (∃ c cs, (test left operator right).text.toList = c :: cs ∧ isIdentifierStart c = true) ∧
      ')' ∉ (test left operator right).text.toList := by
  cases h with
  | alone hl =>
    have hname := isIdentifier_of_subject hl
    rw [toList_text_alone]
    exact ⟨exists_start hname, (unbroken_identifier hname).paren⟩
  | compared hl ho hr =>
    have hname := isIdentifier_of_subject hl
    obtain ⟨hne, hsign⟩ := unbroken_comparison ho
    obtain ⟨c, cs, hcs, hc⟩ := exists_start hname
    rw [toList_text_compared left right hne]
    constructor
    · exact ⟨c, _, by rw [hcs]; rfl, hc⟩
    · simp [(unbroken_identifier hname).paren, hsign.paren, (unbroken_operand hr).paren]

/-- Tests of the same text are the same. -/
theorem Formed.test_inj {left operator right left' operator' right' : String}
    (h : Formed (test left operator right)) (h' : Formed (test left' operator' right'))
    (he : (test left operator right).text.toList = (test left' operator' right').text.toList) :
    test left operator right = test left' operator' right' := by
  cases h with
  | alone hl =>
    have hspace := (unbroken_identifier (isIdentifier_of_subject hl)).space
    cases h' with
    | alone hl' =>
      rw [toList_text_alone, toList_text_alone, String.toList_inj] at he
      rw [he]
    | compared hl' ho' hr' =>
      rw [toList_text_alone, toList_text_compared left' right' (unbroken_comparison ho').1] at he
      simp [he] at hspace
  | compared hl ho hr =>
    have hspace := (unbroken_identifier (isIdentifier_of_subject hl)).space
    obtain ⟨hne, hsign⟩ := unbroken_comparison ho
    rw [toList_text_compared left right hne] at he
    cases h' with
    | alone hl' =>
      have hspace' := (unbroken_identifier (isIdentifier_of_subject hl')).space
      rw [toList_text_alone] at he
      simp [← he] at hspace'
    | compared hl' ho' hr' =>
      have hspace' := (unbroken_identifier (isIdentifier_of_subject hl')).space
      obtain ⟨hne', hsign'⟩ := unbroken_comparison ho'
      rw [toList_text_compared left' right' hne'] at he
      obtain ⟨hleft, he⟩ := cut_unique hspace hspace' he
      obtain ⟨hoperator, hright⟩ := cut_unique hsign.space hsign'.space he
      rw [String.toList_inj] at hleft hoperator hright
      rw [hleft, hoperator, hright]

/-- No test has the text of two joined conditions, whatever follows. -/
theorem Formed.test_ne_join {left operator right : String} (h : Formed (test left operator right))
    (l r : Condition) (o : String) (t u : List Char) :
    (test left operator right).text.toList ++ t ≠ (Condition.join l o r).text.toList ++ u := by
  obtain ⟨⟨c, cs, hcs, hc⟩, -⟩ := h.test_text
  intro he
  rw [hcs, toList_text_join, List.cons_append, List.cons_append] at he
  obtain ⟨rfl, -⟩ := List.cons.inj he
  exact absurd hc (by decide)

/-- Before a closing parenthesis, a condition is told from what follows it. -/
theorem Formed.eq_of_closed {c d : Condition} (hc : c.Formed) (hd : d.Formed) {t u : List Char}
    (h : c.text.toList ++ ')' :: t = d.text.toList ++ ')' :: u) : c = d ∧ t = u := by
  induction c generalizing d t u with
  | test left operator right =>
    cases d with
    | test left' operator' right' =>
      obtain ⟨htext, hrest⟩ := cut_unique hc.test_text.2 hd.test_text.2 h
      exact ⟨hc.test_inj hd htext, hrest⟩
    | join l o r => exact absurd h (hc.test_ne_join l r o _ _)
  | join left operator right ihl ihr =>
    cases d with
    | test left' operator' right' => exact absurd h.symm (hd.test_ne_join left right operator _ _)
    | join left' operator' right' =>
      cases hc with
      | join hl ho hr =>
        cases hd with
        | join hl' ho' hr' =>
          rw [toList_text_join, toList_text_join] at h
          simp only [List.cons_append, List.append_assoc, List.cons.injEq, true_and,
            List.nil_append] at h
          -- the left sides end first, then the connectives, then the right sides
          obtain ⟨hleft, hrest⟩ := ihl hl hl' h
          obtain ⟨hword, hrest⟩ := cut_unique (space_not_mem_connective operator)
            (space_not_mem_connective operator') (List.cons.inj hrest).2
          have hoperator := connective_inj ho ho' (String.toList_inj.1 hword)
          obtain ⟨hright, hrest⟩ := ihr hr hr' (List.cons.inj hrest).2
          exact ⟨by rw [hleft, hoperator, hright], (List.cons.inj hrest).2⟩

end Condition

/-- A condition has a text, and no other condition has the same. -/
theorem conditionText_unique {c d : Condition} (hc : c.Formed) (hd : d.Formed) :
    (∃ t, conditionText c.toTree = .ok t) ∧
    (conditionText c.toTree = conditionText d.toTree ↔ c = d) := by
  refine ⟨⟨c.text, conditionText_eq c⟩, ?_, ?_⟩
  · intro h
    rw [conditionText_eq, conditionText_eq, Except.ok.injEq] at h
    exact (hc.eq_of_closed hd (t := []) (u := []) (by rw [h])).1
  · rintro rfl
    rfl

/-- Variables that are called like the words for the connectives, in two groupings. -/
theorem conditionText_unique_grouping : ∃ c d e : Condition,
    c = .test "and" "" "" ∧ d = .test "or" "<" "5" ∧ e = .test "or" "" "" ∧
    (Condition.join (.join c "&&" d) "||" e).Formed ∧
    (Condition.join c "&&" (.join d "||" e)).Formed ∧
    conditionText (Condition.join (.join c "&&" d) "||" e).toTree ≠
      conditionText (Condition.join c "&&" (.join d "||" e)).toTree := by
  have hand : ∃ k ∈ Kind.subjects, k.Language "and".toList := ⟨.identifier, by decide, rfl⟩
  have hor : ∃ k ∈ Kind.subjects, k.Language "or".toList := ⟨.identifier, by decide, rfl⟩
  have hfive : ∃ k ∈ Kind.operands, k.Language "5".toList :=
    ⟨.number, by decide, .whole ⟨by decide, List.all_eq_true.1 (by decide)⟩⟩
  have hc : (Condition.test "and" "" "").Formed := .alone hand
  have hd : (Condition.test "or" "<" "5").Formed := .compared hor ⟨.lt, by decide, rfl⟩ hfive
  have he : (Condition.test "or" "" "").Formed := .alone hor
  have hboth : ∃ k ∈ Kind.connectives, k.spelling? = some "&&" := ⟨.and, by decide, rfl⟩
  have heither : ∃ k ∈ Kind.connectives, k.spelling? = some "||" := ⟨.or, by decide, rfl⟩
  have hleft := (hc.join hboth hd).join heither he
  have hright := hc.join hboth (hd.join heither he)
  exact ⟨_, _, _, rfl, rfl, rfl, hleft, hright,
    fun h => absurd ((conditionText_unique hleft hright).2.1 h) (by decide)⟩

end Offside
