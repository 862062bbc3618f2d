import Offside.Grammar.Statement

/-!
# The grammar makes progress

Every rule of the grammar goes forward only, and takes a token whenever it
succeeds, the sole exception being a statement at the end of the text. Hence the
recursive rules solve the equations by which they are meant: `condition_eq`,
`skip_eq`, `branch_eq`, `statement_eq`, and `statements_eq` for sequences of
statements.
-/

namespace Offside.Grammar

open Offside.Parser

variable {α β : Type}

/-! ## Conditions -/

theorem forward_comparison (name : String) : Forward (comparison name) :=
  (forward_inspect _).bind fun _ => forward_ite
    (forward_pop.bind fun _ => (forward_inspect _).bind fun _ => forward_ite
      (forward_pop.bind fun _ => forward_pure _) (forward_fail _))
    (forward_pure _)

theorem forward_term {inner : Parser Condition} (h : Forward inner) : Forward (term inner) :=
  (forward_inspect _).bind fun _ => forward_ite
    (forward_pop.bind fun _ => forward_comparison _)
    (forward_ite (forward_pop.bind fun _ => forward_pure _)
      (forward_ite
        (forward_pop.bind fun _ => h.bind fun _ => (forward_expect _ _).bind fun _ =>
          forward_pure _)
        (forward_fail _)))

theorem consumes_term {inner : Parser Condition} (h : Forward inner) : Consumes (term inner) :=
  (forward_inspect _).bind_consumes fun _ => consumes_ite
    (consumes_pop.bind fun _ => forward_comparison _)
    (consumes_ite (consumes_pop.bind fun _ => forward_pure _)
      (consumes_ite
        (consumes_pop.bind fun _ => h.bind fun _ => (forward_expect _ _).bind fun _ =>
          forward_pure _)
        (consumes_fail _)))

theorem forward_connectedOf {inner : Parser Condition} (h : Forward inner)
    (left : Condition) : Forward (connectedOf inner left) :=
  (forward_inspect _).bind fun _ => forward_ite
    (forward_pop.bind fun _ => h.bind fun _ => forward_pure _) (forward_pure _)

theorem forward_conditionOf {inner : Parser Condition} (h : Forward inner) :
    Forward (conditionOf inner) :=
  (forward_term h).bind (forward_connectedOf h)

theorem term_congr {p q : Parser Condition} {c : Cursor} (h : AgreeBelow c.remaining p q) :
    term p c = term q c := by
  unfold term
  refine bind_congr rfl fun t c₀ h₀ => ?_
  cases h₀
  split
  · rfl
  · split
    · rfl
    · split
      · refine bind_congr rfl fun _ c₁ h₁ => ?_
        exact bind_congr (h c₁ (consumes_pop _ _ _ h₁)) fun _ _ _ => rfl
      · rfl

theorem guarded_conditionOf : Guarded conditionOf where
  forward _ h := forward_conditionOf h
  agree p q c _ hq h := by
    unfold conditionOf
    refine bind_congr (term_congr h) fun left c₁ h₁ => ?_
    have hc₁ := consumes_term hq _ _ _ h₁
    unfold connectedOf
    refine bind_congr rfl fun _ c₂ h₂ => ?_
    cases h₂
    split
    · refine bind_congr rfl fun _ c₃ h₃ => ?_
      have hc₃ := consumes_pop _ _ _ h₃
      exact bind_congr (h c₃ (Nat.lt_trans hc₃ hc₁)) fun _ _ _ => rfl
    · rfl

/-- A condition is a term, or a term, a connective and a condition. -/
theorem condition_eq : condition = conditionOf condition := fix_eq guarded_conditionOf

theorem forward_condition : Forward condition :=
  forward_fix fun _ h => forward_conditionOf h

theorem consumes_condition : Consumes condition := by
  rw [condition_eq]
  exact (consumes_term forward_condition).bind (forward_connectedOf forward_condition)

/-! ## Statements without a body -/

theorem forward_print : Forward print :=
  (forward_expect _ _).bind fun _ => (forward_expect _ _).bind fun _ =>
  (forward_expect _ _).bind fun _ => (forward_expect _ _).bind fun _ =>
  (forward_expect _ _).bind fun _ => forward_ite
    ((forward_expect _ _).bind fun _ => (forward_inspect _).bind fun _ => forward_ite
      (forward_pop.bind fun _ => (forward_expect _ _).bind fun _ =>
        (forward_expect _ _).bind fun _ => forward_pure _)
      (forward_fail _))
    (forward_fail _)

theorem consumes_print : Consumes print :=
  (consumes_expect _ _).bind fun _ => (forward_expect _ _).bind fun _ =>
  (forward_expect _ _).bind fun _ => (forward_expect _ _).bind fun _ =>
  (forward_expect _ _).bind fun _ => forward_ite
    ((forward_expect _ _).bind fun _ => (forward_inspect _).bind fun _ => forward_ite
      (forward_pop.bind fun _ => (forward_expect _ _).bind fun _ =>
        (forward_expect _ _).bind fun _ => forward_pure _)
      (forward_fail _))
    (forward_fail _)

theorem forward_declarationRest (type : Token) :
    Forward (do
      let name ← expect .identifier none
      let _ ← expect .assign none
      let t ← look 0
      if t.kind ∈ Kind.values then
        let value ← pop
        let _ ← expect .semicolon (some ";")
        return ⟨name.text, value.text, Text.lower type.text⟩
      else fail (.expectedValue t) : Parser Binding) :=
  (forward_expect _ _).bind fun _ => (forward_expect _ _).bind fun _ =>
  (forward_inspect _).bind fun _ => forward_ite
    (forward_pop.bind fun _ => (forward_expect _ _).bind fun _ => forward_pure _)
    (forward_fail _)

theorem forward_declaration : Forward declaration :=
  forward_pop.bind forward_declarationRest

theorem consumes_declaration : Consumes declaration :=
  consumes_pop.bind forward_declarationRest

theorem forward_step : Forward step :=
  forward_pop.bind fun _ => forward_pop.bind fun _ => forward_pure _

theorem consumes_step : Consumes step :=
  consumes_pop.bind fun _ => forward_pop.bind fun _ => forward_pure _

theorem forward_skipOf {more : Parser Unit} (h : Forward more) : Forward (skipOf more) :=
  (forward_inspect _).bind fun _ => forward_ite
    (forward_pop.bind fun _ => forward_pure _)
    (forward_ite (forward_pure _) (forward_pop.bind fun _ => h))

theorem guarded_skipOf : Guarded skipOf where
  forward _ h := forward_skipOf h
  agree p q c _ _ h := by
    unfold skipOf
    refine bind_congr rfl fun kind c₀ h₀ => ?_
    cases h₀
    split
    · rfl
    · split
      · rfl
      · exact bind_congr rfl fun _ c₁ h₁ => h c₁ (consumes_pop _ _ _ h₁)

/-- Passing over goes on token by token. -/
theorem skip_eq : skip = skipOf skip := fix_eq guarded_skipOf

theorem forward_skip : Forward skip := forward_fix fun _ h => forward_skipOf h

/-- Before the end of the text, passing over takes a token. -/
theorem skip_lt {c c' : Cursor} (hc : c.kindAt 0 ≠ .eof) (h : skip c = (.ok (), c')) :
    c'.remaining < c.remaining := by
  rw [skip_eq] at h
  obtain ⟨kind, c₀, h₀, h₁⟩ := bind_ok h
  cases h₀
  split at h₁
  · exact (consumes_pop.bind fun _ => forward_pure _) _ _ _ h₁
  · exact (consumes_pop.bind fun _ => forward_skip) _ _ _ h₁

/-! ## Statements with a body -/

theorem forward_statementsOf (stops : List Kind) {statement : Parser (Option Statement)}
    (hs : Forward statement) {more : Parser (List Statement)} (hm : Forward more) :
    Forward (statementsOf stops statement more) :=
  (forward_inspect _).bind fun _ => forward_ite (forward_pure _)
    (hs.bind fun _ => hm.bind fun _ => forward_pure _)

theorem forward_statements (stops : List Kind) {statement : Parser (Option Statement)}
    (hs : Forward statement) : Forward (statements stops statement) :=
  forward_fix fun _ hm => forward_statementsOf stops hs hm

theorem agree_statements (stops : List Kind) {n : Nat} {p q : Parser (Option Statement)}
    (hp : Forward p) (h : AgreeBelow n p q) :
    AgreeBelow n (statements stops p) (statements stops q) := by
  refine fix_congr (fun _ hm => forward_statementsOf stops hp hm) fun more c _ hc => ?_
  unfold statementsOf
  refine bind_congr rfl fun _ c₀ h₀ => ?_
  cases h₀
  split
  · rfl
  · exact bind_congr (h c hc) fun _ _ _ => rfl

theorem forward_block {statement : Parser (Option Statement)} (hs : Forward statement) :
    Forward (block statement) :=
  (forward_expect _ _).bind fun _ => (forward_statements _ hs).bind fun _ =>
  (forward_expect _ _).bind fun _ => forward_pure _

theorem agree_block {n : Nat} {p q : Parser (Option Statement)} (hp : Forward p)
    (h : AgreeBelow n p q) : AgreeBelow n (block p) (block q) := by
  intro c hc
  unfold block
  refine bind_congr rfl fun _ c₁ h₁ => ?_
  have hc₁ := consumes_expect _ _ _ _ _ h₁
  exact bind_congr (agree_statements _ hp h c₁ (Nat.lt_trans hc₁ hc)) fun _ _ _ => rfl

theorem forward_guardedBlock {statement : Parser (Option Statement)} (hs : Forward statement) :
    Forward (guardedBlock statement) :=
  (forward_expect _ _).bind fun _ => forward_condition.bind fun _ =>
  (forward_expect _ _).bind fun _ => (forward_block hs).bind fun _ => forward_pure _

theorem agree_guardedBlock {n : Nat} {p q : Parser (Option Statement)} (hp : Forward p)
    (h : AgreeBelow n p q) : AgreeBelow n (guardedBlock p) (guardedBlock q) := by
  intro c hc
  unfold guardedBlock
  refine bind_congr rfl fun _ c₁ h₁ => bind_congr rfl fun _ c₂ h₂ =>
    bind_congr rfl fun _ c₃ h₃ => ?_
  have hc₁ := consumes_expect _ _ _ _ _ h₁
  have hc₂ := consumes_condition _ _ _ h₂
  have hc₃ := consumes_expect _ _ _ _ _ h₃
  exact bind_congr (agree_block hp h c₃ (by omega)) fun _ _ _ => rfl

theorem forward_otherwiseOf {statement : Parser (Option Statement)} (hs : Forward statement)
    {inner : Parser Branch} (hi : Forward inner) : Forward (otherwiseOf statement inner) :=
  (forward_inspect _).bind fun _ => forward_ite
    (forward_pop.bind fun _ => (forward_inspect _).bind fun _ => forward_ite
      (hi.bind fun _ => forward_pure _) ((forward_block hs).bind fun _ => forward_pure _))
    (forward_pure _)

theorem forward_branchOf {statement : Parser (Option Statement)} (hs : Forward statement)
    {inner : Parser Branch} (hi : Forward inner) : Forward (branchOf statement inner) :=
  (forward_expect _ _).bind fun _ => (forward_guardedBlock hs).bind fun _ =>
  (forward_otherwiseOf hs hi).bind fun _ => forward_pure _

theorem forward_branch {statement : Parser (Option Statement)} (hs : Forward statement) :
    Forward (branch statement) := forward_fix fun _ hi => forward_branchOf hs hi

theorem otherwiseOf_congr {c : Cursor} {p q : Parser (Option Statement)} {i j : Parser Branch}
    (hb : AgreeBelow c.remaining (block p) (block q)) (hi : AgreeBelow c.remaining i j) :
    otherwiseOf p i c = otherwiseOf q j c := by
  unfold otherwiseOf
  refine bind_congr rfl fun _ c₁ h₁ => ?_
  cases h₁
  split
  · refine bind_congr rfl fun _ c₂ h₂ => bind_congr rfl fun _ c₃ h₃ => ?_
    have hc₂ := consumes_pop _ _ _ h₂
    cases h₃
    split
    · exact bind_congr (hi c₂ hc₂) fun _ _ _ => rfl
    · exact bind_congr (hb c₂ hc₂) fun _ _ _ => rfl
  · rfl

theorem guarded_branchOf {statement : Parser (Option Statement)} (hs : Forward statement) :
    Guarded (branchOf statement) where
  forward _ hi := forward_branchOf hs hi
  agree p q c _ _ h := by
    unfold branchOf
    refine bind_congr rfl fun _ c₁ h₁ => bind_congr rfl fun _ c₂ h₂ => ?_
    have hc₁ := consumes_expect _ _ _ _ _ h₁
    have hc₂ := (forward_guardedBlock hs).remaining_le h₂
    refine bind_congr (otherwiseOf_congr (fun _ _ => rfl) (h.mono ?_)) fun _ _ _ => rfl
    omega

/-- A branch may be followed by another one after `else`. -/
theorem branch_eq {statement : Parser (Option Statement)} (hs : Forward statement) :
    branch statement = branchOf statement (branch statement) := fix_eq (guarded_branchOf hs)

theorem consumes_branch {statement : Parser (Option Statement)} (hs : Forward statement) :
    Consumes (branch statement) := by
  rw [branch_eq hs]
  exact (consumes_expect _ _).bind fun _ => (forward_guardedBlock hs).bind fun _ =>
    (forward_otherwiseOf hs (forward_branch hs)).bind fun _ => forward_pure _

/-- Branches agree wherever their inner statements agree below. -/
theorem branch_congr {c : Cursor} {p q : Parser (Option Statement)} (hp : Forward p)
    (h : AgreeBelow c.remaining p q) : branch p c = branch q c := by
  refine fix_congr (fun _ hi => forward_branchOf hp hi)
    (fun inner c' _ hc' => ?_) c (Nat.lt_succ_self _)
  unfold branchOf
  refine bind_congr rfl fun _ c₁ h₁ => ?_
  have hc₁ := consumes_expect _ _ _ _ _ h₁
  have hb := agree_guardedBlock hp h c₁ (by omega)
  refine bind_congr hb fun _ c₂ h₂ => ?_
  have hc₂ := (forward_guardedBlock hp).remaining_le (hb.trans h₂)
  have hlast : AgreeBelow c₂.remaining (block p) (block q) :=
    (agree_block hp h).mono (by omega)
  exact bind_congr (otherwiseOf_congr hlast fun _ _ => rfl) fun _ _ _ => rfl

theorem forward_repeatWhile {statement : Parser (Option Statement)} (hs : Forward statement) :
    Forward (repeatWhile statement) :=
  (forward_expect _ _).bind fun _ => (forward_guardedBlock hs).bind fun _ => forward_pure _

theorem consumes_repeatWhile {statement : Parser (Option Statement)} (hs : Forward statement) :
    Consumes (repeatWhile statement) :=
  (consumes_expect _ _).bind fun _ => (forward_guardedBlock hs).bind fun _ => forward_pure _

theorem repeatWhile_congr {c : Cursor} {p q : Parser (Option Statement)} (hp : Forward p)
    (h : AgreeBelow c.remaining p q) : repeatWhile p c = repeatWhile q c := by
  unfold repeatWhile
  refine bind_congr rfl fun _ c₁ h₁ => ?_
  have hc₁ := consumes_expect _ _ _ _ _ h₁
  exact bind_congr (agree_guardedBlock hp h c₁ hc₁) fun _ _ _ => rfl

theorem forward_countFirst : Forward countFirst :=
  (forward_inspect _).bind fun _ => forward_ite (forward_pure _)
    (forward_ite
      (forward_pop.bind fun _ => (forward_expect _ _).bind fun _ =>
        (forward_expect _ _).bind fun _ => forward_pop.bind fun _ => forward_pure _)
      ((forward_inspect _).bind fun _ => forward_ite
        ((forward_expect _ _).bind fun _ => (forward_expect _ _).bind fun _ =>
          forward_pop.bind fun _ => forward_pure _)
        (forward_pure _)))

theorem forward_countCondition : Forward countCondition :=
  (forward_inspect _).bind fun _ => forward_ite (forward_pure _)
    (forward_condition.bind fun _ => forward_pure _)

theorem forward_countUpdate : Forward countUpdate :=
  (forward_inspect _).bind fun _ => forward_ite
    (forward_step.bind fun _ => forward_pure _) (forward_pure _)

theorem forward_count {statement : Parser (Option Statement)} (hs : Forward statement) :
    Forward (count statement) :=
  (forward_expect _ _).bind fun _ => (forward_expect _ _).bind fun _ =>
  forward_countFirst.bind fun _ => (forward_expect _ _).bind fun _ =>
  forward_countCondition.bind fun _ => (forward_expect _ _).bind fun _ =>
  forward_countUpdate.bind fun _ => (forward_expect _ _).bind fun _ =>
  (forward_block hs).bind fun _ => forward_pure _

theorem consumes_count {statement : Parser (Option Statement)} (hs : Forward statement) :
    Consumes (count statement) :=
  (consumes_expect _ _).bind fun _ => (forward_expect _ _).bind fun _ =>
  forward_countFirst.bind fun _ => (forward_expect _ _).bind fun _ =>
  forward_countCondition.bind fun _ => (forward_expect _ _).bind fun _ =>
  forward_countUpdate.bind fun _ => (forward_expect _ _).bind fun _ =>
  (forward_block hs).bind fun _ => forward_pure _

theorem count_congr {c : Cursor} {p q : Parser (Option Statement)} (hp : Forward p)
    (h : AgreeBelow c.remaining p q) : count p c = count q c := by
  unfold count
  refine bind_congr rfl fun _ c₁ h₁ => bind_congr rfl fun _ c₂ h₂ =>
    bind_congr rfl fun _ c₃ h₃ => bind_congr rfl fun _ c₄ h₄ =>
    bind_congr rfl fun _ c₅ h₅ => bind_congr rfl fun _ c₆ h₆ =>
    bind_congr rfl fun _ c₇ h₇ => bind_congr rfl fun _ c₈ h₈ => ?_
  have hc₁ := consumes_expect _ _ _ _ _ h₁
  have hc₂ := consumes_expect _ _ _ _ _ h₂
  have hc₃ := forward_countFirst.remaining_le h₃
  have hc₄ := consumes_expect _ _ _ _ _ h₄
  have hc₅ := forward_countCondition.remaining_le h₅
  have hc₆ := consumes_expect _ _ _ _ _ h₆
  have hc₇ := forward_countUpdate.remaining_le h₇
  have hc₈ := consumes_expect _ _ _ _ _ h₈
  exact bind_congr (agree_block hp h c₈ (by omega)) fun _ _ _ => rfl

/-! ## All statements -/

theorem forward_statementOf {inner : Parser (Option Statement)} (hi : Forward inner) :
    Forward (statementOf inner) :=
  (forward_inspect _).bind fun _ => (forward_inspect _).bind fun _ => forward_ite
    (forward_print.bind fun _ => forward_pure _)
    (forward_ite (forward_declaration.bind fun _ => forward_pure _)
      (forward_ite ((forward_branch hi).bind fun _ => forward_pure _)
        (forward_ite ((forward_repeatWhile hi).bind fun _ => forward_pure _)
          (forward_ite ((forward_count hi).bind fun _ => forward_pure _)
            ((forward_inspect _).bind fun _ => forward_ite
              (forward_step.bind fun _ => forward_pop.bind fun _ => forward_pure _)
              (forward_skip.bind fun _ => forward_pure _))))))

theorem guarded_statementOf : Guarded statementOf where
  forward _ hi := forward_statementOf hi
  agree p q c hp _ h := by
    unfold statementOf
    refine bind_congr rfl fun _ c₁ h₁ => bind_congr rfl fun _ c₂ h₂ => ?_
    cases h₁
    cases h₂
    split
    · rfl
    · split
      · rfl
      · split
        · exact bind_congr (branch_congr hp h) fun _ _ _ => rfl
        · split
          · exact bind_congr (repeatWhile_congr hp h) fun _ _ _ => rfl
          · split
            · exact bind_congr (count_congr hp h) fun _ _ _ => rfl
            · rfl

/-- Statements stand inside statements. -/
theorem statement_eq : statement = statementOf statement := fix_eq guarded_statementOf

theorem forward_statement : Forward statement :=
  forward_fix fun _ hi => forward_statementOf hi

/-- A rule for statements that goes forward, and takes a token wherever the text has not
ended. -/
structure Advances (p : Parser (Option Statement)) : Prop where
  forward : Forward p
  lt : ∀ (c c' : Cursor) (s : Option Statement), c.kindAt 0 ≠ .eof → p c = (.ok s, c') →
    c'.remaining < c.remaining

/-- Before the end of the text, a statement takes a token, whatever reads the statements
inside it. -/
theorem advances_statementOf {inner : Parser (Option Statement)} (hi : Forward inner) :
    Advances (statementOf inner) where
  forward := forward_statementOf hi
  lt c c' s hc h := by
    obtain ⟨kind, c₁, h₁, h⟩ := bind_ok h
    obtain ⟨_, c₂, h₂, h⟩ := bind_ok h
    cases h₁
    cases h₂
    split at h
    · exact (consumes_print.bind fun _ => forward_pure _) _ _ _ h
    split at h
    · exact (consumes_declaration.bind fun _ => forward_pure _) _ _ _ h
    split at h
    · exact ((consumes_branch hi).bind fun _ => forward_pure _) _ _ _ h
    split at h
    · exact ((consumes_repeatWhile hi).bind fun _ => forward_pure _) _ _ _ h
    split at h
    · exact ((consumes_count hi).bind fun _ => forward_pure _) _ _ _ h
    obtain ⟨_, c₃, h₃, h⟩ := bind_ok h
    cases h₃
    split at h
    · exact (consumes_step.bind fun _ => forward_pop.bind fun _ => forward_pure _) _ _ _ h
    · obtain ⟨u, c₄, h₄, h⟩ := bind_ok h
      cases h
      exact skip_lt hc h₄

theorem advances_statement : Advances statement := by
  rw [statement_eq]
  exact advances_statementOf forward_statement

theorem guarded_statementsOf {stops : List Kind} (hstops : .eof ∈ stops)
    {statement : Parser (Option Statement)} (hs : Advances statement) :
    Guarded (statementsOf stops statement) where
  forward _ hm := forward_statementsOf stops hs.forward hm
  agree p q c _ _ h := by
    unfold statementsOf
    refine bind_congr rfl fun _ c₁ h₁ => ?_
    cases h₁
    split
    · rfl
    · next hk =>
      have hne : c.kindAt 0 ≠ .eof := by
        intro he
        apply hk
        show c.kindAt 0 ∈ stops
        rw [he]
        exact hstops
      refine bind_congr rfl fun _ c₂ h₂ => ?_
      exact bind_congr (h c₂ (hs.lt _ _ _ hne h₂)) fun _ _ _ => rfl

/-- A sequence of statements ends at a stop, or goes on after a statement. -/
theorem statements_eq {stops : List Kind} (hstops : .eof ∈ stops) :
    statements stops statement = statementsOf stops statement (statements stops statement) :=
  fix_eq (guarded_statementsOf hstops advances_statement)

end Offside.Grammar
