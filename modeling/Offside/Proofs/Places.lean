import Offside.Proofs.Reading

/-!
# The grammar does not ask for places

Two cursors that see the same lexemes are told apart by no rule of the grammar. Where
a rule gives a value before one of them, it gives the same value before the other, and
where it fails it fails before both, with errors of one sort: only the token that an
error names may stand in another place. `Parser.Alike` says this of two parsers, so
that what follows a token may depend on the token; the lemmas go through the grammar
rule by rule, up to `alike_statements`.
-/

namespace Offside

namespace Parser

variable {α β : Type}

/-- The same value, with the same lexemes left, or two errors of one sort. -/
def SameOutcome : Except GrammarError α × Cursor → Except GrammarError α × Cursor → Prop
  | (.ok a, c), (.ok b, d) => a = b ∧ ∃ ls, c.Sees ls ∧ d.Sees ls
  | (.error e, _), (.error f, _) => e.isSyntax = f.isSyntax
  | _, _ => False

/-- Before cursors that see the same lexemes, the two parsers have the same outcome. -/
def Alike (p q : Parser α) : Prop :=
  ∀ (ls : List Lexeme) (c d : Cursor), c.Sees ls → d.Sees ls → SameOutcome (p c) (q d)

/-! ## Steps -/

theorem alike_pure {a b : α} (h : a = b) : Alike (pure a : Parser α) (pure b) :=
  fun ls _ _ hc hd => ⟨h, ls, hc, hd⟩

theorem alike_fail {e f : GrammarError} (h : e.isSyntax = f.isSyntax) :
    Alike (fail e : Parser α) (fail f) := fun _ _ _ _ _ => h

theorem Alike.bind {p q : Parser α} {f g : α → Parser β} (hpq : Alike p q)
    (hfg : ∀ a, Alike (f a) (g a)) : Alike (p >>= f) (q >>= g) := by
  intro ls c d hc hd
  have h := hpq ls c d hc hd
  rw [bind_apply, bind_apply]
  revert h
  rcases p c with ⟨_ | a, c'⟩ <;> rcases q d with ⟨_ | b, d'⟩ <;> intro h
  · exact h
  · exact h.elim
  · exact h.elim
  · obtain ⟨rfl, ms, hc', hd'⟩ := h
    exact hfg a ms c' d' hc' hd'

theorem alike_ite {P Q : Prop} [Decidable P] [Decidable Q] {p q p' q' : Parser α}
    (hPQ : P ↔ Q) (hp : Alike p p') (hq : Alike q q') :
    Alike (if P then p else q) (if Q then p' else q') := by
  by_cases h : P
  · rw [if_pos h, if_pos (hPQ.1 h)]
    exact hp
  · rw [if_neg h, if_neg fun hQ => h (hPQ.2 hQ)]
    exact hq

/-- A test that the lexemes decide. -/
theorem alike_inspect {f g : α → Parser β} {test : Cursor → α}
    (ht : ∀ (ls : List Lexeme) (c d : Cursor), c.Sees ls → d.Sees ls → test c = test d)
    (hfg : ∀ a, Alike (f a) (g a)) : Alike (inspect test >>= f) (inspect test >>= g) := by
  intro ls c d hc hd
  show SameOutcome (f (test c) c) (g (test d) d)
  rw [← ht ls c d hc hd]
  exact hfg (test c) ls c d hc hd

theorem alike_lookKind {f g : Kind → Parser β} (k : Nat) (hfg : ∀ a, Alike (f a) (g a)) :
    Alike (lookKind k >>= f) (lookKind k >>= g) :=
  alike_inspect (fun ls c d hc hd => by rw [hc.kindAt, hd.kindAt]) hfg

theorem alike_look {f g : Token → Parser β}
    (hfg : ∀ t u : Token, t.kind = u.kind → t.text = u.text → Alike (f t) (g u)) :
    Alike (look 0 >>= f) (look 0 >>= g) := by
  intro ls c d hc hd
  have hl : (c.look 0).lexeme = (d.look 0).lexeme := by rw [hc.look, hd.look]
  exact hfg _ _ (congrArg Lexeme.kind hl) (congrArg Lexeme.text hl) ls c d hc hd

theorem alike_pop {f g : Token → Parser β}
    (hfg : ∀ t u : Token, t.kind = u.kind → t.text = u.text → Alike (f t) (g u)) :
    Alike (pop >>= f) (pop >>= g) := by
  intro ls c d hc hd
  rw [bind_apply, bind_apply]
  cases ls with
  | nil =>
    rw [pop_nil hc, pop_nil hd]
    exact rfl
  | cons l ls =>
    obtain ⟨t, hp, ht, hs⟩ := pop_cons hc
    obtain ⟨u, hp', hu, hs'⟩ := pop_cons hd
    rw [hp, hp']
    have hl : t.lexeme = u.lexeme := ht.trans hu.symm
    exact hfg t u (congrArg Lexeme.kind hl) (congrArg Lexeme.text hl) ls _ _ hs hs'

theorem alike_expect {f g : Token → Parser β} (kind : Kind) (text : Option String)
    (hfg : ∀ t u : Token, t.kind = u.kind → t.text = u.text → Alike (f t) (g u)) :
    Alike (expect kind text >>= f) (expect kind text >>= g) := by
  have hassoc : ∀ h : Token → Parser β, (expect kind text >>= h) = pop >>= fun t =>
      if t.kind = kind ∧ text.all (· == t.text) = true then h t
      else fail (.expected kind text t) := by
    intro h
    funext c
    rw [bind_apply, bind_apply]
    unfold expect
    rw [bind_apply]
    rcases pop c with ⟨_ | t, c'⟩
    · rfl
    · by_cases ht : t.kind = kind ∧ text.all (· == t.text) = true
      · simp only [andThen, if_pos ht]
        rfl
      · simp only [andThen, if_neg ht]
        rfl
  rw [hassoc, hassoc]
  refine alike_pop fun t u hk ht => alike_ite ?_ (hfg t u hk ht) (alike_fail rfl)
  rw [hk, ht]

/-! ## Recursion -/

/-- Recursive rules are alike if their bodies are. Both sides see equally many lexemes, so
they are unfolded in step. -/
theorem alike_fix {f g : Parser α → Parser α}
    (h : ∀ p q : Parser α, Alike p q → Alike (f p) (g q)) : Alike (fix f) (fix g) := by
  intro ls
  induction hn : ls.length using Nat.strongRecOn generalizing ls with
  | ind n ih =>
    subst hn
    intro c d hc hd
    show SameOutcome (fixAt f c) (fixAt g d)
    rw [fixAt_eq, fixAt_eq]
    refine h _ _ ?_ ls c d hc hd
    intro ms c' d' hc' hd'
    unfold unfolding
    rw [hc.remaining, hd.remaining, hc'.remaining, hd'.remaining]
    by_cases hlt : ms.length < ls.length
    · rw [if_pos hlt, if_pos hlt]
      exact ih ms.length hlt ms rfl c' d' hc' hd'
    · rw [if_neg hlt, if_neg hlt]
      exact rfl

end Parser

namespace Grammar

open Offside.Parser

/-! ## Conditions -/

theorem alike_comparison (n : String) : Alike (comparison n) (comparison n) := by
  unfold comparison
  refine alike_lookKind 0 fun k => alike_ite .rfl ?_ (alike_pure rfl)
  refine alike_pop fun o o' _ ho => alike_lookKind 0 fun k => alike_ite .rfl ?_ (alike_fail rfl)
  refine alike_pop fun t t' _ ht => alike_pure ?_
  rw [ho, ht]

theorem alike_term {p q : Parser Condition} (h : Alike p q) : Alike (term p) (term q) := by
  unfold term
  refine alike_look fun t u hk _ => ?_
  rw [hk]
  refine alike_ite .rfl ?_ (alike_ite .rfl ?_ (alike_ite .rfl ?_ (alike_fail rfl)))
  · refine alike_pop fun n n' _ hn => ?_
    rw [hn]
    exact alike_comparison _
  · exact alike_pop fun n n' _ hn => alike_pure (by rw [hn])
  · exact alike_pop fun _ _ _ _ => h.bind fun _ => alike_expect _ _ fun _ _ _ _ => alike_pure rfl

theorem alike_condition : Alike condition condition := by
  refine alike_fix fun p q h => ?_
  unfold conditionOf connectedOf
  refine (alike_term h).bind fun left => alike_lookKind 0 fun k => ?_
  refine alike_ite .rfl ?_ (alike_pure rfl)
  exact alike_pop fun o o' _ ho => h.bind fun r => alike_pure (by rw [ho])

/-! ## Statements without a body -/

theorem alike_print : Alike print print := by
  unfold print
  refine alike_expect _ _ fun _ _ _ _ => alike_expect _ _ fun _ _ _ _ =>
    alike_expect _ _ fun _ _ _ _ => alike_expect _ _ fun _ _ _ _ =>
    alike_expect _ _ fun m m' _ hm => ?_
  rw [hm]
  refine alike_ite .rfl ?_ (alike_fail rfl)
  refine alike_expect _ _ fun _ _ _ _ => alike_look fun t u hk _ => ?_
  rw [hk]
  refine alike_ite .rfl ?_ (alike_fail rfl)
  exact alike_pop fun a a' _ ha => alike_expect _ _ fun _ _ _ _ =>
    alike_expect _ _ fun _ _ _ _ => alike_pure (by rw [ha])

theorem alike_declaration : Alike declaration declaration := by
  unfold declaration
  refine alike_pop fun type type' _ htype => alike_expect _ _ fun n n' _ hn =>
    alike_expect _ _ fun _ _ _ _ => alike_look fun t u hk _ => ?_
  rw [hk]
  refine alike_ite .rfl ?_ (alike_fail rfl)
  exact alike_pop fun v v' _ hv => alike_expect _ _ fun _ _ _ _ =>
    alike_pure (by rw [htype, hn, hv])

theorem alike_step : Alike step step := by
  unfold step
  exact alike_pop fun n n' _ hn => alike_pop fun o o' ho _ => alike_pure (by rw [hn, ho])

theorem alike_skip : Alike skip skip := by
  refine alike_fix fun p q h => ?_
  unfold skipOf
  refine alike_lookKind 0 fun k => alike_ite .rfl ?_ (alike_ite .rfl (alike_pure rfl) ?_)
  · exact alike_pop fun _ _ _ _ => alike_pure rfl
  · exact alike_pop fun _ _ _ _ => h

/-! ## Statements with a body -/

section Bodies

variable {p q : Parser (Option Statement)}

theorem alike_statements (stops : List Kind) (h : Alike p q) :
    Alike (statements stops p) (statements stops q) := by
  refine alike_fix fun more more' hm => ?_
  unfold statementsOf
  refine alike_lookKind 0 fun k => alike_ite .rfl (alike_pure rfl) ?_
  exact h.bind fun s => hm.bind fun ss => alike_pure rfl

theorem alike_block (h : Alike p q) : Alike (block p) (block q) := by
  unfold block
  exact alike_expect _ _ fun _ _ _ _ => (alike_statements _ h).bind fun _ =>
    alike_expect _ _ fun _ _ _ _ => alike_pure rfl

theorem alike_guardedBlock (h : Alike p q) : Alike (guardedBlock p) (guardedBlock q) := by
  unfold guardedBlock
  exact alike_expect _ _ fun _ _ _ _ => alike_condition.bind fun _ =>
    alike_expect _ _ fun _ _ _ _ => (alike_block h).bind fun _ => alike_pure rfl

theorem alike_branch (h : Alike p q) : Alike (branch p) (branch q) := by
  refine alike_fix fun inner inner' hi => ?_
  unfold branchOf otherwiseOf
  refine alike_expect _ _ fun _ _ _ _ => (alike_guardedBlock h).bind fun _ => ?_
  refine Alike.bind ?_ fun _ => alike_pure rfl
  refine alike_lookKind 0 fun k => alike_ite .rfl ?_ (alike_pure rfl)
  refine alike_pop fun _ _ _ _ => alike_lookKind 0 fun k => alike_ite .rfl ?_ ?_
  · exact hi.bind fun _ => alike_pure rfl
  · exact (alike_block h).bind fun _ => alike_pure rfl

theorem alike_repeatWhile (h : Alike p q) : Alike (repeatWhile p) (repeatWhile q) := by
  unfold repeatWhile
  exact alike_expect _ _ fun _ _ _ _ => (alike_guardedBlock h).bind fun _ => alike_pure rfl

theorem alike_countFirst : Alike countFirst countFirst := by
  unfold countFirst
  refine alike_lookKind 0 fun k => alike_ite .rfl (alike_pure rfl) (alike_ite .rfl ?_ ?_)
  · exact alike_pop fun t t' _ ht => alike_expect _ _ fun n n' _ hn =>
      alike_expect _ _ fun _ _ _ _ => alike_pop fun v v' _ hv => alike_pure (by rw [ht, hn, hv])
  · refine alike_lookKind 1 fun k => alike_ite .rfl ?_ (alike_pure rfl)
    exact alike_expect _ _ fun n n' _ hn => alike_expect _ _ fun _ _ _ _ =>
      alike_pop fun v v' _ hv => alike_pure (by rw [hn, hv])

theorem alike_countCondition : Alike countCondition countCondition := by
  unfold countCondition
  refine alike_lookKind 0 fun k => alike_ite .rfl (alike_pure rfl) ?_
  exact alike_condition.bind fun _ => alike_pure rfl

theorem alike_countUpdate : Alike countUpdate countUpdate := by
  unfold countUpdate
  refine alike_inspect (fun ls c d hc hd => by rw [atStep_eq hc, atStep_eq hd]) fun b =>
    alike_ite .rfl ?_ (alike_pure rfl)
  exact alike_step.bind fun _ => alike_pure rfl

theorem alike_count (h : Alike p q) : Alike (count p) (count q) := by
  unfold count
  exact alike_expect _ _ fun _ _ _ _ => alike_expect _ _ fun _ _ _ _ =>
    alike_countFirst.bind fun _ => alike_expect _ _ fun _ _ _ _ =>
    alike_countCondition.bind fun _ => alike_expect _ _ fun _ _ _ _ =>
    alike_countUpdate.bind fun _ => alike_expect _ _ fun _ _ _ _ =>
    (alike_block h).bind fun _ => alike_pure rfl

end Bodies

theorem alike_statement : Alike statement statement := by
  refine alike_fix fun p q h => ?_
  unfold statementOf
  refine alike_lookKind 0 fun k => ?_
  refine alike_inspect (fun ls c d hc hd => by rw [atPrint_eq hc, atPrint_eq hd]) fun b => ?_
  refine alike_ite .rfl (alike_print.bind fun _ => alike_pure rfl) ?_
  refine alike_ite .rfl (alike_declaration.bind fun _ => alike_pure rfl) ?_
  refine alike_ite .rfl ((alike_branch h).bind fun _ => alike_pure rfl) ?_
  refine alike_ite .rfl ((alike_repeatWhile h).bind fun _ => alike_pure rfl) ?_
  refine alike_ite .rfl ((alike_count h).bind fun _ => alike_pure rfl) ?_
  refine alike_inspect (fun ls c d hc hd => by rw [atStepEnd_eq hc, atStepEnd_eq hd]) fun b => ?_
  refine alike_ite .rfl ?_ (alike_skip.bind fun _ => alike_pure rfl)
  exact alike_step.bind fun _ => alike_pop fun _ _ _ _ => alike_pure rfl

end Grammar

end Offside
