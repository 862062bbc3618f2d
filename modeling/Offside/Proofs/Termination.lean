import Offside.Proofs.Recognition
import Offside.Proofs.Scanning

/-!
# Reading ends

A recursive rule of the grammar is the solution of an equation `p = f p`. `Parser.unroll` goes
through such an equation a given number of times and puts an arbitrary parser in the place of the
use that is left. A rule ends at a cursor if, after more rounds than tokens remain, that parser is
never asked (`Parser.Ends`); guarded rules do (`Parser.Guarded.ends`).

Whatever the tokens are, and whether or not an end is among them, the rules of the grammar end,
and none of them fails because it made no progress. `parse_ends` collects this, together with the
step on which it rests, that a statement takes a token wherever the text has not ended. It also
says where the cursor stands after the tokens of a text were read: on the last token, the end.
-/

namespace Offside

namespace Parser

variable {α β : Type}

/-! ## Unrolling -/

/-- The rule `p = f p` unrolled a number of times, with `bottom` in the place of the use that is
left. -/
def unroll (f : Parser α → Parser α) (bottom : Parser α) : Nat → Parser α
  | 0 => bottom
  | n + 1 => f (unroll f bottom n)

theorem forward_unroll {f : Parser α → Parser α} (hf : Guarded f) {bottom : Parser α}
    (hb : Forward bottom) (n : Nat) : Forward (unroll f bottom n) := by
  induction n with
  | zero => exact hb
  | succ n ih => exact hf.forward _ ih

/-- The rule `p = f p` ends at a cursor: as soon as it is unrolled more often than tokens remain,
it gives what the rule gives, whatever stands at the bottom. -/
def Ends (f : Parser α → Parser α) (c : Cursor) : Prop :=
  ∀ (bottom : Parser α) (n : Nat), Forward bottom → c.remaining < n →
    unroll f bottom n c = fix f c

theorem Guarded.ends {f : Parser α → Parser α} (hf : Guarded f) (c : Cursor) : Ends f c := by
  intro bottom n hb hn
  induction n generalizing c with
  | zero => omega
  | succ n ih =>
    -- one round leads to cursors before which fewer tokens remain
    have hbelow : AgreeBelow c.remaining (unroll f bottom n) (fix f) := by
      intro c' hc'
      exact ih c' (by omega)
    calc unroll f bottom (n + 1) c
        = f (fix f) c := hf.agree _ _ c (forward_unroll hf hb n) (forward_fix hf.forward) hbelow
      _ = fix f c := by rw [← fix_eq hf]

/-! ## Parsers that do not stall -/

/-- A parser that never fails because a rule made no progress. -/
def Steady (p : Parser α) : Prop := ∀ c : Cursor, (p c).1 ≠ .error .stalled

theorem steady_pure (a : α) : Steady (pure a : Parser α) := by
  intro c h
  cases h

theorem steady_fail {e : GrammarError} (he : e ≠ .stalled) : Steady (fail e : Parser α) := by
  intro c h
  cases h
  exact he rfl

theorem steady_inspect (f : Cursor → α) : Steady (inspect f) := by
  intro c h
  cases h

theorem steady_pop : Steady pop := by
  intro c h
  unfold pop at h
  cases hc : c.tokens[c.index]? with
  | none =>
    rw [hc] at h
    cases h
  | some t =>
    rw [hc] at h
    cases h

theorem Steady.bind {p : Parser α} {f : α → Parser β} (hp : Steady p) (hf : ∀ a, Steady (f a)) :
    Steady (p >>= f) := by
  intro c
  rw [bind_apply]
  cases h : p c with
  | mk r c' =>
    cases r with
    | ok a => exact hf a c'
    | error e =>
      intro he
      cases he
      exact hp c (by rw [h])

theorem steady_ite {P : Prop} [Decidable P] {p q : Parser α} (hp : Steady p) (hq : Steady q) :
    Steady (if P then p else q) := by
  split
  · exact hp
  · exact hq

theorem steady_expect (kind : Kind) (text : Option String) : Steady (expect kind text) :=
  steady_pop.bind fun _ => steady_ite (steady_pure _) (steady_fail nofun)

/-- A guarded rule does not stall if its unrollings do not. -/
theorem Guarded.steady {f : Parser α → Parser α} (hf : Guarded f)
    (h : ∀ n, Steady (unroll f (fail .outOfTokens) n)) : Steady (fix f) := by
  intro c
  rw [← hf.ends c (fail .outOfTokens) (c.remaining + 1) (forward_fail _) (Nat.lt_succ_self _)]
  exact h _ c

/-- A guarded rule does not stall if its body does not, where the rule is used again. -/
theorem Guarded.steady_of_step {f : Parser α → Parser α} (hf : Guarded f)
    (h : ∀ p, Steady p → Steady (f p)) : Steady (fix f) := by
  refine hf.steady fun n => ?_
  induction n with
  | zero => exact steady_fail nofun
  | succ n ih => exact h _ ih

end Parser

namespace Grammar

open Offside.Parser
open Lexeme (sign name eof)

/-! ## Conditions and statements without a body -/

theorem steady_comparison (name : String) : Steady (comparison name) :=
  (steady_inspect _).bind fun _ => steady_ite
    (steady_pop.bind fun _ => (steady_inspect _).bind fun _ => steady_ite
      (steady_pop.bind fun _ => steady_pure _) (steady_fail nofun))
    (steady_pure _)

theorem steady_term {inner : Parser Condition} (h : Steady inner) : Steady (term inner) :=
  (steady_inspect _).bind fun _ => steady_ite
    (steady_pop.bind fun _ => steady_comparison _)
    (steady_ite (steady_pop.bind fun _ => steady_pure _)
      (steady_ite
        (steady_pop.bind fun _ => h.bind fun _ => (steady_expect _ _).bind fun _ =>
          steady_pure _)
        (steady_fail nofun)))

theorem steady_condition : Steady condition :=
  guarded_conditionOf.steady_of_step fun _ h => (steady_term h).bind fun _ =>
    (steady_inspect _).bind fun _ => steady_ite
      (steady_pop.bind fun _ => h.bind fun _ => steady_pure _) (steady_pure _)

theorem steady_print : Steady print :=
  (steady_expect _ _).bind fun _ => (steady_expect _ _).bind fun _ =>
  (steady_expect _ _).bind fun _ => (steady_expect _ _).bind fun _ =>
  (steady_expect _ _).bind fun _ => steady_ite
    ((steady_expect _ _).bind fun _ => (steady_inspect _).bind fun _ => steady_ite
      (steady_pop.bind fun _ => (steady_expect _ _).bind fun _ =>
        (steady_expect _ _).bind fun _ => steady_pure _)
      (steady_fail nofun))
    (steady_fail nofun)

theorem steady_declaration : Steady declaration :=
  steady_pop.bind fun _ => (steady_expect _ _).bind fun _ => (steady_expect _ _).bind fun _ =>
  (steady_inspect _).bind fun _ => steady_ite
    (steady_pop.bind fun _ => (steady_expect _ _).bind fun _ => steady_pure _)
    (steady_fail nofun)

theorem steady_step : Steady step :=
  steady_pop.bind fun _ => steady_pop.bind fun _ => steady_pure _

theorem steady_skip : Steady skip :=
  guarded_skipOf.steady_of_step fun _ h => (steady_inspect _).bind fun _ => steady_ite
    (steady_pop.bind fun _ => steady_pure _)
    (steady_ite (steady_pure _) (steady_pop.bind fun _ => h))

/-! ## Statements with a body -/

section Bodies

variable {p : Parser (Option Statement)}

/-- Statements do not stall: each of them takes a token, since the end of the text is a stop. -/
theorem steady_statements {stops : List Kind} (hstops : .eof ∈ stops) (ha : Advances p)
    (hs : Steady p) : Steady (statements stops p) :=
  (guarded_statementsOf hstops ha).steady_of_step fun _ hm => (steady_inspect _).bind fun _ =>
    steady_ite (steady_pure _) (hs.bind fun _ => hm.bind fun _ => steady_pure _)

theorem steady_block (ha : Advances p) (hs : Steady p) : Steady (block p) :=
  (steady_expect _ _).bind fun _ => (steady_statements (by decide) ha hs).bind fun _ =>
  (steady_expect _ _).bind fun _ => steady_pure _

theorem steady_guardedBlock (ha : Advances p) (hs : Steady p) : Steady (guardedBlock p) :=
  (steady_expect _ _).bind fun _ => steady_condition.bind fun _ =>
  (steady_expect _ _).bind fun _ => (steady_block ha hs).bind fun _ => steady_pure _

theorem steady_branch (ha : Advances p) (hs : Steady p) : Steady (branch p) :=
  (guarded_branchOf ha.forward).steady_of_step fun _ hi => (steady_expect _ _).bind fun _ =>
  (steady_guardedBlock ha hs).bind fun _ =>
  ((steady_inspect _).bind fun _ => steady_ite
    (steady_pop.bind fun _ => (steady_inspect _).bind fun _ => steady_ite
      (hi.bind fun _ => steady_pure _) ((steady_block ha hs).bind fun _ => steady_pure _))
    (steady_pure _)).bind fun _ => steady_pure _

theorem steady_repeatWhile (ha : Advances p) (hs : Steady p) : Steady (repeatWhile p) :=
  (steady_expect _ _).bind fun _ => (steady_guardedBlock ha hs).bind fun _ => steady_pure _

theorem steady_countFirst : Steady countFirst :=
  (steady_inspect _).bind fun _ => steady_ite (steady_pure _)
    (steady_ite
      (steady_pop.bind fun _ => (steady_expect _ _).bind fun _ =>
        (steady_expect _ _).bind fun _ => steady_pop.bind fun _ => steady_pure _)
      ((steady_inspect _).bind fun _ => steady_ite
        ((steady_expect _ _).bind fun _ => (steady_expect _ _).bind fun _ =>
          steady_pop.bind fun _ => steady_pure _)
        (steady_pure _)))

theorem steady_count (ha : Advances p) (hs : Steady p) : Steady (count p) :=
  (steady_expect _ _).bind fun _ => (steady_expect _ _).bind fun _ =>
  steady_countFirst.bind fun _ => (steady_expect _ _).bind fun _ =>
  ((steady_inspect _).bind fun _ => steady_ite (steady_pure _)
    (steady_condition.bind fun _ => steady_pure _)).bind fun _ =>
  (steady_expect _ _).bind fun _ =>
  ((steady_inspect _).bind fun _ => steady_ite
    (steady_step.bind fun _ => steady_pure _) (steady_pure _)).bind fun _ =>
  (steady_expect _ _).bind fun _ => (steady_block ha hs).bind fun _ => steady_pure _

theorem steady_statementOf (ha : Advances p) (hs : Steady p) : Steady (statementOf p) :=
  (steady_inspect _).bind fun _ => (steady_inspect _).bind fun _ => steady_ite
    (steady_print.bind fun _ => steady_pure _)
    (steady_ite (steady_declaration.bind fun _ => steady_pure _)
      (steady_ite ((steady_branch ha hs).bind fun _ => steady_pure _)
        (steady_ite ((steady_repeatWhile ha hs).bind fun _ => steady_pure _)
          (steady_ite ((steady_count ha hs).bind fun _ => steady_pure _)
            ((steady_inspect _).bind fun _ => steady_ite
              (steady_step.bind fun _ => steady_pop.bind fun _ => steady_pure _)
              (steady_skip.bind fun _ => steady_pure _))))))

end Bodies

/-! ## All statements -/

theorem advances_fail (e : GrammarError) : Advances (fail e) where
  forward := forward_fail e
  lt _ _ _ _ h := by cases h

/-- Every unrolling of the rule for statements advances and does not stall. The two facts are
proved at once: the body of a statement does not stall only because its statements advance. -/
theorem steady_statement : Steady statement := by
  have hunroll : ∀ n, Advances (unroll statementOf (fail .outOfTokens) n) ∧
      Steady (unroll statementOf (fail .outOfTokens) n) := by
    intro n
    induction n with
    | zero => exact ⟨advances_fail _, steady_fail nofun⟩
    | succ n ih => exact ⟨advances_statementOf ih.1.forward, steady_statementOf ih.1 ih.2⟩
  exact guarded_statementOf.steady fun n => (hunroll n).2

theorem steady_program : Steady program :=
  (steady_statements (by decide) advances_statement steady_statement).bind fun _ => steady_pure _

/-- A statement moves the cursor, wherever the text has not ended. -/
theorem index_lt_of_statement {c c' : Cursor} {s : Option Statement} (hc : c.kindAt 0 ≠ .eof)
    (h : statement c = (.ok s, c')) : c.index < c'.index := by
  have hlt := advances_statement.lt c c' s hc h
  have hleads := forward_statement c
  rw [h] at hleads
  rw [Cursor.remaining, Cursor.remaining, hleads.tokens_eq] at hlt
  omega

/-- After a program was read from the tokens of a text, only the end of the text is left. -/
theorem program_stop {ts : List Token} (hts : Lexeme.Closed (ts.map Token.lexeme)) {p : Program}
    (hp : parse ts = .ok p) : ∃ c t, program (Cursor.ofList ts) = (.ok p, c) ∧
      c.tokens = ts.toArray ∧ c.index + 1 = ts.length ∧ ts[c.index]? = some t ∧ t.kind = .eof := by
  have hruns := runs_program hts _ (Cursor.sees_ofList hts.getLast?)
  have hleads : (Cursor.ofList ts).Leads (program (Cursor.ofList ts)).2 :=
    ((forward_statements _ forward_statement).bind fun _ => forward_pure _) _
  cases hc : program (Cursor.ofList ts) with
  | mk r c =>
    obtain rfl : r = .ok p := by
      rw [← hp, parse, hc]
    rw [hc] at hruns hleads
    obtain ⟨ms, hsees, rfl, -⟩ := hruns
    have htokens : c.tokens = ts.toArray := hleads.tokens_eq
    obtain ⟨t, ht, hlexeme⟩ : ∃ t, c.rest = [t] ∧ t.lexeme = Lexeme.eof := by
      simpa [List.map_eq_cons_iff] using hsees.ahead
    obtain ⟨hat, -⟩ := Cursor.rest_eq_cons ht
    have hremaining : c.remaining = 1 := hsees.remaining
    rw [Cursor.remaining, htokens, List.size_toArray] at hremaining
    rw [htokens, List.getElem?_toArray] at hat
    exact ⟨c, t, rfl, htokens, by omega, hat, congrArg Lexeme.kind hlexeme⟩

/-- Reading ends, whatever the tokens are: with a program, with the token that does not fit, or
where the tokens run out. Every recursive rule of the grammar ends before every cursor, because a
statement moves the cursor wherever the text has not ended. After a program was read from the
tokens of a text, the cursor stands on the last of them, the end. -/
theorem parse_ends (ts : List Token) :
    ((∃ p, parse ts = .ok p) ∨ (∃ e, parse ts = .error e ∧ e.isSyntax = true) ∨
      parse ts = .error .outOfTokens) ∧
    (∀ c : Cursor, Ends conditionOf c ∧ Ends skipOf c ∧ Ends (branchOf statement) c ∧
      Ends (statementsOf [.rightBrace, .eof] statement) c ∧ Ends statementOf c ∧
      Ends (statementsOf [.eof] statement) c) ∧
    (∀ (c c' : Cursor) (s : Option Statement), c.kindAt 0 ≠ .eof → statement c = (.ok s, c') →
      c.index < c'.index) ∧
    ∀ (source : String) (p : Program), tokenize source = .ok ts → parse ts = .ok p →
      ∃ c t, program (Cursor.ofList ts) = (.ok p, c) ∧ c.tokens = ts.toArray ∧
        c.index + 1 = ts.length ∧ ts[c.index]? = some t ∧ t.kind = .eof := by
  refine ⟨?_, ?_, fun c c' s hc h => index_lt_of_statement hc h, ?_⟩
  · cases h : parse ts with
    | ok p => exact .inl ⟨p, rfl⟩
    | error e =>
      right
      cases e with
      | stalled => exact absurd h (steady_program _)
      | outOfTokens => exact .inr rfl
      | _ => exact .inl ⟨_, rfl, rfl⟩
  · intro c
    have hbody : ∀ stops, .eof ∈ stops → Ends (statementsOf stops statement) c :=
      fun _ hstops => (guarded_statementsOf hstops advances_statement).ends c
    exact ⟨guarded_conditionOf.ends c, guarded_skipOf.ends c,
      (guarded_branchOf forward_statement).ends c, hbody _ (by decide),
      guarded_statementOf.ends c, hbody _ (by decide)⟩
  · intro source p hs hp
    exact program_stop (closed_tokenize hs) hp

/-- One declaration and the end of the text: the declaration moves the cursor, and the program
leaves it on the end. -/
theorem parse_ends_declaration : ∃ ts c c',
    tokenize "int x=5;" = .ok ts ∧ parse ts = .ok ⟨[.declare ⟨"x", "5", "int"⟩]⟩ ∧
    statement (Cursor.ofList ts) = (.ok (some (.declare ⟨"x", "5", "int"⟩)), c) ∧
    (Cursor.ofList ts).index < c.index ∧
    program (Cursor.ofList ts) = (.ok ⟨[.declare ⟨"x", "5", "int"⟩]⟩, c') ∧
    c'.index + 1 = ts.length := by
  have hlexemes : lexemesOf? none "int x=5;".toList = some ([sign .intType, name "x",
      sign .assign, ⟨.number, "5"⟩, sign .semicolon] ++ [eof]) := by
    rw [lexemesOf?_eq_within]
    decide +kernel
  have hdeclare : Statement.Spelled .full (.declare ⟨"x", "5", "int"⟩)
      [sign .intType, name "x", sign .assign, ⟨.number, "5"⟩, sign .semicolon] :=
    .declare (k := .intType) (by decide) "x" (v := ⟨.number, "5"⟩) (by decide)
  obtain ⟨ts, htokens, hmap⟩ := lexemesOf?_eq_some_iff.1 hlexemes
  have hclosed := closed_tokenize htokens
  have hparse : parse ts = .ok ⟨[.declare ⟨"x", "5", "int"⟩]⟩ := by
    rw [parse_eq_ok_iff hclosed, hmap]
    exact ⟨false, _, [], rfl, .cons hdeclare .nil, passable_nil _ _⟩
  have hsees : (Cursor.ofList ts).Sees _ := Cursor.sees_ofList hclosed.getLast?
  rw [hmap] at hsees
  obtain ⟨c, hstatement, -⟩ := (reads_statement hdeclare (by simp [Statement.isOpen])).apply hsees
  have hstart : (Cursor.ofList ts).kindAt 0 ≠ .eof := by
    rw [hsees.kindAt 0]
    decide
  obtain ⟨-, -, hmoves, hstops⟩ := parse_ends ts
  obtain ⟨c', t, hprogram, -, hindex, -⟩ := hstops _ _ htokens hparse
  exact ⟨ts, c, c', htokens, hparse, hstatement, hmoves _ _ _ hstart hstatement, hprogram, hindex⟩

end Grammar

end Offside
