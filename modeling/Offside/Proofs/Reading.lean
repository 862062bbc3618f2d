import Offside.Proofs.Spelling

/-!
# Spelled programs are read

What is spelled in the full dialect is read by the grammar as the program it spells,
whatever comes after it, as long as what comes after does not continue it: no operator
after a condition, no `else` after a branch that is open to one. The lemmas follow the
relation of spelling, one for each rule of the grammar; `reads_condition`,
`reads_statement` and `readsBody` are the inductions.
-/

namespace Offside.Grammar

open Offside.Parser Lexeme
open GrammarError (printMethods)

/-! ## What the tests of the grammar see -/

theorem atPrint_eq {c : Cursor} {ls : List Lexeme} (h : c.Sees ls) :
    atPrint c = startsPrint ls := by
  have hk : ∀ k, (c.look k).kind = (ls.getD k eof).kind := fun k => by rw [← h.look k]; rfl
  have ht : ∀ k, (c.look k).text = (ls.getD k eof).text := fun k => by rw [← h.look k]; rfl
  have hd : (Kind.eof == Kind.dot) = false := by decide
  simp only [atPrint, hk, ht]
  match ls with
  | [] => rfl
  | [_] => simp [startsPrint, hd]
  | [_, _] => simp [startsPrint, hd]
  | [_, _, _] => simp [startsPrint, hd]
  | [_, _, _, _] => simp [startsPrint, printMethods]
  | _ :: _ :: _ :: _ :: _ :: _ => simp [startsPrint]

theorem atStep_eq {c : Cursor} {ls : List Lexeme} (h : c.Sees ls) :
    atStep c = startsChange ls := by
  simp only [atStep, h.kindAt]
  match ls with
  | [] => rfl
  | [_] => simp [startsChange, Kind.steps]
  | _ :: _ :: _ => simp [startsChange]

theorem atStepEnd_eq {c : Cursor} {ls : List Lexeme} (h : c.Sees ls) :
    (atStep c && c.kindAt 2 == .semicolon) = startsStep ls := by
  rw [startsStep, atStep_eq h, h.kindAt 2]

/-- A statement is told by its first lexemes. -/
theorem runs_statement {ls : List Lexeme} {Q : Option Statement → List Lexeme → Prop}
    {E : GrammarError → Prop}
    (hprint : startsPrint ls = true → (print >>= fun s => pure (some s)).Runs ls Q E)
    (hdeclare : next ls ∈ Kind.types →
      (declaration >>= fun b => pure (some (Statement.declare b))).Runs ls Q E)
    (hbranch : next ls = .ifKeyword →
      (branch statement >>= fun b => pure (some b.toStatement)).Runs ls Q E)
    (hwhile : next ls = .whileKeyword →
      (repeatWhile statement >>= fun s => pure (some s)).Runs ls Q E)
    (hcount : next ls = .forKeyword →
      (count statement >>= fun s => pure (some s)).Runs ls Q E)
    (hstep : startsStep ls = true →
      (step >>= fun s => pop >>= fun _ => pure (some (Statement.step s))).Runs ls Q E)
    (hskip : startsPrint ls = false → next ls ∉ Kind.openings → startsStep ls = false →
      (skip >>= fun _ => pure none).Runs ls Q E) :
    statement.Runs ls Q E := by
  rw [statement_eq]
  unfold statementOf
  refine runs_next (runs_inspect (fun c hc => atPrint_eq hc) ?_)
  refine runs_ite hprint fun hp => ?_
  refine runs_ite hdeclare fun hd => ?_
  refine runs_ite hbranch fun hb => ?_
  refine runs_ite hwhile fun hw => ?_
  refine runs_ite hcount fun hc => ?_
  refine runs_inspect (fun c hc => atStepEnd_eq hc) ?_
  refine runs_ite hstep fun hs => ?_
  refine hskip (by simpa using hp) ?_ (by simpa using hs)
  simp [Kind.openings, hd, hb, hw, hc]

/-! ## Statements without a body -/

theorem reads_print {m : String} (hm : m ∈ printMethods) {v : Lexeme}
    (hv : v.kind ∈ Kind.printables) (ls : List Lexeme) :
    print.Reads (name printReceiver :: sign .dot :: name printField :: sign .dot :: name m
      :: sign .leftParen :: v :: sign .rightParen :: sign .semicolon :: ls)
      (.print v.text) ls := by
  unfold print
  refine reads_expect rfl (by decide) fun _ _ => ?_
  refine reads_expect rfl (by decide) fun _ _ => ?_
  refine reads_expect rfl (by decide) fun _ _ => ?_
  refine reads_expect rfl (by decide) fun _ _ => ?_
  refine reads_expect rfl rfl fun t ht => ?_
  have htext : t.text = m := congrArg Lexeme.text ht
  refine runs_pos (by simpa [htext] using hm) ?_
  refine reads_expect rfl (by decide) fun _ _ => ?_
  refine runs_look fun t ht => ?_
  have hkind : t.kind = v.kind := congrArg Lexeme.kind ht
  refine runs_pos (by rw [hkind]; exact hv) ?_
  refine runs_pop fun a ha => ?_
  refine reads_expect rfl (by decide) fun _ _ => ?_
  refine reads_expect rfl (by decide) fun _ _ => ?_
  exact runs_pure ⟨by rw [← ha]; rfl, rfl⟩

theorem reads_declaration {k : Kind} (n : String) {v : Lexeme} (hv : v.kind ∈ Kind.values)
    (ls : List Lexeme) :
    declaration.Reads (sign k :: name n :: sign .assign :: v :: sign .semicolon :: ls)
      ⟨n, v.text, Text.lower (sign k).text⟩ ls := by
  unfold declaration
  refine runs_pop fun type htype => ?_
  refine reads_expect rfl rfl fun t ht => ?_
  refine reads_expect rfl rfl fun _ _ => ?_
  refine runs_look fun u hu => ?_
  have hkind : u.kind = v.kind := congrArg Lexeme.kind hu
  refine runs_pos (by rw [hkind]; exact hv) ?_
  refine runs_pop fun value hvalue => ?_
  refine reads_expect rfl (by decide) fun _ _ => ?_
  refine runs_pure ⟨?_, rfl⟩
  have hn : t.text = n := congrArg Lexeme.text ht
  rw [← htype, ← hvalue, ← hn]
  rfl

theorem reads_step (n : String) (d : Direction) (ls : List Lexeme) :
    step.Reads (name n :: sign d.operator :: ls) ⟨n, d⟩ ls := by
  unfold step
  refine runs_pop fun t ht => runs_pop fun o ho => runs_pure ⟨?_, rfl⟩
  have hn : t.text = n := congrArg Lexeme.text ht
  have hk : o.kind = d.operator := congrArg Lexeme.kind ho
  rw [hn, hk]
  cases d <;> rfl

/-- A lexeme that ends no statement is passed over. -/
theorem runs_skip_cons {j : Lexeme} {ls : List Lexeme} {Q : Unit → List Lexeme → Prop}
    {E : GrammarError → Prop} (hs : j.kind ≠ .semicolon) (he : j.kind ≠ .eof)
    (h : skip.Runs ls Q E) : skip.Runs (j :: ls) Q E := by
  rw [skip_eq]
  unfold skipOf
  exact runs_next (runs_neg hs (runs_neg he (runs_pop fun _ _ => h)))

/-- Passing over goes up to the next semicolon. -/
theorem reads_skip {js : List Lexeme} (h : ∀ l ∈ js, l.kind ≠ .semicolon ∧ l.kind ≠ .eof)
    (ls : List Lexeme) : skip.Reads (js ++ sign .semicolon :: ls) () ls := by
  induction js with
  | nil =>
    rw [skip_eq]
    unfold skipOf
    exact runs_next (runs_pos rfl (runs_pop fun _ _ => runs_pure ⟨rfl, rfl⟩))
  | cons j js ih =>
    obtain ⟨hs, he⟩ := h j (by simp)
    exact runs_skip_cons hs he (ih fun l hl => h l (by simp [hl]))

/-- Without a semicolon, passing over goes up to the end. -/
theorem reads_skip_eof {js : List Lexeme} (h : ∀ l ∈ js, l.kind ≠ .semicolon ∧ l.kind ≠ .eof) :
    skip.Reads (js ++ [eof]) () [eof] := by
  induction js with
  | nil =>
    rw [skip_eq]
    unfold skipOf
    exact runs_next (runs_neg (by decide) (runs_pos rfl (runs_pure ⟨rfl, rfl⟩)))
  | cons j js ih =>
    obtain ⟨hs, he⟩ := h j (by simp)
    exact runs_skip_cons hs he (ih fun l hl => h l (by simp [hl]))

/-! ## Conditions -/

theorem reads_comparison_none (n : String) {ls : List Lexeme} (h : next ls ∉ Kind.comparisons) :
    (comparison n).Reads ls (.test n "" "") ls := by
  unfold comparison
  exact runs_next (runs_neg h (runs_pure ⟨rfl, rfl⟩))

theorem reads_comparison (n : String) {k : Kind} (hk : k ∈ Kind.comparisons) {v : Lexeme}
    (hv : v.kind ∈ Kind.operands) (ls : List Lexeme) :
    (comparison n).Reads (sign k :: v :: ls) (.test n (sign k).text v.text) ls := by
  unfold comparison
  refine runs_next (runs_pos hk ?_)
  refine runs_pop fun o ho => runs_next (runs_pos hv ?_)
  refine runs_pop fun t ht => runs_pure ⟨?_, rfl⟩
  rw [← ho, ← ht]
  rfl

/-- A term that starts with an identifier goes on as a comparison. -/
theorem reads_term_name {n : String} {c : Condition} {us vs : List Lexeme}
    (h : (comparison n).Reads us c vs) : (term condition).Reads (name n :: us) c vs := by
  unfold term
  refine runs_look fun t ht => runs_pos (congrArg Lexeme.kind ht) (runs_pop fun u hu => ?_)
  rw [show u.text = n from congrArg Lexeme.text hu]
  exact h

theorem connective_not_comparison {k : Kind} (hk : k ∈ Kind.connectives) :
    k ∉ Kind.comparisons := by
  simp only [Kind.connectives, List.mem_cons, List.not_mem_nil, or_false] at hk
  rcases hk with rfl | rfl <;> decide

mutual

theorem reads_term : ∀ {c : Condition} {us : List Lexeme}, c.SpelledTerm us →
    ∀ {vs : List Lexeme}, next vs ∉ Kind.comparisons → (term condition).Reads (us ++ vs) c vs
  | _, _, .name n, _, hv => reads_term_name (reads_comparison_none n hv)
  | _, _, .compare n hk ho, vs, _ => reads_term_name (reads_comparison n hk ho vs)
  | _, _, @Condition.SpelledTerm.truth k hk, vs, _ => by
    unfold term
    refine runs_look fun t ht => ?_
    have hkind : t.kind = k := congrArg Lexeme.kind ht
    have hne : k ≠ .identifier := by rintro rfl; simp [Kind.truths] at hk
    rw [hkind]
    refine runs_neg hne (runs_pos hk (runs_pop fun u hu => runs_pure ⟨?_, rfl⟩))
    rw [← hu]
    rfl
  | _, _, .group h, vs, _ => by
    unfold term
    refine runs_look fun t ht => ?_
    have hkind : t.kind = .leftParen := congrArg Lexeme.kind ht
    rw [hkind, List.cons_append, List.append_assoc]
    refine runs_neg (by decide) (runs_neg (by decide) (runs_pos rfl ?_))
    refine runs_pop fun _ _ => ?_
    refine (reads_condition h (by simp [Kind.comparisons]) (by simp [Kind.connectives])).bind ?_
    exact reads_expect rfl rfl fun _ _ => runs_pure ⟨rfl, rfl⟩

/-- A condition is read up to where no operator continues it. -/
theorem reads_condition : ∀ {c : Condition} {us : List Lexeme}, c.Spelled us →
    ∀ {vs : List Lexeme}, next vs ∉ Kind.comparisons → next vs ∉ Kind.connectives →
      condition.Reads (us ++ vs) c vs
  | _, _, .term h, vs, hv, hv' => by
    rw [condition_eq]
    unfold conditionOf connectedOf
    exact (reads_term h hv).bind (runs_next (runs_neg hv' (runs_pure ⟨rfl, rfl⟩)))
  | _, _, @Condition.Spelled.join _ _ _ ws k hk hl hr, vs, hv, hv' => by
    have hc : next (sign k :: (ws ++ vs)) ∉ Kind.comparisons := connective_not_comparison hk
    rw [condition_eq, List.append_assoc, List.cons_append]
    unfold conditionOf connectedOf
    refine (reads_term hl hc).bind (runs_next (runs_pos hk ?_))
    refine runs_pop fun o ho => (reads_condition hr hv hv').bind (runs_pure ⟨?_, rfl⟩)
    rw [← ho]
    rfl

end

/-! ## The parts of statements with a body -/

/-- The kinds at which a body ends. -/
def stops : (top : Bool) → List Kind
  | true => [.eof]
  | false => [.rightBrace, .eof]

theorem eof_mem_stops (top : Bool) : .eof ∈ stops top := by
  cases top <;> decide

theorem reads_block {body : List Statement} {us vs : List Lexeme}
    (h : (statements (stops false) statement).Reads (us ++ sign .rightBrace :: vs) body
      (sign .rightBrace :: vs)) : (block statement).Reads (braced us ++ vs) body vs := by
  unfold block braced
  rw [List.cons_append, List.append_assoc]
  refine reads_expect rfl rfl fun _ _ => ?_
  refine h.bind ?_
  exact reads_expect rfl rfl fun _ _ => runs_pure ⟨rfl, rfl⟩

theorem reads_guardedBlock {c : Condition} {body : List Statement} {us ws vs : List Lexeme}
    (hc : c.Spelled us) (h : (block statement).Reads (braced ws ++ vs) body vs) :
    (guardedBlock statement).Reads (guarded us ws ++ vs) (c, body) vs := by
  unfold guardedBlock guarded
  rw [List.cons_append, List.append_assoc, List.cons_append]
  refine reads_expect rfl rfl fun _ _ => ?_
  refine (reads_condition hc (by simp [Kind.comparisons]) (by simp [Kind.connectives])).bind ?_
  refine reads_expect rfl rfl fun _ _ => ?_
  exact h.bind (runs_pure ⟨rfl, rfl⟩)

theorem reads_branch {c : Condition} {body : List Statement} {o : Otherwise}
    {us ws xs vs : List Lexeme} (hc : c.Spelled us)
    (hb : (block statement).Reads (braced ws ++ (xs ++ vs)) body (xs ++ vs))
    (ho : (otherwiseOf statement (branch statement)).Reads (xs ++ vs) o vs) :
    (branch statement).Reads (sign .ifKeyword :: (guarded us ws ++ (xs ++ vs)))
      ⟨c, body, o⟩ vs := by
  rw [branch_eq forward_statement]
  unfold branchOf
  refine reads_expect rfl rfl fun _ _ => ?_
  refine (reads_guardedBlock hc hb).bind ?_
  exact ho.bind (runs_pure ⟨rfl, rfl⟩)

theorem reads_countFirst {G : Dialect} {first : Option Binding} {fs : List Lexeme}
    (h : SpelledFirst G first fs) (vs : List Lexeme) :
    countFirst.Reads (fs ++ sign .semicolon :: vs) first (sign .semicolon :: vs) := by
  unfold countFirst
  cases h with
  | absent => exact runs_next (runs_pos rfl (runs_pure ⟨rfl, rfl⟩))
  | @typed k hk n v hv =>
    have hne : k ≠ .semicolon := by rintro rfl; simp [Kind.types] at hk
    refine runs_next (runs_neg hne (runs_pos hk ?_))
    refine runs_pop fun type htype => ?_
    refine reads_expect rfl rfl fun t ht => ?_
    refine reads_expect rfl rfl fun _ _ => ?_
    refine runs_pop fun value hvalue => runs_pure ⟨?_, rfl⟩
    have hn : t.text = n := congrArg Lexeme.text ht
    rw [← htype, ← hvalue, ← hn]
    rfl
  | @untyped n v hv =>
    refine runs_next (runs_neg (by simp) (runs_neg (by simp [Kind.types]) ?_))
    refine runs_lookKind (runs_pos rfl ?_)
    refine reads_expect rfl rfl fun t ht => ?_
    refine reads_expect rfl rfl fun _ _ => ?_
    refine runs_pop fun value hvalue => runs_pure ⟨?_, rfl⟩
    have hn : t.text = n := congrArg Lexeme.text ht
    rw [← hvalue, ← hn]
    rfl

/-- What a condition can start with. -/
def conditionStarts : List Kind := [.identifier, .trueLiteral, .falseLiteral, .leftParen]

theorem spelledTerm_next {c : Condition} {us : List Lexeme} (h : c.SpelledTerm us)
    (vs : List Lexeme) : next (us ++ vs) ∈ conditionStarts := by
  cases h with
  | name n => simp [conditionStarts]
  | compare n _ _ => simp [conditionStarts]
  | @truth k hk =>
    simp only [Kind.truths, List.mem_cons, List.not_mem_nil, or_false] at hk
    rcases hk with rfl | rfl <;> simp [conditionStarts]
  | group _ => simp [conditionStarts]

theorem spelled_next {c : Condition} {us : List Lexeme} (h : c.Spelled us)
    (vs : List Lexeme) : next (us ++ vs) ∈ conditionStarts := by
  cases h with
  | term h => exact spelledTerm_next h vs
  | join _ hl _ =>
    rw [List.append_assoc]
    exact spelledTerm_next hl _

theorem reads_countCondition {c : Option Condition} {us : List Lexeme}
    (h : SpelledCondition c us) (vs : List Lexeme) :
    countCondition.Reads (us ++ sign .semicolon :: vs) c (sign .semicolon :: vs) := by
  unfold countCondition
  cases h with
  | absent => exact runs_next (runs_pos rfl (runs_pure ⟨rfl, rfl⟩))
  | present h =>
    have hne : next (us ++ sign .semicolon :: vs) ≠ .semicolon := by
      intro he
      have hm := spelled_next h (sign .semicolon :: vs)
      rw [he] at hm
      simp [conditionStarts] at hm
    refine runs_next (runs_neg hne ?_)
    refine (reads_condition h (by simp [Kind.comparisons]) (by simp [Kind.connectives])).bind ?_
    exact runs_pure ⟨rfl, rfl⟩

theorem reads_countUpdate {update : Option Step} {xs : List Lexeme}
    (h : SpelledUpdate update xs) (vs : List Lexeme) :
    countUpdate.Reads (xs ++ sign .rightParen :: vs) update (sign .rightParen :: vs) := by
  unfold countUpdate
  refine runs_inspect (fun c hc => atStep_eq hc) ?_
  cases h with
  | absent =>
    refine runs_neg ?_ (runs_pure ⟨rfl, rfl⟩)
    cases vs <;> simp [startsChange]
  | present n d =>
    refine runs_pos (by cases d <;> rfl) ?_
    exact (reads_step n d _).bind (runs_pure ⟨rfl, rfl⟩)

theorem reads_repeatWhile {c : Condition} {body : List Statement} {us ws vs : List Lexeme}
    (hc : c.Spelled us) (h : (block statement).Reads (braced ws ++ vs) body vs) :
    (repeatWhile statement).Reads (sign .whileKeyword :: (guarded us ws ++ vs))
      (.repeatWhile c body) vs := by
  unfold repeatWhile
  refine reads_expect rfl rfl fun _ _ => ?_
  exact (reads_guardedBlock hc h).bind (runs_pure ⟨rfl, rfl⟩)

theorem reads_count {G : Dialect} {first : Option Binding} {c : Option Condition}
    {update : Option Step} {body : List Statement} {fs us xs ws vs : List Lexeme}
    (hf : SpelledFirst G first fs) (hc : SpelledCondition c us) (hu : SpelledUpdate update xs)
    (h : (block statement).Reads (braced ws ++ vs) body vs) :
    (count statement).Reads
      (sign .forKeyword :: sign .leftParen :: (fs ++ sign .semicolon ::
        (us ++ sign .semicolon :: (xs ++ sign .rightParen :: (braced ws ++ vs)))))
      (.count first c update body) vs := by
  unfold count
  refine reads_expect rfl rfl fun _ _ => reads_expect rfl rfl fun _ _ => ?_
  refine (reads_countFirst hf _).bind (reads_expect rfl rfl fun _ _ => ?_)
  refine (reads_countCondition hc _).bind (reads_expect rfl rfl fun _ _ => ?_)
  refine (reads_countUpdate hu _).bind (reads_expect rfl rfl fun _ _ => ?_)
  exact h.bind (runs_pure ⟨rfl, rfl⟩)

/-! ## What starts what -/

/-- A lexeme that is no part of the start of a call of a printing method. -/
def foreignToPrint (l : Lexeme) : Bool :=
  l.kind != .identifier && l.kind != .dot && l.text != printField
    && !printMethods.contains l.text

/-- What a foreign lexeme cuts off does not become the start of a call. -/
theorem startsPrint_append {l : Lexeme} (h : foreignToPrint l = true) (js ls : List Lexeme) :
    startsPrint (js ++ l :: ls) = startsPrint js := by
  simp only [foreignToPrint, Bool.and_eq_true, bne_iff_ne, ne_eq, Bool.not_eq_true',
    ← Bool.not_eq_true, List.contains_iff_mem] at h
  obtain ⟨⟨⟨hi, hd⟩, hf⟩, hm⟩ := h
  match js with
  | [] => match ls with
    | [] | [_] | [_, _] | [_, _, _] => rfl
    | _ :: _ :: _ :: _ :: _ => simp [startsPrint, hi]
  | [_] => match ls with
    | [] | [_] | [_, _] => rfl
    | _ :: _ :: _ :: _ => simp [startsPrint, hd]
  | [_, _] => match ls with
    | [] | [_] => rfl
    | _ :: _ :: _ => simp [startsPrint, hf]
  | [_, _, _] => match ls with
    | [] => rfl
    | _ :: _ => simp [startsPrint, hd]
  | [_, _, _, _] => simp [startsPrint, hm]
  | _ :: _ :: _ :: _ :: _ :: _ => rfl

theorem startsPrint_of_kind {ls : List Lexeme} (h : next ls ≠ .identifier) :
    startsPrint ls = false := by
  match ls with
  | [] | [_] | [_, _] | [_, _, _] | [_, _, _, _] => rfl
  | l :: _ :: _ :: _ :: _ :: _ =>
    have hl : l.kind ≠ .identifier := h
    simp [startsPrint, hl]

theorem startsStep_of_kind {ls : List Lexeme} (h : next ls ≠ .identifier) :
    startsStep ls = false := by
  match ls with
  | [] | [_] => rfl
  | l :: _ :: _ =>
    have hl : l.kind ≠ .identifier := h
    simp [startsStep, startsChange, hl]

/-- Whether an unknown statement is a change by one is decided at its semicolon. -/
theorem startsStep_append (js ls : List Lexeme) :
    startsStep (js ++ sign .semicolon :: ls) = startsStep (js ++ [sign .semicolon]) := by
  match js with
  | [] =>
    rw [startsStep_of_kind (by simp), startsStep_of_kind (by simp)]
  | [_] => simp [startsStep, startsChange, Kind.steps]
  | _ :: _ :: [] => simp [startsStep, startsChange]
  | _ :: _ :: _ :: _ => simp [startsStep, startsChange]

theorem startsStep_inner {js : List Lexeme} (h : ∀ l ∈ js, l.kind ≠ .semicolon) :
    startsStep (js ++ [eof]) = false := by
  match js with
  | [] => rfl
  | [_] => simp [startsStep, startsChange, Kind.steps]
  | _ :: _ :: [] => simp [startsStep]
  | _ :: _ :: l :: _ => simp [startsStep, h l (by simp)]

theorem not_opening {k : Kind} (h : k ∉ Kind.openings) :
    k ∉ Kind.types ∧ k ≠ .ifKeyword ∧ k ≠ .whileKeyword ∧ k ≠ .forKeyword := by
  simpa [Kind.openings] using h

/-- What starts no known statement is passed over. -/
theorem reads_skipped {ls ms : List Lexeme} (hp : startsPrint ls = false)
    (ho : next ls ∉ Kind.openings) (hs : startsStep ls = false) (h : skip.Reads ls () ms) :
    statement.Reads ls none ms := by
  obtain ⟨ht, hi, hw, hf⟩ := not_opening ho
  refine runs_statement (fun h => ?_) (fun h => absurd h ht) (fun h => absurd h hi)
    (fun h => absurd h hw) (fun h => absurd h hf) (fun h => ?_) fun _ _ _ => ?_
  · simp [hp] at h
  · simp [hs] at h
  · exact h.bind (runs_pure ⟨rfl, rfl⟩)

/-- A statement that is told by its first lexeme alone. -/
theorem runs_opened {ls : List Lexeme} {Q : Option Statement → List Lexeme → Prop}
    {E : GrammarError → Prop} (hk : next ls ∈ Kind.openings)
    (hdeclare : next ls ∈ Kind.types →
      (declaration >>= fun b => pure (some (Statement.declare b))).Runs ls Q E)
    (hbranch : next ls = .ifKeyword →
      (branch statement >>= fun b => pure (some b.toStatement)).Runs ls Q E)
    (hwhile : next ls = .whileKeyword →
      (repeatWhile statement >>= fun s => pure (some s)).Runs ls Q E)
    (hcount : next ls = .forKeyword →
      (count statement >>= fun s => pure (some s)).Runs ls Q E) : statement.Runs ls Q E := by
  have hne : next ls ≠ .identifier := by
    intro h
    rw [h] at hk
    simp [Kind.openings, Kind.types] at hk
  refine runs_statement (fun h => ?_) hdeclare hbranch hwhile hcount (fun h => ?_)
    fun _ ho _ => absurd hk ho
  · simp [startsPrint_of_kind hne] at h
  · simp [startsStep_of_kind hne] at h

/-! ## Statements and bodies -/

theorem passable_next {top after : Bool} {js : List Lexeme} (h : Passable top after js)
    {l : Lexeme} (hl : l.kind ∉ Kind.openings) (ls : List Lexeme) :
    next (js ++ l :: ls) ∉ Kind.openings := by
  cases js with
  | nil => exact hl
  | cons j js => exact h.start j (by simp)

theorem reads_unknown {top after : Bool} {js : List Lexeme}
    (h : Dialect.full.unknown top after js) (vs : List Lexeme) :
    statement.Reads (js ++ sign .semicolon :: vs) none vs := by
  obtain ⟨hj, hs⟩ := h
  refine reads_skipped ?_ (passable_next hj (by decide) vs) (by rwa [startsStep_append])
    (reads_skip hj.inner vs)
  rw [startsPrint_append (by decide)]
  exact hj.notPrint

theorem reads_unfinished {top after : Bool} {js : List Lexeme} (h : Passable top after js) :
    statement.Reads (js ++ [eof]) none [eof] := by
  refine reads_skipped ?_ (passable_next h (by decide) []) ?_ (reads_skip_eof h.inner)
  · rw [startsPrint_append (by decide)]
    exact h.notPrint
  · exact startsStep_inner fun l hl => (h.inner l hl).1

/-- A known statement starts with an identifier or with a word it is told by. -/
theorem statement_next {G : Dialect} {s : Statement} {us : List Lexeme} (h : s.Spelled G us)
    (vs : List Lexeme) : next (us ++ vs) ∈ .identifier :: Kind.openings := by
  cases h with
  | print _ _ => simp
  | declare hk _ _ => simp [Kind.openings, hk]
  | step n d => simp
  | branch _ _ _ => simp [Kind.openings]
  | repeatWhile _ _ => simp [Kind.openings]
  | count _ _ _ _ => simp [Kind.openings]

/-- A body that follows a branch open to an `else` does not start with one. -/
theorem body_next {top behind : Bool} {ss : List Statement} {us vs : List Lexeme}
    (h : SpelledBody .full top true behind ss us)
    (hv : behind = true → next vs ≠ .elseKeyword) : next (us ++ vs) ≠ .elseKeyword := by
  cases h with
  | nil => exact hv rfl
  | @cons _ _ _ s ss us' vs' hs _ =>
    intro he
    have hm := statement_next hs (vs' ++ vs)
    rw [← List.append_assoc, he] at hm
    simp [Kind.openings, Kind.types] at hm
  | @unknown _ _ _ ss js vs' hj _ =>
    cases js with
    | nil => simp
    | cons j js => exact hj.1.notElse rfl j (by simp)

theorem statement_next_stop {G : Dialect} {s : Statement} {us : List Lexeme}
    (h : s.Spelled G us) (vs : List Lexeme) (top : Bool) : next (us ++ vs) ∉ stops top := by
  have hm := statement_next h vs
  intro hs
  cases top <;> simp only [stops, List.mem_cons, List.not_mem_nil, or_false] at hs
  · rcases hs with hs | hs <;> rw [hs] at hm <;> simp [Kind.openings, Kind.types] at hm
  · rw [hs] at hm
    simp [Kind.openings, Kind.types] at hm

theorem unknown_next_stop {top after : Bool} {js : List Lexeme} (h : Passable top after js)
    (vs : List Lexeme) : next (js ++ sign .semicolon :: vs) ∉ stops top := by
  cases js with
  | nil => cases top <;> simp [stops]
  | cons j js =>
    have he := (h.inner j (by simp)).2
    cases top with
    | false => simp [stops, he, h.notClosing rfl j (by simp)]
    | true => simp [stops, he]

/-- A body goes on after each of its statements. -/
theorem runs_statements_cons {top : Bool} {s : Option Statement} {us vs : List Lexeme}
    {Q : List Statement → List Lexeme → Prop} {E : GrammarError → Prop}
    (hn : next us ∉ stops top) (hs : statement.Reads us s vs)
    (h : (statements (stops top) statement).Runs vs (fun ss => Q (s.toList ++ ss)) E) :
    (statements (stops top) statement).Runs us Q E := by
  rw [statements_eq (eof_mem_stops top)]
  unfold statementsOf
  refine runs_next (runs_neg hn (hs.bind ?_))
  exact Runs.bind h fun ss ms hq => runs_pure hq

theorem reads_statements_nil {top : Bool} {vs : List Lexeme} (h : next vs ∈ stops top) :
    (statements (stops top) statement).Reads vs [] vs := by
  rw [statements_eq (eof_mem_stops top)]
  unfold statementsOf
  exact runs_next (runs_pos h (runs_pure ⟨rfl, rfl⟩))

/-- The lexemes `us` are read statement by statement as `ss`, and then what follows them,
unless that is an `else` which continues the last of them. -/
def ReadsBody (top behind : Bool) (ss : List Statement) (us : List Lexeme) : Prop :=
  ∀ (vs : List Lexeme) (Q : List Statement → List Lexeme → Prop) (E : GrammarError → Prop),
    (behind = true → next vs ≠ .elseKeyword) →
    (statements (stops top) statement).Runs vs Q E →
    (statements (stops top) statement).Runs (us ++ vs) (fun r ms => ∃ r', r = ss ++ r' ∧ Q r' ms) E

theorem ReadsBody.braced {b : Bool} {body : List Statement} {us : List Lexeme}
    (h : ReadsBody false b body us) (vs : List Lexeme) :
    (block statement).Reads (braced us ++ vs) body vs := by
  have hnil : (statements (stops false) statement).Reads (sign .rightBrace :: vs) []
      (sign .rightBrace :: vs) := reads_statements_nil (by simp [stops])
  refine reads_block ((h _ _ _ (by simp) hnil).mono ?_ fun _ h => h)
  rintro r ms ⟨r', rfl, rfl, rfl⟩
  exact ⟨List.append_nil _, rfl⟩

mutual

/-- A spelled statement is read, whatever follows, unless an `else` continues it. -/
theorem reads_statement : ∀ {s : Statement} {us : List Lexeme}, s.Spelled .full us →
    ∀ {vs : List Lexeme}, (s.isOpen = true → next vs ≠ .elseKeyword) →
      statement.Reads (us ++ vs) (some s) vs
  | _, _, .print hm hv, vs, _ => by
    refine runs_statement (fun _ => (reads_print hm hv vs).bind (runs_pure ⟨rfl, rfl⟩))
      (fun h => ?_) (fun h => ?_) (fun h => ?_) (fun h => ?_) (fun h => ?_) fun h _ _ => ?_
    · simp [Kind.types] at h
    · simp at h
    · simp at h
    · simp at h
    · simp [startsStep, startsChange, Kind.steps] at h
    · simp [startsPrint, hm] at h
  | _, _, @Statement.Spelled.declare _ k hk n v hv, vs, _ => by
    refine runs_opened (by simp [Kind.openings, hk])
      (fun _ => (reads_declaration n hv vs).bind (runs_pure ⟨rfl, rfl⟩)) (fun h => ?_)
      (fun h => ?_) fun h => ?_
    all_goals
      have hk' : k = _ := h
      subst hk'
      simp [Kind.types] at hk
  | _, _, .step n d, vs, _ => by
    refine runs_statement (fun h => ?_) (fun h => ?_) (fun h => ?_) (fun h => ?_) (fun h => ?_)
      (fun _ => ?_) fun _ _ h => ?_
    · rw [show [name n, sign d.operator, sign .semicolon] ++ vs =
        [name n, sign d.operator] ++ sign .semicolon :: vs from rfl,
        startsPrint_append (by decide)] at h
      simp [startsPrint] at h
    · simp [Kind.types] at h
    · simp at h
    · simp at h
    · simp at h
    · refine (reads_step n d _).bind ?_
      exact runs_pop fun _ _ => runs_pure ⟨rfl, rfl⟩
    · cases d <;> simp [startsStep, startsChange, Direction.operator, Kind.steps] at h
  | _, _, @Statement.Spelled.branch _ c body o us ws xs b hc hb ho, vs, hv => by
    refine runs_opened (by simp [Kind.openings]) (fun h => ?_) (fun _ => ?_) (fun h => ?_)
      fun h => ?_
    · simp [Kind.types] at h
    · rw [List.cons_append, List.append_assoc]
      exact (reads_branch hc ((readsBody hb).braced _) (reads_otherwise ho hv)).bind
        (runs_pure ⟨rfl, rfl⟩)
    · simp at h
    · simp at h
  | _, _, @Statement.Spelled.repeatWhile _ c body us ws b hc hb, vs, _ => by
    refine runs_opened (by simp [Kind.openings]) (fun h => ?_) (fun h => ?_) (fun _ => ?_)
      fun h => ?_
    · simp [Kind.types] at h
    · simp at h
    · exact (reads_repeatWhile hc ((readsBody hb).braced vs)).bind (runs_pure ⟨rfl, rfl⟩)
    · simp at h
  | _, _, @Statement.Spelled.count _ first c update body fs us xs ws b hf hc hu hb, vs, _ => by
    refine runs_opened (by simp [Kind.openings]) (fun h => ?_) (fun h => ?_) (fun h => ?_)
      fun _ => ?_
    · simp [Kind.types] at h
    · simp at h
    · simp at h
    · simp only [List.cons_append, List.append_assoc]
      exact (reads_count hf hc hu ((readsBody hb).braced vs)).bind (runs_pure ⟨rfl, rfl⟩)

theorem reads_otherwise : ∀ {o : Otherwise} {ws : List Lexeme}, o.Spelled .full ws →
    ∀ {vs : List Lexeme}, (o.isOpen = true → next vs ≠ .elseKeyword) →
      (otherwiseOf statement (branch statement)).Reads (ws ++ vs) o vs
  | _, _, .nothing, vs, hv => by
    unfold otherwiseOf
    exact runs_next (runs_neg (hv rfl) (runs_pure ⟨rfl, rfl⟩))
  | _, _, @Otherwise.Spelled.elseIf _ c body o us ws xs b hc hb ho, vs, hv => by
    unfold otherwiseOf
    refine runs_next (runs_pos rfl (runs_pop fun _ _ => runs_next (runs_pos rfl ?_)))
    rw [List.append_eq, List.cons_append, List.append_assoc]
    exact (reads_branch hc ((readsBody hb).braced _) (reads_otherwise ho hv)).bind
      (runs_pure ⟨rfl, rfl⟩)
  | _, _, @Otherwise.Spelled.elseDo _ body us b hb, vs, _ => by
    unfold otherwiseOf
    refine runs_next (runs_pos rfl (runs_pop fun _ _ => runs_next (runs_neg (by simp [braced]) ?_)))
    exact ((readsBody hb).braced vs).bind (runs_pure ⟨rfl, rfl⟩)

/-- A spelled body is read. -/
theorem readsBody : ∀ {top after behind : Bool} {ss : List Statement} {us : List Lexeme},
    SpelledBody .full top after behind ss us → ReadsBody top behind ss us
  | _, _, _, _, _, .nil => fun _ _ _ _ h =>
    h.mono (fun r ms hq => ⟨r, rfl, hq⟩) fun _ he => he
  | top, _, _, _, _, @SpelledBody.cons _ _ _ _ s ss us ws hs hb => by
    intro vs Q E hv h
    have hopen : s.isOpen = true → next (ws ++ vs) ≠ .elseKeyword := fun ho =>
      body_next (by rwa [ho] at hb) hv
    rw [List.append_assoc]
    refine runs_statements_cons (statement_next_stop hs _ top) (reads_statement hs hopen) ?_
    refine (readsBody hb vs Q E hv h).mono ?_ fun _ he => he
    rintro r ms ⟨r', rfl, hq⟩
    exact ⟨r', rfl, hq⟩
  | top, _, _, _, _, @SpelledBody.unknown _ _ _ _ ss js ws hj hb => by
    intro vs Q E hv h
    rw [List.append_assoc]
    refine runs_statements_cons (unknown_next_stop hj.1 _) (reads_unknown hj _) ?_
    exact readsBody hb vs Q E hv h

end

/-! ## Programs -/

/-- A program is what its statements are read as. -/
theorem parse_of_reads {ts : List Token} {ss : List Statement} {ms : List Lexeme}
    (hl : (ts.map Token.lexeme).getLast? = some eof)
    (h : (statements (stops true) statement).Reads (ts.map Token.lexeme) ss ms) :
    parse ts = .ok ⟨ss⟩ := by
  have hp : program.Reads (ts.map Token.lexeme) ⟨ss⟩ ms := h.bind (runs_pure ⟨rfl, rfl⟩)
  obtain ⟨c', hc, _⟩ := hp.apply (Cursor.sees_ofList hl)
  unfold parse
  rw [hc]

/-- A spelled body, and then an unknown statement that the end of the text cuts off. -/
theorem reads_program {behind : Bool} {ss : List Statement} {us js : List Lexeme}
    (h : SpelledBody .full true false behind ss us) (hj : Passable true behind js) :
    (statements (stops true) statement).Reads (us ++ (js ++ [eof])) ss [eof] := by
  have hend : (statements (stops true) statement).Reads (js ++ [eof]) [] [eof] := by
    have hnil : (statements (stops true) statement).Reads [eof] [] [eof] :=
      reads_statements_nil (by decide)
    cases js with
    | nil => exact hnil
    | cons j js =>
      have he := (hj.inner j (by simp)).2
      refine runs_statements_cons (by simp [stops, he]) (reads_unfinished hj) ?_
      exact hnil
  have hnext : behind = true → next (js ++ [eof]) ≠ .elseKeyword := by
    intro hb
    cases js with
    | nil => simp
    | cons j js => exact hj.notElse hb j (by simp)
  refine (readsBody h _ _ _ hnext hend).mono ?_ fun _ he => he
  rintro r ms ⟨r', rfl, rfl, rfl⟩
  exact ⟨List.append_nil _, rfl⟩

end Offside.Grammar
