import Offside.Proofs.Reading

/-!
# What is read is spelled

The converse of `Offside.Proofs.Reading`: whatever a rule of the grammar reads, the
lexemes it takes spell the value it gives. Where a rule fails, a token does not fit, or
the tokens run out in the head of a counting loop, the one place where a token is taken
without a look at its kind. `parse_eq_ok_iff` puts both directions together: a
sequence of tokens is read as a program exactly if it spells that program.

The recursive rules are followed by induction on the number of lexemes ahead.
-/

namespace Offside

open Lexeme (sign name eof next Closed)

/-! ## How reading fails -/

/-- The head of a counting loop that the end of the text cuts off at the first value. -/
inductive OpenCount : List Lexeme → Prop
  | typed {k : Kind} (hk : k ∈ Kind.types) (n : String) :
      OpenCount [sign .forKeyword, sign .leftParen, sign k, name n, sign .assign, eof]
  | untyped (n : String) :
      OpenCount [sign .forKeyword, sign .leftParen, name n, sign .assign, eof]

/-- The error is about a token that does not fit, or the tokens run out in the head of a
counting loop. -/
def Fails (ls : List Lexeme) (e : GrammarError) : Prop :=
  e.isSyntax = true ∨ e = .outOfTokens ∧ ∃ us vs, ls = us ++ vs ∧ OpenCount vs

theorem Fails.append {ls : List Lexeme} {e : GrammarError} (h : Fails ls e)
    (us : List Lexeme) : Fails (us ++ ls) e := by
  rcases h with h | ⟨h, vs, ws, rfl, ho⟩
  · exact .inl h
  · exact .inr ⟨h, us ++ vs, ws, (List.append_assoc us vs ws).symm, ho⟩

namespace Lexeme

/-- Before the end there is a well spelled lexeme. -/
theorem Closed.exists_cons {ls : List Lexeme} (h : Closed ls) (hk : next ls ≠ .eof) :
    ∃ l ms, ls = l :: ms ∧ l.WellSpelled ∧ Closed ms := by
  cases h with
  | last => exact absurd rfl hk
  | cons _ hw h => exact ⟨_, _, rfl, hw, h⟩

/-- A lexeme of a kind with one spelling is that spelling. -/
theorem Closed.eq_sign_cons {ls : List Lexeme} (h : Closed ls) {k : Kind} (hk : next ls = k)
    (hs : k.spelling?.isSome = true) : ∃ ms, ls = sign k :: ms ∧ Closed ms := by
  have hne : next ls ≠ .eof := by
    rintro he
    rw [← hk, he] at hs
    cases hs
  obtain ⟨l, ms, rfl, hw, hm⟩ := h.exists_cons hne
  exact ⟨ms, by rw [← hw.eq_sign hk hs], hm⟩

theorem Closed.exists_sign {ls : List Lexeme} (h : Closed ls) {ks : List Kind}
    (hk : next ls ∈ ks) (hs : ∀ k ∈ ks, k.spelling?.isSome = true) :
    ∃ k ms, k ∈ ks ∧ ls = sign k :: ms ∧ Closed ms := by
  obtain ⟨ms, hl, hm⟩ := h.eq_sign_cons rfl (hs _ hk)
  exact ⟨next ls, ms, hk, hl, hm⟩

theorem Closed.exists_name {ls : List Lexeme} (h : Closed ls) (hk : next ls = .identifier) :
    ∃ n ms, ls = name n :: ms ∧ Closed ms := by
  obtain ⟨l, ms, rfl, _, hm⟩ := h.exists_cons (by rw [hk]; decide)
  have hl : l.kind = .identifier := hk
  exact ⟨l.text, ms, by rw [← eq_name hl], hm⟩

theorem Closed.eq_eof {ls : List Lexeme} (h : Closed ls) (hk : next ls = .eof) : ls = [eof] := by
  cases h with
  | last => rfl
  | cons hne _ _ => exact absurd hk hne

end Lexeme

namespace Parser

variable {β : Type}

/-- A kind with one spelling is needed: its spelling is taken, or the error says so. -/
theorem runs_expect_sign {k : Kind} (hk : k.spelling?.isSome = true) {text : Option String}
    {f : Token → Parser β} {ls : List Lexeme} {R : β → List Lexeme → Prop}
    {E : GrammarError → Prop} (h : Closed ls) (he : ∀ e : GrammarError, e.isSyntax = true → E e)
    (hf : ∀ ms, ls = sign k :: ms → Closed ms → ∀ t : Token, (f t).Runs ms R E) :
    (expect k text >>= f).Runs ls R E := by
  obtain ⟨l, ms, rfl⟩ := List.exists_cons_of_ne_nil h.ne_nil
  refine runs_expect (fun hl _ t _ => ?_) fun _ t => he _ rfl
  obtain ⟨ns, hl, hn⟩ := h.eq_sign_cons hl hk
  cases hl
  exact hf ms rfl hn t

/-- An identifier is needed. -/
theorem runs_expect_name {text : Option String} {f : Token → Parser β} {ls : List Lexeme}
    {R : β → List Lexeme → Prop} {E : GrammarError → Prop} (h : Closed ls)
    (he : ∀ e : GrammarError, e.isSyntax = true → E e)
    (hf : ∀ n ms, ls = name n :: ms → Closed ms → text.all (· == n) = true →
      ∀ t : Token, t.text = n → (f t).Runs ms R E) :
    (expect .identifier text >>= f).Runs ls R E := by
  obtain ⟨l, ms, rfl⟩ := List.exists_cons_of_ne_nil h.ne_nil
  refine runs_expect (fun hl ht t htl => ?_) fun _ t => he _ rfl
  refine hf l.text ms (by rw [← Lexeme.eq_name hl]) (h.tail (by rw [hl]; decide)) ht t ?_
  rw [← htl]
  rfl

end Parser

namespace Grammar

open Offside.Parser

/-! ## Conditions -/

/-- The error is about a token that does not fit. -/
def NotFitting (e : GrammarError) : Prop := e.isSyntax = true

/-- Where `ls` is ahead, a condition is read as it is spelled. -/
def RecognisesCondition (ls : List Lexeme) : Prop :=
  condition.Runs ls (fun c ms => ∃ us, ls = us ++ ms ∧ c.Spelled us ∧ Closed ms) NotFitting

theorem runs_comparison (n : String) {ls : List Lexeme} (h : Closed ls) :
    (comparison n).Runs ls
      (fun c ms => ∃ us, name n :: ls = us ++ ms ∧ c.SpelledTerm us ∧ Closed ms) NotFitting := by
  unfold comparison
  refine runs_next (runs_ite (fun hk => ?_) fun _ => ?_)
  · obtain ⟨k, ms, hk, rfl, hm⟩ := h.exists_sign hk (by decide)
    refine runs_pop fun o ho => runs_next (runs_ite (fun hv => ?_) fun _ => runs_fail rfl)
    have hne : next ms ≠ .eof := by
      intro he
      rw [he] at hv
      simp [Kind.operands] at hv
    obtain ⟨v, ns, rfl, _, hn⟩ := hm.exists_cons hne
    refine runs_pop fun t ht => runs_pure ?_
    rw [show o.text = (sign k).text from congrArg Lexeme.text ho,
      show t.text = v.text from congrArg Lexeme.text ht]
    exact ⟨[name n, sign k, v], rfl, .compare n hk hv, hn⟩
  · exact runs_pure ⟨[name n], rfl, .name n, h⟩

theorem runs_term {ls : List Lexeme} (h : Closed ls)
    (ih : ∀ ms : List Lexeme, ms.length < ls.length → Closed ms → RecognisesCondition ms) :
    (term condition).Runs ls
      (fun c ms => ∃ us, ls = us ++ ms ∧ c.SpelledTerm us ∧ Closed ms) NotFitting := by
  unfold term
  refine runs_look fun t ht => ?_
  rw [show t.kind = next ls from congrArg Lexeme.kind ht]
  refine runs_ite (fun hk => ?_) fun _ => runs_ite (fun hk => ?_) fun _ =>
    runs_ite (fun hk => ?_) fun _ => runs_fail rfl
  · obtain ⟨n, ms, rfl, hm⟩ := h.exists_name hk
    refine runs_pop fun u hu => ?_
    rw [show u.text = n from congrArg Lexeme.text hu]
    exact runs_comparison n hm
  · obtain ⟨k, ms, hk, rfl, hm⟩ := h.exists_sign hk (by decide)
    refine runs_pop fun u hu => runs_pure ?_
    rw [show u.text = (sign k).text from congrArg Lexeme.text hu]
    exact ⟨[sign k], rfl, .truth hk, hm⟩
  · obtain ⟨ms, rfl, hm⟩ := h.eq_sign_cons hk rfl
    refine runs_pop fun _ _ => ?_
    refine Runs.bind (ih ms (by simp) hm) ?_
    rintro c ns ⟨us, rfl, hc, hn⟩
    refine runs_expect_sign rfl hn (fun _ he => he) fun xs hx hxs _ => runs_pure ?_
    subst hx
    exact ⟨sign .leftParen :: (us ++ [sign .rightParen]), by simp, .group hc, hxs⟩

theorem spelledTerm_ne_nil {c : Condition} {us : List Lexeme} (h : c.SpelledTerm us) :
    us ≠ [] := by
  cases h <;> simp

/-- A condition is read as it is spelled, or a token does not fit. -/
theorem recognises_condition : ∀ (ls : List Lexeme), Closed ls → RecognisesCondition ls := by
  intro ls
  induction hn : ls.length using Nat.strongRecOn generalizing ls with
  | ind n ih =>
    subst hn
    intro h
    unfold RecognisesCondition
    rw [condition_eq]
    unfold conditionOf connectedOf
    refine Runs.bind (runs_term h fun ms hlt hm => ih ms.length hlt ms rfl hm) ?_
    rintro l ms ⟨us, rfl, hl, hm⟩
    have hpos := List.length_pos_iff.2 (spelledTerm_ne_nil hl)
    refine runs_next (runs_ite (fun hk => ?_) fun _ => ?_)
    · obtain ⟨k, ns, hk, rfl, hns⟩ := hm.exists_sign hk (by decide)
      refine runs_pop fun o ho => ?_
      refine Runs.bind (ih ns.length (by simp; omega) ns rfl hns) ?_
      rintro r xs ⟨vs, rfl, hr, hxs⟩
      refine runs_pure ?_
      rw [show o.text = (sign k).text from congrArg Lexeme.text ho]
      exact ⟨us ++ sign k :: vs, by simp, .join hk hl hr, hxs⟩
    · exact runs_pure ⟨us, rfl, .term hl, hm⟩


/-! ## Statements without a body -/

theorem runs_print {ls : List Lexeme} (h : Closed ls) :
    print.Runs ls (fun s ms => ∃ us, ls = us ++ ms ∧ s.Spelled .full us ∧ s.isOpen = false
      ∧ Closed ms) NotFitting := by
  unfold print
  refine runs_expect_name h (fun _ he => he) ?_
  rintro receiver ms rfl hms hreceiver - -
  refine runs_expect_sign rfl hms (fun _ he => he) ?_
  rintro ms rfl hms -
  refine runs_expect_name hms (fun _ he => he) ?_
  rintro field ms rfl hms hfield - -
  refine runs_expect_sign rfl hms (fun _ he => he) ?_
  rintro ms rfl hms -
  refine runs_expect_name hms (fun _ he => he) ?_
  rintro m ms rfl hms - t ht
  refine runs_ite (fun hm => ?_) fun _ => runs_fail rfl
  refine runs_expect_sign rfl hms (fun _ he => he) ?_
  rintro ms rfl hms -
  refine runs_look fun u hu => ?_
  rw [show u.kind = next ms from congrArg Lexeme.kind hu]
  refine runs_ite (fun hv => ?_) fun _ => runs_fail rfl
  have hne : next ms ≠ .eof := by
    intro he
    simp [he, Kind.printables] at hv
  obtain ⟨v, ms, rfl, -, hms⟩ := hms.exists_cons hne
  refine runs_pop fun a ha => ?_
  refine runs_expect_sign rfl hms (fun _ he => he) ?_
  rintro ms rfl hms -
  refine runs_expect_sign rfl hms (fun _ he => he) ?_
  rintro ms rfl hlast -
  obtain rfl : printReceiver = receiver := by simpa using hreceiver
  obtain rfl : printField = field := by simpa using hfield
  refine runs_pure ?_
  rw [show a.text = v.text from congrArg Lexeme.text ha]
  rw [ht] at hm
  exact ⟨_, rfl, .print (by simpa using hm) hv, rfl, hlast⟩

theorem runs_declaration {ls : List Lexeme} (h : Closed ls) (hk : next ls ∈ Kind.types) :
    declaration.Runs ls (fun b ms => ∃ us, ls = us ++ ms ∧ (Statement.declare b).Spelled .full us
      ∧ Closed ms) NotFitting := by
  obtain ⟨k, ms, hk, rfl, hms⟩ := h.exists_sign hk (by decide)
  unfold declaration
  refine runs_pop fun type htype => ?_
  refine runs_expect_name hms (fun _ he => he) ?_
  rintro n ms rfl hms - t ht
  refine runs_expect_sign rfl hms (fun _ he => he) ?_
  rintro ms rfl hms -
  refine runs_look fun u hu => ?_
  rw [show u.kind = next ms from congrArg Lexeme.kind hu]
  refine runs_ite (fun hv => ?_) fun _ => runs_fail rfl
  have hne : next ms ≠ .eof := by
    intro he
    simp [he, Kind.values] at hv
  obtain ⟨v, ms, rfl, -, hms⟩ := hms.exists_cons hne
  refine runs_pop fun value hvalue => ?_
  refine runs_expect_sign rfl hms (fun _ he => he) ?_
  rintro ms rfl hms -
  refine runs_pure ?_
  rw [ht, show value.text = v.text from congrArg Lexeme.text hvalue,
    show type.text = (sign k).text from congrArg Lexeme.text htype]
  exact ⟨_, rfl, .declare hk n hv, hms⟩

/-- A variable that is changed by one, and then its operator. -/
theorem exists_change {ls : List Lexeme} (h : Closed ls) (hs : startsChange ls = true) :
    ∃ n d ms, ls = name n :: sign (Direction.operator d) :: ms ∧ Closed ms := by
  match ls, hs with
  | l :: o :: ms, hs =>
    simp only [startsChange, Kind.steps, Bool.and_eq_true, beq_iff_eq, List.contains_iff_mem,
      List.mem_cons, List.not_mem_nil, or_false] at hs
    obtain ⟨hl, ho⟩ := hs
    obtain ⟨n, ns, hc, hn⟩ := h.exists_name hl
    cases hc
    rcases ho with ho | ho
    · obtain ⟨xs, hc, hx⟩ := hn.eq_sign_cons ho rfl
      cases hc
      exact ⟨n, .up, ms, rfl, hx⟩
    · obtain ⟨xs, hc, hx⟩ := hn.eq_sign_cons ho rfl
      cases hc
      exact ⟨n, .down, ms, rfl, hx⟩

/-- Passing over stops behind the first semicolon, or at the end. -/
theorem runs_skip {ls : List Lexeme} (h : Closed ls) :
    skip.Runs ls (fun _ ms => ∃ js, (∀ l ∈ js, l.kind ≠ .semicolon ∧ l.kind ≠ .eof) ∧
      (ls = js ++ sign .semicolon :: ms ∧ Closed ms ∨ ls = js ++ [eof] ∧ ms = [eof]))
      fun _ => False := by
  induction h with
  | last =>
    refine (@reads_skip_eof [] (by simp)).mono ?_ fun _ he => he
    rintro _ ms ⟨_, rfl⟩
    exact ⟨[], by simp, .inr ⟨rfl, rfl⟩⟩
  | @cons l ls hk hw h ih =>
    by_cases hs : l.kind = .semicolon
    · obtain rfl := hw.eq_sign hs rfl
      refine (@reads_skip [] (by simp) ls).mono ?_ fun _ he => he
      rintro _ ms ⟨_, rfl⟩
      exact ⟨[], by simp, .inl ⟨rfl, h⟩⟩
    · refine (runs_skip_cons hs hk ih).mono ?_ fun _ he => he
      rintro _ ms ⟨js, hj, hls⟩
      refine ⟨l :: js, ?_, ?_⟩
      · rintro m (_ | ⟨_, hm⟩)
        · exact ⟨hs, hk⟩
        · exact hj m hm
      · rcases hls with ⟨rfl, hm⟩ | ⟨rfl, hm⟩
        · exact .inl ⟨rfl, hm⟩
        · exact .inr ⟨rfl, hm⟩

/-! ## What one statement takes -/

/-- What a statement is read as, and what it leaves: a known statement, an unknown one up
to its semicolon, or an unknown one that the end of the text cuts off. -/
inductive Taken (ls : List Lexeme) : Option Statement → List Lexeme → Prop
  | known {s : Statement} {us ms : List Lexeme} (hl : ls = us ++ ms) (hs : s.Spelled .full us)
      (ho : s.isOpen = true → next ms ≠ .elseKeyword) (hm : Closed ms) : Taken ls (some s) ms
  | unknown {js ms : List Lexeme} (hl : ls = js ++ sign .semicolon :: ms)
      (hj : Dialect.full.unknown true false js) (hm : Closed ms) : Taken ls none ms
  | unfinished {js : List Lexeme} (hl : ls = js ++ [eof]) (hj : Passable true false js) :
      Taken ls none [eof]

/-- Where `ls` is ahead, a statement is read as it is spelled. -/
def RecognisesStatement (ls : List Lexeme) : Prop := statement.Runs ls (Taken ls) (Fails ls)

theorem statement_ne_nil {G : Dialect} {s : Statement} {us : List Lexeme}
    (h : s.Spelled G us) : us ≠ [] := by
  cases h <;> simp

theorem Taken.length_lt {ls ms : List Lexeme} {s : Option Statement} (h : Taken ls s ms)
    (hk : next ls ≠ .eof) : ms.length < ls.length := by
  cases h with
  | known hl hs _ _ =>
    have := List.length_pos_iff.2 (statement_ne_nil hs)
    rw [hl, List.length_append]
    omega
  | unknown hl _ _ =>
    rw [hl, List.length_append, List.length_cons]
    omega
  | @unfinished js hl _ =>
    cases js with
    | nil => exact absurd (by rw [hl]; rfl) hk
    | cons j js => simp [hl]

theorem start_of_next {js ms : List Lexeme} (h : next (js ++ ms) ∉ Kind.openings) :
    ∀ l ∈ js.head?, l.kind ∉ Kind.openings := by
  intro l hl
  obtain ⟨js, rfl⟩ := List.head?_eq_some_iff.1 hl
  exact h

/-- What may be passed over where a body does not end and no `else` stands. -/
theorem passable_within {top after : Bool} {js ms : List Lexeme} (h : Passable true false js)
    (hk : next (js ++ ms) ∉ stops top)
    (ha : after = true → next (js ++ ms) ≠ .elseKeyword) : Passable top after js where
  inner := h.inner
  start := h.start
  notClosing := by
    rintro rfl l hl he
    obtain ⟨js, rfl⟩ := List.head?_eq_some_iff.1 hl
    exact hk (by simp [stops, he])
  notElse := by
    rintro hafter l hl he
    obtain ⟨js, rfl⟩ := List.head?_eq_some_iff.1 hl
    exact ha hafter he
  notPrint := h.notPrint

theorem passable_nil (top after : Bool) : Passable top after [] := by
  constructor <;> simp [startsPrint]

/-! ## Bodies -/

/-- What a body is read as, and what it leaves. Only at the end of the text can an unknown
statement be left without a semicolon. -/
def TakenBody (top after : Bool) (ls : List Lexeme) (ss : List Statement) (ms : List Lexeme) :
    Prop :=
  ∃ behind us js, ls = us ++ (js ++ ms) ∧ SpelledBody .full top after behind ss us ∧
    Passable top behind js ∧ (js ≠ [] → ms = [eof]) ∧ next ms ∈ stops top ∧ Closed ms

/-- A body is read as it is spelled, if its statements are. -/
theorem runs_statements (top : Bool) (ls : List Lexeme)
    (hs : ∀ ms : List Lexeme, ms.length ≤ ls.length → Closed ms → RecognisesStatement ms) :
    ∀ after : Bool, Closed ls → (after = true → next ls ≠ .elseKeyword) →
      (statements (stops top) statement).Runs ls (TakenBody top after ls) (Fails ls) := by
  induction hn : ls.length using Nat.strongRecOn generalizing ls with
  | ind n ih =>
    subst hn
    intro after h ha
    rw [statements_eq (eof_mem_stops top)]
    unfold statementsOf
    refine runs_next (runs_ite (fun hk => ?_) fun hk => ?_)
    · exact runs_pure ⟨after, [], [], rfl, .nil, passable_nil _ _, by simp, hk, h⟩
    refine Runs.bind (hs ls (Nat.le_refl _) h) ?_
    intro s ms ht
    have hlt : ms.length < ls.length := ht.length_lt fun he => hk (he ▸ eof_mem_stops top)
    have hmore := ih ms.length hlt ms
      (fun ns hns => hs ns (Nat.le_trans hns (Nat.le_of_lt hlt))) rfl
    cases ht with
    | @known s us ms hl hknown ho hm =>
      subst hl
      refine Runs.bind ((hmore _ hm ho).mono (fun _ _ h => h) fun _ he => he.append us) ?_
      rintro ss ns ⟨behind, vs, js, rfl, hb, hj, he, hst, hns⟩
      exact runs_pure ⟨behind, us ++ vs, js, by simp, .cons hknown hb, hj, he, hst, hns⟩
    | @unknown js ms hl hj hm =>
      subst hl
      have hfirst : Dialect.full.unknown top after js := ⟨passable_within hj.1 hk ha, hj.2⟩
      refine Runs.bind ((hmore false hm (by simp)).mono (fun _ _ h => h) fun _ he => ?_) ?_
      · rw [List.append_cons]
        exact he.append _
      rintro ss ns ⟨behind, vs, ks, rfl, hb, hks, he, hst, hns⟩
      exact runs_pure ⟨behind, js ++ sign .semicolon :: vs, ks, by simp, .unknown hfirst hb, hks,
        he, hst, hns⟩
    | @unfinished js hl hj =>
      subst hl
      have hend : (statements (stops top) statement).Reads [eof] [] [eof] :=
        reads_statements_nil (eof_mem_stops top)
      refine hend.bind (runs_pure ?_)
      exact ⟨after, [], js, rfl, .nil, passable_within hj hk ha, fun _ => rfl, eof_mem_stops top,
        .last⟩

section Blocks

variable {ls : List Lexeme}

theorem runs_block (h : Closed ls)
    (hs : ∀ ms : List Lexeme, ms.length < ls.length → Closed ms → RecognisesStatement ms) :
    (block statement).Runs ls (fun body ms => ∃ b us, ls = braced us ++ ms ∧
      SpelledBody .full false false b body us ∧ Closed ms) (Fails ls) := by
  unfold block
  refine runs_expect_sign rfl h (fun _ he => .inl he) fun ms hl hm _ => ?_
  subst hl
  have hbody := runs_statements false ms (fun ns hns => hs ns (by simp; omega)) false hm
    (by simp)
  refine Runs.bind (hbody.mono (fun _ _ h => h) fun _ he => he.append [_]) ?_
  rintro body ns ⟨b, us, js, rfl, hb, _, he, _, hns⟩
  refine runs_expect_sign rfl hns (fun _ he => .inl he) fun xs hx hxs _ => runs_pure ?_
  have hj : js = [] := Classical.byContradiction fun hne => by
    rw [he hne] at hx
    cases hx
  subst hj hx
  exact ⟨b, us, by simp [braced], hb, hxs⟩

theorem runs_guardedBlock (h : Closed ls)
    (hs : ∀ ms : List Lexeme, ms.length < ls.length → Closed ms → RecognisesStatement ms) :
    (guardedBlock statement).Runs ls (fun r ms => ∃ b us vs, ls = guarded us vs ++ ms ∧
      r.1.Spelled us ∧ SpelledBody .full false false b r.2 vs ∧ Closed ms) (Fails ls) := by
  unfold guardedBlock
  refine runs_expect_sign rfl h (fun _ he => .inl he) fun ms hl hm _ => ?_
  subst hl
  refine Runs.bind ((recognises_condition ms hm).mono (fun _ _ h => h) fun _ he => .inl he) ?_
  rintro c ns ⟨us, rfl, hc, hns⟩
  refine runs_expect_sign rfl hns (fun _ he => .inl he) fun xs hx hxs _ => ?_
  subst hx
  have hblock := runs_block hxs fun ys hys => hs ys (by simp at hys ⊢; omega)
  refine Runs.bind (hblock.mono (fun _ _ h => h) fun _ he => ?_) ?_
  · have := he.append (sign .leftParen :: (us ++ [sign .rightParen]))
    simpa using this
  rintro body ys ⟨b, vs, rfl, hb, hys⟩
  exact runs_pure ⟨b, us, vs, by simp [guarded], hc, hb, hys⟩

/-- Where `ls` is ahead, a branch is read as it is spelled. -/
def RecognisesBranch (ls : List Lexeme) : Prop :=
  (branch statement).Runs ls (fun b ms => ∃ us, ls = us ++ ms ∧ b.toStatement.Spelled .full us ∧
    (b.otherwise.isOpen = true → next ms ≠ .elseKeyword) ∧ Closed ms) (Fails ls)

theorem runs_otherwise (h : Closed ls)
    (hs : ∀ ms : List Lexeme, ms.length < ls.length → Closed ms → RecognisesStatement ms)
    (hb : ∀ ms : List Lexeme, ms.length < ls.length → Closed ms → RecognisesBranch ms) :
    (otherwiseOf statement (branch statement)).Runs ls
      (fun o ms => ∃ us, ls = us ++ ms ∧ o.Spelled .full us ∧
        (o.isOpen = true → next ms ≠ .elseKeyword) ∧ Closed ms) (Fails ls) := by
  unfold otherwiseOf
  refine runs_next (runs_ite (fun hk => ?_) fun hk => ?_)
  · obtain ⟨xs, rfl, hxs⟩ := h.eq_sign_cons hk rfl
    refine runs_pop fun _ _ => runs_next (runs_ite (fun _ => ?_) fun _ => ?_)
    · refine Runs.bind ((hb xs (by simp) hxs).mono (fun _ _ h => h) fun _ he => he.append [_]) ?_
      rintro ⟨c, body, o⟩ ys ⟨us, rfl, hu, ho, hys⟩
      cases hu with
      | branch hc hbody hw => exact runs_pure ⟨_, rfl, .elseIf hc hbody hw, ho, hys⟩
    · have hblock := runs_block hxs fun ms hms => hs ms (by simp; omega)
      refine Runs.bind (hblock.mono (fun _ _ h => h) fun _ he => he.append [_]) ?_
      rintro last ys ⟨b, us, rfl, hb, hys⟩
      exact runs_pure ⟨_, rfl, .elseDo hb, by simp [Otherwise.isOpen], hys⟩
  · exact runs_pure ⟨[], rfl, .nothing, fun _ => hk, h⟩

/-- A branch is read as it is spelled, with all the branches after its `else`. -/
theorem recognises_branch (ls : List Lexeme) (h : Closed ls)
    (hs : ∀ ms : List Lexeme, ms.length < ls.length → Closed ms → RecognisesStatement ms) :
    RecognisesBranch ls := by
  induction hn : ls.length using Nat.strongRecOn generalizing ls with
  | ind n ih =>
    subst hn
    unfold RecognisesBranch
    rw [branch_eq forward_statement]
    unfold branchOf
    refine runs_expect_sign rfl h (fun _ he => .inl he) fun ms hl hm _ => ?_
    subst hl
    have hblock := runs_guardedBlock hm fun ns hns => hs ns (by simp; omega)
    refine Runs.bind (hblock.mono (fun _ _ h => h) fun _ he => he.append [_]) ?_
    rintro ⟨c, body⟩ ns ⟨b, us, vs, rfl, hc, hb, hns⟩
    have hlt : ns.length < (sign .ifKeyword :: (guarded us vs ++ ns)).length := by
      simp only [List.length_cons, List.length_append]
      omega
    have hrest := runs_otherwise hns (fun ms hms => hs ms (Nat.lt_trans hms hlt))
      fun ms hms hm => ih ms.length (Nat.lt_trans hms hlt) ms hm
        (fun xs hxs => hs xs (Nat.lt_trans hxs (Nat.lt_trans hms hlt))) rfl
    refine Runs.bind (hrest.mono (fun _ _ h => h) fun _ he => he.append (_ :: guarded us vs)) ?_
    rintro o ys ⟨ws, rfl, ho, hopen, hys⟩
    exact runs_pure ⟨_, by simp, .branch hc hb ho, hopen, hys⟩

theorem runs_repeatWhile (h : Closed ls)
    (hs : ∀ ms : List Lexeme, ms.length < ls.length → Closed ms → RecognisesStatement ms) :
    (repeatWhile statement).Runs ls (fun s ms => ∃ us, ls = us ++ ms ∧ s.Spelled .full us ∧
      s.isOpen = false ∧ Closed ms) (Fails ls) := by
  unfold repeatWhile
  refine runs_expect_sign rfl h (fun _ he => .inl he) fun ms hl hm _ => ?_
  subst hl
  have hblock := runs_guardedBlock hm fun ns hns => hs ns (by simp; omega)
  refine Runs.bind (hblock.mono (fun _ _ h => h) fun _ he => he.append [_]) ?_
  rintro ⟨c, body⟩ ns ⟨b, us, vs, rfl, hc, hb, hns⟩
  exact runs_pure ⟨_, by simp, .repeatWhile hc hb, rfl, hns⟩

end Blocks

/-! ## Counting loops -/

/-- The first value of a counting loop, which is taken without a look at it. -/
theorem runs_countFirst {ls : List Lexeme} (h : Closed ls) :
    countFirst.Runs ls (fun first ms =>
      (∃ us, ls = us ++ ms ∧ SpelledFirst .full first us ∧ Closed ms) ∨
      ms = [] ∧ OpenCount (sign .forKeyword :: sign .leftParen :: ls)) NotFitting := by
  unfold countFirst
  refine runs_next (runs_ite (fun _ => ?_) fun _ => runs_ite (fun hk => ?_) fun _ =>
    runs_lookKind (runs_ite (fun _ => ?_) fun _ => ?_))
  · exact runs_pure (.inl ⟨[], rfl, .absent, h⟩)
  · obtain ⟨k, ms, hk, rfl, hms⟩ := h.exists_sign hk (by decide)
    refine runs_pop fun type htype => ?_
    refine runs_expect_name hms (fun _ he => he) ?_
    rintro n ms rfl hms - t ht
    refine runs_expect_sign rfl hms (fun _ he => he) ?_
    rintro ms rfl hms -
    obtain ⟨v, ms, rfl⟩ := List.exists_cons_of_ne_nil hms.ne_nil
    refine runs_pop fun value hvalue => runs_pure ?_
    rw [ht, show value.text = v.text from congrArg Lexeme.text hvalue,
      show type.text = (sign k).text from congrArg Lexeme.text htype]
    by_cases hv : v.kind = .eof
    · cases hms.eq_eof hv
      exact .inr ⟨rfl, .typed hk n⟩
    · exact .inl ⟨_, rfl, .typed hk n hv, hms.tail hv⟩
  · refine runs_expect_name h (fun _ he => he) ?_
    rintro n ms rfl hms - t ht
    refine runs_expect_sign rfl hms (fun _ he => he) ?_
    rintro ms rfl hms -
    obtain ⟨v, ms, rfl⟩ := List.exists_cons_of_ne_nil hms.ne_nil
    refine runs_pop fun value hvalue => runs_pure ?_
    rw [ht, show value.text = v.text from congrArg Lexeme.text hvalue]
    by_cases hv : v.kind = .eof
    · cases hms.eq_eof hv
      exact .inr ⟨rfl, .untyped n⟩
    · exact .inl ⟨_, rfl, .untyped n hv, hms.tail hv⟩
  · exact runs_pure (.inl ⟨[], rfl, .absent, h⟩)

theorem runs_countCondition {ls : List Lexeme} (h : Closed ls) :
    countCondition.Runs ls (fun c ms => ∃ us, ls = us ++ ms ∧ SpelledCondition c us ∧ Closed ms)
      NotFitting := by
  unfold countCondition
  refine runs_next (runs_ite (fun _ => runs_pure ⟨[], rfl, .absent, h⟩) fun _ => ?_)
  refine Runs.bind (recognises_condition ls h) ?_
  rintro c ms ⟨us, rfl, hc, hm⟩
  exact runs_pure ⟨us, rfl, .present hc, hm⟩

theorem runs_countUpdate {ls : List Lexeme} (h : Closed ls) :
    countUpdate.Runs ls (fun u ms => ∃ us, ls = us ++ ms ∧ SpelledUpdate u us ∧ Closed ms)
      NotFitting := by
  unfold countUpdate
  refine runs_inspect (fun c hc => atStep_eq hc) (runs_ite (fun hs => ?_) fun _ => ?_)
  · obtain ⟨n, d, ms, rfl, hm⟩ := exists_change h hs
    refine (reads_step n d ms).bind (runs_pure ⟨_, rfl, .present n d, hm⟩)
  · exact runs_pure ⟨[], rfl, .absent, h⟩

theorem runs_count {ls : List Lexeme} (h : Closed ls)
    (hs : ∀ ms : List Lexeme, ms.length < ls.length → Closed ms → RecognisesStatement ms) :
    (count statement).Runs ls (fun s ms => ∃ us, ls = us ++ ms ∧ s.Spelled .full us ∧
      s.isOpen = false ∧ Closed ms) (Fails ls) := by
  unfold count
  refine runs_expect_sign rfl h (fun _ he => .inl he) ?_
  rintro ms rfl hms -
  refine runs_expect_sign rfl hms (fun _ he => .inl he) ?_
  rintro ms rfl hms -
  refine Runs.bind ((runs_countFirst hms).mono (fun _ _ h => h) fun _ he => .inl he) ?_
  rintro first ms (⟨fs, rfl, hf, hms⟩ | ⟨rfl, ho⟩)
  · refine runs_expect_sign rfl hms (fun _ he => .inl he) ?_
    rintro ms rfl hms -
    refine Runs.bind ((runs_countCondition hms).mono (fun _ _ h => h) fun _ he => .inl he) ?_
    rintro c ms ⟨us, rfl, hc, hms⟩
    refine runs_expect_sign rfl hms (fun _ he => .inl he) ?_
    rintro ms rfl hms -
    refine Runs.bind ((runs_countUpdate hms).mono (fun _ _ h => h) fun _ he => .inl he) ?_
    rintro u ms ⟨xs, rfl, hu, hms⟩
    refine runs_expect_sign rfl hms (fun _ he => .inl he) ?_
    rintro ms rfl hms -
    have hblock := runs_block hms fun ns hns => hs ns (by simp at hns ⊢; omega)
    refine Runs.bind (hblock.mono (fun _ _ h => h) fun _ he => ?_) ?_
    · have := he.append (sign .forKeyword :: sign .leftParen :: (fs ++ sign .semicolon ::
        (us ++ sign .semicolon :: (xs ++ [sign .rightParen]))))
      simpa using this
    rintro body ms ⟨b, vs, rfl, hb, hms⟩
    exact runs_pure ⟨_, by simp, .count hf hc hu hb, rfl, hms⟩
  · exact runs_expect_nil (.inr ⟨rfl, [], _, rfl, ho⟩)

/-! ## All statements -/

theorem runs_step {ls : List Lexeme} (h : Closed ls) (hs : startsStep ls = true) :
    (step >>= fun s => pop >>= fun _ => pure (some (Statement.step s))).Runs ls (Taken ls)
      fun _ => False := by
  simp only [startsStep, Bool.and_eq_true, beq_iff_eq] at hs
  obtain ⟨n, d, ms, rfl, hms⟩ := exists_change h hs.1
  have hk : next ms = .semicolon := by
    cases ms <;> simpa using hs.2
  obtain ⟨ns, rfl, hns⟩ := hms.eq_sign_cons hk rfl
  refine (reads_step n d _).bind (runs_pop fun _ _ => runs_pure ?_)
  have hl : name n :: sign d.operator :: sign .semicolon :: ns =
      [name n, sign d.operator, sign .semicolon] ++ ns := rfl
  exact .known hl (.step n d) (by simp [Statement.isOpen]) hns

/-- What starts like no known statement is passed over. -/
theorem runs_skipped {ls : List Lexeme} (h : Closed ls) (hp : startsPrint ls = false)
    (ho : next ls ∉ Kind.openings) (hs : startsStep ls = false) :
    (skip >>= fun _ => (pure none : Parser (Option Statement))).Runs ls (Taken ls)
      fun _ => False := by
  refine Runs.bind (runs_skip h) ?_
  rintro - ms ⟨js, hj, ⟨rfl, hm⟩ | ⟨rfl, rfl⟩⟩
  · rw [startsPrint_append (by decide)] at hp
    rw [startsStep_append] at hs
    exact runs_pure (.unknown rfl ⟨⟨hj, start_of_next ho, by simp, by simp, hp⟩, hs⟩ hm)
  · rw [startsPrint_append (by decide)] at hp
    exact runs_pure (.unfinished rfl ⟨hj, start_of_next ho, by simp, by simp, hp⟩)

/-- A statement is read as it is spelled, a token does not fit, or the tokens run out in
the head of a counting loop. -/
theorem recognises_statement : ∀ ls : List Lexeme, Closed ls → RecognisesStatement ls := by
  intro ls
  induction hn : ls.length using Nat.strongRecOn generalizing ls with
  | ind n ih =>
    subst hn
    intro h
    have hs : ∀ ms : List Lexeme, ms.length < ls.length → Closed ms → RecognisesStatement ms :=
      fun ms hlt hm => ih ms.length hlt ms rfl hm
    refine runs_statement (fun _ => ?_) (fun hk => ?_) (fun _ => ?_) (fun _ => ?_) (fun _ => ?_)
      (fun hk => ?_) fun hp ho hk => ?_
    · refine Runs.bind ((runs_print h).mono (fun _ _ h => h) fun _ he => .inl he) ?_
      rintro s ms ⟨us, rfl, hs, ho, hm⟩
      exact runs_pure (.known rfl hs (by simp [ho]) hm)
    · refine Runs.bind ((runs_declaration h hk).mono (fun _ _ h => h) fun _ he => .inl he) ?_
      rintro b ms ⟨us, rfl, hs, hm⟩
      exact runs_pure (.known rfl hs (by simp [Statement.isOpen]) hm)
    · refine Runs.bind (recognises_branch ls h hs) ?_
      rintro b ms ⟨us, rfl, hb, ho, hm⟩
      exact runs_pure (.known rfl hb ho hm)
    · refine Runs.bind (runs_repeatWhile h hs) ?_
      rintro s ms ⟨us, rfl, hs, ho, hm⟩
      exact runs_pure (.known rfl hs (by simp [ho]) hm)
    · refine Runs.bind (runs_count h hs) ?_
      rintro s ms ⟨us, rfl, hs, ho, hm⟩
      exact runs_pure (.known rfl hs (by simp [ho]) hm)
    · exact (runs_step h hk).mono (fun _ _ h => h) fun _ he => he.elim
    · exact (runs_skipped h hp ho hk).mono (fun _ _ h => h) fun _ he => he.elim

/-! ## Programs -/

/-- The lexemes of a program: a body, and perhaps an unknown statement that the end of the
text cuts off. -/
def Accepted (ls : List Lexeme) (ss : List Statement) : Prop :=
  ∃ behind us js, ls = us ++ (js ++ [eof]) ∧ SpelledBody .full true false behind ss us ∧
    Passable true behind js

/-- A program is read up to the end of the text, which is not taken. -/
theorem runs_program {ls : List Lexeme} (h : Closed ls) :
    program.Runs ls (fun p ms => ms = [eof] ∧ Accepted ls p.body) (Fails ls) := by
  have hbody := runs_statements true ls (fun ms _ => recognises_statement ms) false h (by simp)
  refine Runs.bind hbody ?_
  rintro ss ms ⟨behind, us, js, rfl, hb, hj, -, hk, hm⟩
  obtain rfl := hm.eq_eof (by simpa [stops] using hk)
  exact runs_pure ⟨rfl, behind, us, js, rfl, hb, hj⟩

/-- Tokens are read as a program exactly if they spell it. -/
theorem parse_eq_ok_iff {ts : List Token} (h : Closed (ts.map Token.lexeme))
    {ss : List Statement} : parse ts = .ok ⟨ss⟩ ↔ Accepted (ts.map Token.lexeme) ss := by
  constructor
  · intro hp
    obtain ⟨_, -, ha⟩ := (runs_program h).ok (Cursor.sees_ofList h.getLast?) hp
    exact ha
  · rintro ⟨behind, us, js, hl, hb, hj⟩
    have hr := reads_program hb hj
    rw [← hl] at hr
    exact parse_of_reads h.getLast? hr

/-- Tokens that are no program have one that does not fit, or run out in the head of a
counting loop. -/
theorem parse_error {ts : List Token} (h : Closed (ts.map Token.lexeme)) {e : GrammarError}
    (he : parse ts = .error e) : Fails (ts.map Token.lexeme) e :=
  (runs_program h).error (Cursor.sees_ofList h.getLast?) he

end Grammar

end Offside
