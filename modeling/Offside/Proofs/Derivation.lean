import Offside.Proofs.Lexemes

/-!
# Conditions and their derivations

The grammar of conditions as a relation between tokens and conditions, stated apart from the rule
that reads them, and the proof that the rule accepts what the relation derives and nothing else.
Nothing is assumed of the texts of the tokens: they need not be what a text was cut into. The
tokens only have to end with the end of a text.

The rule stops where no operator goes on. So a derivation is read as a whole only if no connective
follows it, and no comparison where it ends in an identifier that is not compared.

`parse_condition` goes on in a loop as long as a connective follows, where the rule takes one
connective and the condition behind it. The two are the same (`fix_loopOf`): the condition behind
the first connective is read by the same loop, which ends where no connective follows.
-/

namespace Offside

/-! ## Tokens taken off a cursor -/

namespace Cursor

/-- So many tokens are taken. -/
def skip (c : Cursor) (n : Nat) : Cursor := { c with index := c.index + n }

theorem skip_skip (c : Cursor) (m n : Nat) : (c.skip m).skip n = c.skip (m + n) := by
  simp [skip, Nat.add_assoc]

theorem skip_around (c : Cursor) (l r : Token) (us : List Token) :
    ((c.skip 1).skip us.length).skip 1 = c.skip (l :: (us ++ [r])).length := by
  rw [skip_skip, skip_skip]
  congr 1
  simp only [List.length_cons, List.length_append, List.length_nil]
  omega

theorem skip_across (c : Cursor) (o : Token) (us vs : List Token) :
    ((c.skip us.length).skip 1).skip vs.length = c.skip (us ++ o :: vs).length := by
  rw [skip_skip, skip_skip]
  congr 1
  simp only [List.length_cons, List.length_append]
  omega

theorem rest_skip {c : Cursor} {us vs : List Token} (h : c.rest = us ++ vs) :
    (c.skip us.length).rest = vs := by
  have hdrop : c.rest.drop us.length = vs := by rw [h, List.drop_left]
  simpa [rest, skip] using hdrop

theorem rest_skip_one {c : Cursor} {t : Token} {ts : List Token} (h : c.rest = t :: ts) :
    (c.skip 1).rest = ts := (rest_eq_cons h).2

theorem look_of_rest {c : Cursor} {t : Token} {ts : List Token} (h : c.rest = t :: ts) :
    c.look 0 = t := by
  have ht := (rest_eq_cons h).1
  simp [look, ht]

theorem kindAt_of_rest {c : Cursor} {t : Token} {ts : List Token} (h : c.rest = t :: ts) :
    c.kindAt 0 = t.kind := congrArg Token.kind (look_of_rest h)

theorem look_of_rest_nil {c : Cursor} (h : c.rest = []) : c.look 0 = c.last := by
  have hsize : c.tokens.size ≤ c.index := by simpa [rest] using h
  simp [look, hsize]

/-- Before the end, a token and at least the end are ahead. -/
theorem exists_rest {c : Cursor} (hc : c.last.kind = .eof) (hk : c.kindAt 0 ≠ .eof) :
    ∃ t u us, c.rest = t :: u :: us := by
  cases hr : c.rest with
  | nil =>
    rw [kindAt, look_of_rest_nil hr] at hk
    exact absurd hc hk
  | cons t ts =>
    cases ts with
    | cons u us => exact ⟨t, u, us, rfl⟩
    | nil =>
      -- a token that stands alone is the last one
      have hlast : c.tokens.toList.getLast? = some t := by
        rw [← List.take_append_drop c.index c.tokens.toList,
          show c.tokens.toList.drop c.index = [t] from hr, List.getLast?_append]
        rfl
      have ht : c.last = t := by
        rw [last, ← Array.getLast?_toList, hlast]
        rfl
      rw [kindAt, look_of_rest hr, ← ht] at hk
      exact absurd hc hk

end Cursor

namespace Parser

theorem pop_of_rest {c : Cursor} {t : Token} {ts : List Token} (h : c.rest = t :: ts) :
    pop c = (.ok t, c.skip 1) := by
  unfold pop
  rw [(Cursor.rest_eq_cons h).1]
  rfl

variable {α β : Type}

theorem look_bind (f : Token → Parser β) (c : Cursor) : (look 0 >>= f) c = f (c.look 0) c := rfl

theorem lookKind_bind (f : Kind → Parser β) (c : Cursor) :
    (lookKind 0 >>= f) c = f (c.kindAt 0) c := rfl

theorem pop_bind {c : Cursor} {t : Token} {ts : List Token} (h : c.rest = t :: ts)
    (f : Token → Parser β) : (pop >>= f) c = f t (c.skip 1) := by
  rw [bind_apply, pop_of_rest h]
  rfl

theorem bind_of_ok {p : Parser α} {c c' : Cursor} {a : α} (h : p c = (.ok a, c'))
    (f : α → Parser β) : (p >>= f) c = f a c' := by
  rw [bind_apply, h]
  rfl

theorem bind_of_error {p : Parser α} {c c' : Cursor} {e : GrammarError} (h : p c = (.error e, c'))
    (f : α → Parser β) : (p >>= f) c = (.error e, c') := by
  rw [bind_apply, h]
  rfl

theorem bind_assoc {γ : Type} (p : Parser α) (f : α → Parser β) (g : β → Parser γ) :
    (p >>= f) >>= g = p >>= fun a => f a >>= g := by
  funext c
  rw [bind_apply, bind_apply, bind_apply]
  cases p c with
  | mk r c' => cases r <;> rfl

theorem if_pos_apply {P : Prop} [Decidable P] (h : P) (p q : Parser α) (c : Cursor) :
    (if P then p else q) c = p c := by
  rw [if_pos h]

theorem if_neg_apply {P : Prop} [Decidable P] (h : ¬ P) (p q : Parser α) (c : Cursor) :
    (if P then p else q) c = q c := by
  rw [if_neg h]

theorem expect_of_rest {c : Cursor} {t : Token} {ts : List Token} (h : c.rest = t :: ts)
    {k : Kind} (hk : t.kind = k) : expect k none c = (.ok t, c.skip 1) := by
  unfold expect
  rw [pop_bind h, if_pos_apply ⟨hk, rfl⟩]
  rfl

theorem expect_of_rest_ne {c : Cursor} {t : Token} {ts : List Token} (h : c.rest = t :: ts)
    {k : Kind} (hk : t.kind ≠ k) :
    expect k none c = (.error (.expected k none t), c.skip 1) := by
  unfold expect
  rw [pop_bind h, if_neg_apply fun ht => hk ht.1]
  rfl

end Parser

namespace Grammar

open Offside.Parser

/-! ## The grammar -/

mutual

/-- `DerivesTerm us t bare`: the tokens are a term, and `t` is the condition it stands for. `bare`
says that the term is an identifier that is not compared. -/
inductive DerivesTerm : List Token → Condition → Bool → Prop
  | name {x : Token} (hx : x.kind = .identifier) : DerivesTerm [x] (.test x.text "" "") true
  | compare {x o v : Token} (hx : x.kind = .identifier) (ho : o.kind ∈ Kind.comparisons)
      (hv : v.kind ∈ Kind.operands) : DerivesTerm [x, o, v] (.test x.text o.text v.text) false
  | truth {x : Token} (hx : x.kind ∈ Kind.truths) : DerivesTerm [x] (.test x.text "" "") false
  | group {l r : Token} {us : List Token} {t : Condition} {bare : Bool}
      (hl : l.kind = .leftParen) (h : Derives us t bare) (hr : r.kind = .rightParen) :
      DerivesTerm (l :: (us ++ [r])) t false

/-- `Derives us t bare`: the tokens are a condition, a term or a term joined with a condition.
`bare` is about the last term. -/
inductive Derives : List Token → Condition → Bool → Prop
  | term {us : List Token} {t : Condition} {bare : Bool} (h : DerivesTerm us t bare) :
      Derives us t bare
  | join {us vs : List Token} {o : Token} {l r : Condition} {bare bare' : Bool}
      (hl : DerivesTerm us l bare) (ho : o.kind ∈ Kind.connectives) (hr : Derives vs r bare') :
      Derives (us ++ o :: vs) (.join l o.text r) bare'

end

/-- The token does not go on with a term: if the term is an identifier that is not compared, it
is no comparison. -/
def EndsTerm (bare : Bool) (u : Token) : Prop := bare = true → u.kind ∉ Kind.comparisons

/-! ## The rules, case by case -/

theorem comparison_of_not {c : Cursor} (h : c.kindAt 0 ∉ Kind.comparisons) (n : String) :
    comparison n c = (.ok (.test n "" ""), c) := by
  unfold comparison
  rw [lookKind_bind, if_neg_apply h]
  rfl

theorem comparison_of_rest {c : Cursor} {o v : Token} {vs : List Token}
    (h : c.rest = o :: v :: vs) (ho : o.kind ∈ Kind.comparisons) (n : String) :
    comparison n c = if v.kind ∈ Kind.operands then (.ok (.test n o.text v.text), c.skip 2)
      else (.error (.expectedOperand o.text v.kind), c.skip 1) := by
  have hrest : (c.skip 1).rest = v :: vs := Cursor.rest_skip_one h
  unfold comparison
  rw [lookKind_bind, Cursor.kindAt_of_rest h, if_pos_apply ho, pop_bind h, lookKind_bind,
    Cursor.kindAt_of_rest hrest]
  by_cases hv : v.kind ∈ Kind.operands
  · rw [if_pos_apply hv, if_pos hv, pop_bind hrest, Cursor.skip_skip]
    rfl
  · rw [if_neg_apply hv, if_neg hv]
    rfl

section Term

variable {inner : Parser Condition} {c : Cursor} {x : Token} {ts : List Token}

theorem term_of_name (h : c.rest = x :: ts) (hx : x.kind = .identifier) :
    term inner c = comparison x.text (c.skip 1) := by
  unfold term
  rw [look_bind, Cursor.look_of_rest h, if_pos_apply hx, pop_bind h]

theorem term_of_truth (h : c.rest = x :: ts) (hx : x.kind ∈ Kind.truths) :
    term inner c = (.ok (.test x.text "" ""), c.skip 1) := by
  have hne : x.kind ≠ .identifier := by
    intro he
    rw [he] at hx
    exact absurd hx (by decide)
  unfold term
  rw [look_bind, Cursor.look_of_rest h, if_neg_apply hne, if_pos_apply hx, pop_bind h]
  rfl

theorem term_of_leftParen (h : c.rest = x :: ts) (hx : x.kind = .leftParen) :
    term inner c = (inner >>= fun t => expect .rightParen none >>= fun _ => pure t) (c.skip 1) := by
  unfold term
  rw [look_bind, Cursor.look_of_rest h, if_neg_apply (by rw [hx]; decide),
    if_neg_apply (by rw [hx]; decide), if_pos_apply hx, pop_bind h]

theorem term_of_not (hn : c.kindAt 0 ≠ .identifier) (ht : c.kindAt 0 ∉ Kind.truths)
    (hl : c.kindAt 0 ≠ .leftParen) :
    term inner c = (.error (.expectedCondition (c.look 0)), c) := by
  unfold term
  rw [look_bind]
  exact (if_neg_apply hn _ _ _).trans ((if_neg_apply ht _ _ _).trans (if_neg_apply hl _ _ _))

theorem connectedOf_of_not (h : c.kindAt 0 ∉ Kind.connectives) (left : Condition) :
    connectedOf inner left c = (.ok left, c) := by
  unfold connectedOf
  rw [lookKind_bind, if_neg_apply h]
  rfl

theorem connectedOf_of_rest (h : c.rest = x :: ts) (hx : x.kind ∈ Kind.connectives)
    (left : Condition) : connectedOf inner left c =
      (inner >>= fun right => pure (.join left x.text right)) (c.skip 1) := by
  unfold connectedOf
  rw [lookKind_bind, Cursor.kindAt_of_rest h, if_pos_apply hx, pop_bind h]

end Term

/-! ## What is derived is read -/

theorem connective_endsTerm {o : Token} (ho : o.kind ∈ Kind.connectives) (bare : Bool) :
    EndsTerm bare o := by
  intro _ hc
  simp only [Kind.connectives, List.mem_cons, List.not_mem_nil, or_false] at ho
  rcases ho with ho | ho
  · rw [ho] at hc
    exact absurd hc (by decide)
  · rw [ho] at hc
    exact absurd hc (by decide)

mutual

theorem term_of_derivesTerm : ∀ {us : List Token} {t : Condition} {bare : Bool},
    DerivesTerm us t bare → ∀ {c : Cursor} {u : Token} {vs : List Token},
      c.rest = us ++ u :: vs → EndsTerm bare u → term condition c = (.ok t, c.skip us.length)
  | _, _, _, @DerivesTerm.name x hx, c, u, vs, h, hu => by
    have hrest : (c.skip 1).rest = u :: vs := Cursor.rest_skip_one h
    rw [term_of_name h hx, comparison_of_not]
    · rfl
    · rw [Cursor.kindAt_of_rest hrest]
      exact hu rfl
  | _, _, _, @DerivesTerm.compare x o v hx ho hv, c, u, vs, h, _ => by
    have hrest : (c.skip 1).rest = o :: v :: u :: vs := Cursor.rest_skip_one h
    rw [term_of_name h hx, comparison_of_rest hrest ho, if_pos hv, Cursor.skip_skip]
    rfl
  | _, _, _, .truth hx, c, u, vs, h, _ => term_of_truth h hx
  | _, _, _, @DerivesTerm.group l r us _ bare hl hd hr, c, u, vs, h, _ => by
    have hrest : (c.skip 1).rest = us ++ r :: (u :: vs) := by
      have hl : c.rest = l :: (us ++ r :: (u :: vs)) := by simpa using h
      exact Cursor.rest_skip_one hl
    have hrest' : ((c.skip 1).skip us.length).rest = r :: (u :: vs) := Cursor.rest_skip hrest
    have hclosed : r.kind ∉ Kind.connectives ∧ EndsTerm bare r := by
      rw [EndsTerm, hr]
      exact ⟨by decide, fun _ => by decide⟩
    rw [term_of_leftParen h hl, bind_of_ok (condition_of_derives hd hrest hclosed.1 hclosed.2),
      bind_of_ok (expect_of_rest hrest' hr), Cursor.skip_around c l r]
    rfl

/-- What is derived is read up to where no operator goes on. -/
theorem condition_of_derives : ∀ {us : List Token} {t : Condition} {bare : Bool},
    Derives us t bare → ∀ {c : Cursor} {u : Token} {vs : List Token},
      c.rest = us ++ u :: vs → u.kind ∉ Kind.connectives → EndsTerm bare u →
        condition c = (.ok t, c.skip us.length)
  | us, _, _, .term hd, c, u, vs, h, hu, hu' => by
    rw [condition_eq, conditionOf, bind_of_ok (term_of_derivesTerm hd h hu')]
    refine connectedOf_of_not ?_ _
    rwa [Cursor.kindAt_of_rest (Cursor.rest_skip h)]
  | _, _, _, @Derives.join us ws o _ _ _ _ hl ho hr, c, u, vs, h, hu, hu' => by
    rw [List.append_assoc, List.cons_append] at h
    have hrest : (c.skip us.length).rest = o :: (ws ++ u :: vs) := Cursor.rest_skip h
    have hrest' : ((c.skip us.length).skip 1).rest = ws ++ u :: vs :=
      Cursor.rest_skip_one hrest
    rw [condition_eq, conditionOf,
      bind_of_ok (term_of_derivesTerm hl h (connective_endsTerm ho _)),
      connectedOf_of_rest hrest ho, bind_of_ok (condition_of_derives hr hrest' hu hu'),
      Cursor.skip_across c o]
    rfl

end

/-! ## What is read is derived -/

/-- A rule has taken tokens and stands before a token, which with its value fit `D`; or it has met
a token that does not fit. -/
def Answers (c : Cursor) (D : List Token → Condition → Token → Prop)
    (r : Except GrammarError Condition × Cursor) : Prop :=
  (∃ us t u vs, r = (.ok t, c.skip us.length) ∧ c.rest = us ++ u :: vs ∧ D us t u) ∨
    ∃ e c', r = (.error e, c') ∧ e.isSyntax = true

/-- A term and the token after it. -/
def TermBefore (us : List Token) (t : Condition) (u : Token) : Prop :=
  ∃ bare, DerivesTerm us t bare ∧ EndsTerm bare u

/-- A condition and the token after it. -/
def ConditionBefore (us : List Token) (t : Condition) (u : Token) : Prop :=
  ∃ bare, Derives us t bare ∧ u.kind ∉ Kind.connectives ∧ EndsTerm bare u

/-- A list of kinds without the end holds no kind that the cursor sees at the end. -/
theorem kindAt_ne_eof {c : Cursor} {ks : List Kind} (h : c.kindAt 0 ∈ ks) (hks : .eof ∉ ks) :
    c.kindAt 0 ≠ .eof := by
  intro he
  rw [he] at h
  exact hks h

theorem answers_name {c : Cursor} (hc : c.last.kind = .eof) {x u : Token} {us : List Token}
    (h : c.rest = x :: u :: us) (hx : x.kind = .identifier) :
    Answers c TermBefore (comparison x.text (c.skip 1)) := by
  have hrest : (c.skip 1).rest = u :: us := Cursor.rest_skip_one h
  have hkind : (c.skip 1).kindAt 0 = u.kind := Cursor.kindAt_of_rest hrest
  by_cases hu : u.kind ∈ Kind.comparisons
  · -- the operator is not the end, so a token follows it
    obtain ⟨_, v, vs, hus⟩ := Cursor.exists_rest (c := c.skip 1) hc
      (kindAt_ne_eof (hkind ▸ hu) (by decide))
    obtain ⟨-, rfl⟩ : u = _ ∧ us = v :: vs := by simpa [hrest] using hus
    rw [comparison_of_rest hrest hu]
    split
    · next hv =>
      -- nor is the operand
      have hrest' : ((c.skip 1).skip 1).rest = v :: vs := Cursor.rest_skip_one hrest
      have hkind' : ((c.skip 1).skip 1).kindAt 0 = v.kind := Cursor.kindAt_of_rest hrest'
      obtain ⟨_, w, ws, hw⟩ := Cursor.exists_rest (c := (c.skip 1).skip 1) hc
        (kindAt_ne_eof (hkind' ▸ hv) (by decide))
      obtain ⟨-, rfl⟩ : v = _ ∧ vs = w :: ws := by simpa [hrest'] using hw
      exact .inl ⟨[x, u, v], _, w, ws, by rw [Cursor.skip_skip]; rfl, h, false,
        .compare hx hu hv, nofun⟩
    · exact .inr ⟨_, _, rfl, rfl⟩
  · rw [comparison_of_not (hkind ▸ hu)]
    exact .inl ⟨[x], _, u, us, rfl, h, true, .name hx, fun _ => hu⟩

/-- What stands between parentheses is read as it is derived, if the condition is. -/
theorem answers_group {c : Cursor} (hc : c.last.kind = .eof) {x : Token} {us : List Token}
    (h : c.rest = x :: us) (hx : x.kind = .leftParen)
    (hin : Answers (c.skip 1) ConditionBefore (condition (c.skip 1))) :
    Answers c TermBefore (term condition c) := by
  have hrest : (c.skip 1).rest = us := Cursor.rest_skip_one h
  rw [term_of_leftParen h hx]
  rcases hin with ⟨ws, t, r, vs, hr, hw, bare, hd, -, -⟩ | ⟨e, c', hr, he⟩
  · have hrest' : ((c.skip 1).skip ws.length).rest = r :: vs := Cursor.rest_skip hw
    rw [bind_of_ok hr]
    by_cases hk : r.kind = .rightParen
    · obtain ⟨_, y, ys, hy⟩ := Cursor.exists_rest (c := (c.skip 1).skip ws.length) hc
        (by rw [Cursor.kindAt_of_rest hrest', hk]; decide)
      obtain ⟨-, rfl⟩ : r = _ ∧ vs = y :: ys := by simpa [hrest'] using hy
      rw [bind_of_ok (expect_of_rest hrest' hk), Cursor.skip_around c x r]
      refine .inl ⟨x :: (ws ++ [r]), t, y, ys, rfl, ?_, false, .group hx hd hk, nofun⟩
      rw [h, ← hrest, hw]
      simp
    · rw [bind_of_error (expect_of_rest_ne hrest' hk)]
      exact .inr ⟨_, _, rfl, rfl⟩
  · rw [bind_of_error hr]
    exact .inr ⟨e, c', rfl, he⟩

/-- A term is read as it is derived, if the conditions inside it are. -/
theorem answers_term {c : Cursor} (hc : c.last.kind = .eof)
    (ih : ∀ c' : Cursor, c'.remaining < c.remaining → c'.last.kind = .eof →
      Answers c' ConditionBefore (condition c')) :
    Answers c TermBefore (term condition c) := by
  by_cases hn : c.kindAt 0 = .identifier
  · obtain ⟨x, u, us, h⟩ := Cursor.exists_rest hc (by rw [hn]; decide)
    rw [Cursor.kindAt_of_rest h] at hn
    rw [term_of_name h hn]
    exact answers_name hc h hn
  by_cases ht : c.kindAt 0 ∈ Kind.truths
  · obtain ⟨x, u, us, h⟩ := Cursor.exists_rest hc (kindAt_ne_eof ht (by decide))
    rw [Cursor.kindAt_of_rest h] at ht
    rw [term_of_truth h ht]
    exact .inl ⟨[x], _, u, us, rfl, h, false, .truth ht, nofun⟩
  by_cases hl : c.kindAt 0 = .leftParen
  · obtain ⟨x, u, us, h⟩ := Cursor.exists_rest hc (by rw [hl]; decide)
    rw [Cursor.kindAt_of_rest h] at hl
    have hlt : (c.skip 1).remaining < c.remaining := by
      rw [← Cursor.length_rest, ← Cursor.length_rest, h, Cursor.rest_skip_one h]
      simp
    exact answers_group hc h hl (ih _ hlt hc)
  · rw [term_of_not hn ht hl]
    exact .inr ⟨_, _, rfl, rfl⟩

/-- A condition is read as it is derived, or a token does not fit. The induction is on the number
of tokens that remain, since every condition inside another one starts further on. -/
theorem answers_condition (c : Cursor) (hc : c.last.kind = .eof) :
    Answers c ConditionBefore (condition c) := by
  induction hn : c.remaining using Nat.strongRecOn generalizing c with
  | ind n ih =>
    subst hn
    rw [condition_eq, conditionOf]
    rcases answers_term hc fun c' hlt hc' => ih c'.remaining hlt c' hc' rfl with
      ⟨us, l, o, vs, hr, h, bare, hd, ho⟩ | ⟨e, c', hr, he⟩
    · have hrest : (c.skip us.length).rest = o :: vs := Cursor.rest_skip h
      rw [bind_of_ok hr]
      by_cases hk : o.kind ∈ Kind.connectives
      · have hrest' : ((c.skip us.length).skip 1).rest = vs := Cursor.rest_skip_one hrest
        have hlt : ((c.skip us.length).skip 1).remaining < c.remaining := by
          rw [← Cursor.length_rest, ← Cursor.length_rest, h, hrest']
          simp only [List.length_append, List.length_cons]
          omega
        rw [connectedOf_of_rest hrest hk]
        rcases ih _ hlt ((c.skip us.length).skip 1) hc rfl with
          ⟨ws, r, u, xs, hr', hw, bare', hd', hu, hu'⟩ | ⟨e, c', hr', he⟩
        · rw [bind_of_ok hr', Cursor.skip_across c o]
          refine .inl ⟨us ++ o :: ws, _, u, xs, rfl, ?_, bare', .join hd hk hd', hu, hu'⟩
          rw [h, ← hrest', hw]
          simp
        · rw [bind_of_error hr']
          exact .inr ⟨e, c', rfl, he⟩
      · rw [connectedOf_of_not (by rwa [Cursor.kindAt_of_rest hrest])]
        exact .inl ⟨us, l, o, vs, rfl, h, bare, .term hd, hk, ho⟩
    · rw [bind_of_error hr]
      exact .inr ⟨e, c', rfl, he⟩

/-! ## Both directions -/

/-- The tokens from one place to another, and the token at the second place. -/
theorem drop_eq_extract_append {ts : List Token} {i j : Nat} {u : Token} (hij : i ≤ j)
    (hj : ts[j]? = some u) : ts.drop i = ts.extract i j ++ u :: ts.drop (j + 1) := by
  obtain ⟨hlt, rfl⟩ := List.getElem?_eq_some_iff.1 hj
  rw [← List.drop_eq_getElem_cons hlt, List.extract_eq_take_drop]
  have hdrop : ts.drop j = (ts.drop i).drop (j - i) := by
    rw [List.drop_drop]
    congr 1
    omega
  rw [hdrop, List.take_append_drop]

/-- The rule for conditions accepts its grammar and nothing else. From whatever place it starts,
it gives a condition and comes to another place exactly if the tokens between the two derive that
condition and the token there does not go on: it is no connective, and no comparison after an
identifier that is not compared. In all other cases it reports a token that does not fit. -/
theorem condition_eq_ok_iff_derives (ts : List Token)
    (hts : ts.getLast?.map Token.kind = some .eof) (i : Nat) :
    (∀ (t : Condition) (j : Nat), condition ⟨ts.toArray, i⟩ = (.ok t, ⟨ts.toArray, j⟩) ↔
      i ≤ j ∧ ∃ bare u, Derives (ts.extract i j) t bare ∧ ts[j]? = some u ∧
        u.kind ∉ Kind.connectives ∧ (bare = true → u.kind ∉ Kind.comparisons)) ∧
    ((∃ t j, condition ⟨ts.toArray, i⟩ = (.ok t, ⟨ts.toArray, j⟩)) ∨
      ∃ e c, condition ⟨ts.toArray, i⟩ = (.error e, c) ∧ e.isSyntax = true) := by
  have hlast : (⟨ts.toArray, i⟩ : Cursor).last.kind = .eof := by
    obtain ⟨e, he, hk⟩ := Option.map_eq_some_iff.1 hts
    simp [Cursor.last, he, hk]
  have hrest : (⟨ts.toArray, i⟩ : Cursor).rest = ts.drop i := rfl
  have hanswer := answers_condition ⟨ts.toArray, i⟩ hlast
  refine ⟨fun t j => ⟨fun h => ?_, ?_⟩, ?_⟩
  · rcases hanswer with ⟨us, t', u, vs, hr, hus, bare, hd, hu, hu'⟩ | ⟨e, c', hr, -⟩
    · rw [h] at hr
      obtain ⟨rfl, rfl⟩ : t = t' ∧ j = i + us.length := by simpa [Cursor.skip] using hr
      rw [hrest] at hus
      have hextract : ts.extract i (i + us.length) = us := by
        rw [List.extract_eq_take_drop, hus]
        simp
      have hat : ts[i + us.length]? = some u := by
        rw [← List.getElem?_drop, hus]
        simp
      exact ⟨Nat.le_add_right _ _, bare, u, hextract.symm ▸ hd, hat, hu, hu'⟩
    · rw [h] at hr
      cases hr
  · rintro ⟨hij, bare, u, hd, hj, hu, hu'⟩
    have hlt : j < ts.length := (List.getElem?_eq_some_iff.1 hj).1
    rw [condition_of_derives hd (hrest.trans (drop_eq_extract_append hij hj)) hu hu']
    simp only [Cursor.skip, List.extract_eq_take_drop, List.length_take, List.length_drop]
    congr 2
    omega
  · rcases hanswer with ⟨us, t, u, vs, hr, -⟩ | herror
    · exact .inl ⟨t, i + us.length, hr⟩
    · exact .inr herror

/-- Between parentheses and joined to the right: `(x) && y < 1` is read from the second token up
to the parenthesis that closes the head. -/
theorem condition_derives_between_parens : ∃ ts : List Token,
    ts.map Token.text = ["(", "(", "x", ")", "&&", "y", "<", "1", ")", ""] ∧
    ts.getLast?.map Token.kind = some .eof ∧ condition ⟨ts.toArray, 1⟩ =
      (.ok (.join (.test "x" "" "") "&&" (.test "y" "<" "1")), ⟨ts.toArray, 8⟩) := by
  refine ⟨[⟨.leftParen, "(", 0⟩, ⟨.leftParen, "(", 1⟩, ⟨.identifier, "x", 2⟩,
    ⟨.rightParen, ")", 3⟩, ⟨.and, "&&", 4⟩, ⟨.identifier, "y", 5⟩, ⟨.lt, "<", 6⟩,
    ⟨.number, "1", 7⟩, ⟨.rightParen, ")", 8⟩, ⟨.eof, "", 9⟩], rfl, rfl, ?_⟩
  refine ((condition_eq_ok_iff_derives _ rfl 1).1 _ 8).2 ⟨by decide, false, _, ?_, rfl, by decide,
    nofun⟩
  exact .join (.group rfl (.term (.name rfl)) rfl) (by decide)
    (.term (.compare rfl (by decide) (by decide)))

/-! ## Connectives in a loop -/

section Loop

variable {inner : Parser Condition} {c : Cursor}

/-- Connectives, each with the condition behind it, where `inner` reads the conditions and `more`
all but the first pair. -/
def linksOf (inner : Parser Condition) (more : Parser (List (String × Condition))) :
    Parser (List (String × Condition)) := do
  if (← lookKind 0) ∈ Kind.connectives then
    let operator ← pop
    let right ← inner
    let links ← more
    return (operator.text, right) :: links
  else return []

/-- As long as a connective follows, it and the condition behind it. -/
def links (inner : Parser Condition) : Parser (List (String × Condition)) := fix (linksOf inner)

/-- A condition that is read in a loop, in which each connective joins what is read so far with the
condition behind it. -/
def loopOf (inner : Parser Condition) : Parser Condition := do
  let left ← term inner
  let links ← links inner
  return links.foldl (fun left link => .join left link.1 link.2) left

theorem forward_linksOf (h : Forward inner) {more : Parser (List (String × Condition))}
    (hm : Forward more) : Forward (linksOf inner more) :=
  (forward_inspect _).bind fun _ => forward_ite
    (forward_pop.bind fun _ => h.bind fun _ => hm.bind fun _ => forward_pure _) (forward_pure _)

theorem guarded_linksOf (h : Forward inner) : Guarded (linksOf inner) where
  forward _ hm := forward_linksOf h hm
  agree p q c _ _ hpq := by
    unfold linksOf
    refine bind_congr rfl fun _ c₁ h₁ => ?_
    cases h₁
    split
    · refine bind_congr rfl fun _ c₂ h₂ => ?_
      have hc₂ := consumes_pop _ _ _ h₂
      refine bind_congr rfl fun _ c₃ h₃ => ?_
      have hc₃ := h.remaining_le h₃
      exact bind_congr (hpq c₃ (Nat.lt_of_le_of_lt hc₃ hc₂)) fun _ _ _ => rfl
    · rfl

theorem links_eq (h : Forward inner) : links inner = linksOf inner (links inner) :=
  fix_eq (guarded_linksOf h)

theorem forward_links (h : Forward inner) : Forward (links inner) :=
  forward_fix fun _ hm => forward_linksOf h hm

theorem links_congr {p q : Parser Condition} {n : Nat} (hp : Forward p) (h : AgreeBelow n p q) :
    AgreeBelow n (links p) (links q) := by
  refine fix_congr (fun _ hm => forward_linksOf hp hm) fun more c _ hc => ?_
  unfold linksOf
  refine bind_congr rfl fun _ c₁ h₁ => ?_
  cases h₁
  split
  · refine bind_congr rfl fun _ c₂ h₂ => ?_
    have hc₂ := consumes_pop _ _ _ h₂
    exact bind_congr (h c₂ (Nat.lt_trans hc₂ hc)) fun _ _ _ => rfl
  · rfl

theorem guarded_loopOf : Guarded loopOf where
  forward _ h := (forward_term h).bind fun _ => (forward_links h).bind fun _ => forward_pure _
  agree p q c hp hq h := by
    unfold loopOf
    refine bind_congr (term_congr h) fun left c₁ h₁ => ?_
    have hc₁ := consumes_term hq _ _ _ h₁
    exact bind_congr (links_congr hp h c₁ hc₁) fun _ _ _ => rfl

/-- No connective follows a condition that was read: the condition has taken it. -/
theorem kindAt_of_condition {c c' : Cursor} {t : Condition} (h : condition c = (.ok t, c')) :
    c'.kindAt 0 ∉ Kind.connectives := by
  rw [condition_eq, conditionOf] at h
  obtain ⟨left, c₁, h₁, h₂⟩ := bind_ok h
  by_cases hk : c₁.kindAt 0 ∈ Kind.connectives
  · unfold connectedOf at h₂
    rw [lookKind_bind, if_pos_apply hk] at h₂
    obtain ⟨o, c₂, h₃, h₄⟩ := bind_ok h₂
    obtain ⟨right, c₃, h₅, h₆⟩ := bind_ok h₄
    have hc₁ := consumes_term forward_condition _ _ _ h₁
    have hc₂ := consumes_pop _ _ _ h₃
    cases h₆
    exact kindAt_of_condition h₅
  · rw [connectedOf_of_not hk] at h₂
    cases h₂
    exact hk
termination_by c.remaining

theorem links_of_not (h : Forward inner) (hk : c.kindAt 0 ∉ Kind.connectives) :
    links inner c = (.ok [], c) := by
  rw [links_eq h, linksOf, lookKind_bind, if_neg_apply hk]
  rfl

/-- The loop over connectives runs once at most, since the condition behind the first connective
takes all others. -/
theorem links_condition (hk : c.kindAt 0 ∈ Kind.connectives) : links condition c =
    (pop >>= fun o => condition >>= fun right => pure [(o.text, right)]) c := by
  rw [links_eq forward_condition, linksOf, lookKind_bind, if_pos_apply hk]
  refine bind_congr rfl fun o c₁ _ => bind_congr rfl fun right c₂ h₂ => ?_
  rw [bind_of_ok (links_of_not forward_condition (kindAt_of_condition h₂))]

theorem loopOf_condition : loopOf condition = conditionOf condition := by
  funext c
  refine bind_congr rfl fun left c₁ _ => ?_
  by_cases hk : c₁.kindAt 0 ∈ Kind.connectives
  · unfold connectedOf
    rw [bind_apply, links_condition hk, ← bind_apply, bind_assoc, lookKind_bind, if_pos_apply hk]
    refine bind_congr rfl fun o c₂ _ => ?_
    rw [bind_assoc]
    rfl
  · rw [bind_of_ok (links_of_not forward_condition hk), connectedOf_of_not hk]
    rfl

/-- The rule for conditions reads what the loop would. -/
theorem fix_loopOf : fix loopOf = condition := by
  have hall : ∀ n, AgreeBelow n (fix loopOf) condition := by
    intro n
    induction n with
    | zero => exact fun c hc => absurd hc (Nat.not_lt_zero _)
    | succ n ih =>
      intro c hc
      rw [fix_eq guarded_loopOf, condition_eq, ← loopOf_condition]
      refine guarded_loopOf.agree _ _ c (forward_fix guarded_loopOf.forward) forward_condition ?_
      exact ih.mono (Nat.le_of_lt_succ hc)
  funext c
  exact hall (c.remaining + 1) c (Nat.lt_succ_self _)

end Loop

end Grammar

end Offside
