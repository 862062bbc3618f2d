import Offside.Cursor
import Offside.Grammar.Error

/-!
# Parsers

A parser reads from a cursor and gives a value or an error, and in either case the
place it has come to. Recursive rules are solutions of equations `p = f p`, found by
`Parser.fix`: inside `f`, the rule may be used again wherever the cursor has moved
on. `Parser.fix_eq` says that the equation holds for every `f` that uses its
argument only in such places (`Parser.Guarded`). Parsers only go forward
(`Parser.Forward`), and most take at least one token when they succeed
(`Parser.Consumes`).
-/

namespace Offside

/-- A reader of tokens. -/
def Parser (α : Type) : Type := Cursor → Except GrammarError α × Cursor

namespace Parser

variable {α β : Type}

/-- The rest of a parser after its first step: an error ends it where it arose. -/
def andThen (r : Except GrammarError α × Cursor) (f : α → Parser β) :
    Except GrammarError β × Cursor :=
  match r with
  | (.ok a, c) => f a c
  | (.error e, c) => (.error e, c)

instance : Monad Parser where
  pure a := fun c => (.ok a, c)
  bind p f := fun c => andThen (p c) f

/-! ## Steps -/

/-- Give up where the cursor stands. -/
def fail (e : GrammarError) : Parser α := fun c => (.error e, c)

/-- Look at the cursor without moving it. -/
def inspect (f : Cursor → α) : Parser α := fun c => (.ok (f c), c)

/-- The token `k` places ahead, which is not taken. -/
def look (k : Nat) : Parser Token := inspect (·.look k)

/-- The kind of the token `k` places ahead. -/
def lookKind (k : Nat) : Parser Kind := inspect (·.kindAt k)

/-- Look at a token ahead or behind. -/
def peek (k : Int) : Parser Token := fun c =>
  match c.peek? k with
  | some t => (.ok t, c)
  | none => (.error .outOfTokens, c)

/-- `pop`: take the next token. -/
def pop : Parser Token := fun c =>
  match c.tokens[c.index]? with
  | some t => (.ok t, c.advance)
  | none => (.error .outOfTokens, c)

/-- `expect`: take the next token, which must have the given kind, and the given text if
there is one. A token that does not fit is taken all the same. -/
def expect (kind : Kind) (text : Option String) : Parser Token := do
  let t ← pop
  if t.kind = kind ∧ (text.all (· == t.text)) = true then return t
  else fail (.expected kind text t)

/-! ## Recursion -/

/-- The rule `p` with `p = f p`, at one cursor. Where `f` uses the rule again without
having moved on, that use fails. -/
def fixAt (f : Parser α → Parser α) (c : Cursor) : Except GrammarError α × Cursor :=
  f (fun c' => if c'.remaining < c.remaining then fixAt f c' else (.error .stalled, c')) c
termination_by c.remaining

/-- The rule `p` with `p = f p`. -/
def fix (f : Parser α → Parser α) : Parser α := fixAt f

/-! ## Going forward -/

/-- A parser that only takes tokens, whether it succeeds or fails. -/
def Forward (p : Parser α) : Prop := ∀ c : Cursor, c.Leads (p c).2

/-- A parser that has taken a token whenever it succeeds. -/
def Consumes (p : Parser α) : Prop :=
  ∀ (c : Cursor) (a : α) (c' : Cursor), p c = (.ok a, c') → c'.remaining < c.remaining

theorem bind_apply (p : Parser α) (f : α → Parser β) (c : Cursor) :
    (p >>= f) c = andThen (p c) f := rfl

theorem forward_pure (a : α) : Forward (pure a : Parser α) := fun c => .refl c

theorem forward_fail (e : GrammarError) : Forward (fail e : Parser α) := fun c => .refl c

theorem forward_inspect (f : Cursor → α) : Forward (inspect f) := fun c => .refl c

theorem forward_pop : Forward pop := by
  intro c
  unfold pop
  split
  · next t h => exact Cursor.leads_advance h
  · exact .refl c

theorem Forward.bind {p : Parser α} {f : α → Parser β} (hp : Forward p)
    (hf : ∀ a, Forward (f a)) : Forward (p >>= f) := by
  intro c
  rw [bind_apply]
  have h := hp c
  revert h
  cases p c with
  | mk r c' =>
    intro h
    cases r with
    | ok a => exact h.trans (hf a c')
    | error e => exact h

theorem forward_ite {P : Prop} [Decidable P] {p q : Parser α} (hp : Forward p)
    (hq : Forward q) : Forward (if P then p else q) := by
  split
  · exact hp
  · exact hq

theorem forward_expect (kind : Kind) (text : Option String) : Forward (expect kind text) :=
  forward_pop.bind fun _ => forward_ite (forward_pure _) (forward_fail _)

theorem consumes_pop : Consumes pop := by
  intro c a c' h
  unfold pop at h
  split at h
  · next t ht =>
    cases h
    exact Cursor.remaining_advance ht
  · cases h

/-- The value and the place of a parser's first step, when the whole succeeds. -/
theorem bind_ok {p : Parser α} {f : α → Parser β} {c c' : Cursor} {b : β}
    (h : (p >>= f) c = (.ok b, c')) :
    ∃ a c₁, p c = (.ok a, c₁) ∧ f a c₁ = (.ok b, c') := by
  rw [bind_apply] at h
  revert h
  cases hp : p c with
  | mk r c₁ =>
    intro h
    cases r with
    | ok a => exact ⟨a, c₁, rfl, h⟩
    | error e => cases h

theorem Forward.remaining_le {p : Parser α} (hp : Forward p) {c c' : Cursor}
    {r : Except GrammarError α} (h : p c = (r, c')) : c'.remaining ≤ c.remaining := by
  have := (hp c).remaining_le
  rwa [h] at this

/-- A parser whose first step takes a token takes one. -/
theorem Consumes.bind {p : Parser α} {f : α → Parser β} (hp : Consumes p)
    (hf : ∀ a, Forward (f a)) : Consumes (p >>= f) := by
  intro c b c' h
  obtain ⟨a, c₁, h₁, h₂⟩ := bind_ok h
  exact Nat.lt_of_le_of_lt ((hf a).remaining_le h₂) (hp c a c₁ h₁)

/-- A parser whose second step takes a token takes one. -/
theorem Forward.bind_consumes {p : Parser α} {f : α → Parser β} (hp : Forward p)
    (hf : ∀ a, Consumes (f a)) : Consumes (p >>= f) := by
  intro c b c' h
  obtain ⟨a, c₁, h₁, h₂⟩ := bind_ok h
  exact Nat.lt_of_lt_of_le (hf a c₁ b c' h₂) (hp.remaining_le h₁)

theorem consumes_fail (e : GrammarError) : Consumes (fail e : Parser α) := by
  intro c a c' h
  cases h

theorem consumes_ite {P : Prop} [Decidable P] {p q : Parser α} (hp : Consumes p)
    (hq : Consumes q) : Consumes (if P then p else q) := by
  split
  · exact hp
  · exact hq

theorem consumes_expect (kind : Kind) (text : Option String) : Consumes (expect kind text) :=
  consumes_pop.bind fun _ => forward_ite (forward_pure _) (forward_fail _)

/-- Two parsers agree at a cursor when their first steps do, and the rest does
wherever the first step leads. -/
theorem bind_congr {p q : Parser α} {f g : α → Parser β} {c : Cursor} (hpq : p c = q c)
    (hfg : ∀ a c', q c = (.ok a, c') → f a c' = g a c') : (p >>= f) c = (q >>= g) c := by
  rw [bind_apply, bind_apply, hpq]
  cases hq : q c with
  | mk r c' =>
    cases r with
    | ok a => exact hfg a c' hq
    | error e => rfl

/-! ## Recursive rules solve their equations -/

/-- The two parsers agree wherever fewer than `n` tokens remain. -/
def AgreeBelow (n : Nat) (p q : Parser α) : Prop := ∀ c : Cursor, c.remaining < n → p c = q c

theorem AgreeBelow.mono {p q : Parser α} {m n : Nat} (h : AgreeBelow n p q) (hmn : m ≤ n) :
    AgreeBelow m p q := fun c hc => h c (Nat.lt_of_lt_of_le hc hmn)

/-- `f` makes parsers that go forward out of such parsers, and uses its argument only
where the cursor has moved on. -/
structure Guarded (f : Parser α → Parser α) : Prop where
  forward : ∀ p, Forward p → Forward (f p)
  agree : ∀ (p q : Parser α) (c : Cursor), Forward p → Forward q →
    AgreeBelow c.remaining p q → f p c = f q c

/-- The argument that `fixAt f` hands to `f` at a cursor. -/
def unfolding (f : Parser α → Parser α) (c : Cursor) : Parser α := fun c' =>
  if c'.remaining < c.remaining then fixAt f c' else (.error .stalled, c')

theorem fixAt_eq (f : Parser α → Parser α) (c : Cursor) : fixAt f c = f (unfolding f c) c := by
  rw [fixAt]
  rfl

theorem forward_unfolding {f : Parser α → Parser α} {c : Cursor}
    (h : ∀ c' : Cursor, c'.remaining < c.remaining → c'.Leads (fixAt f c').2) :
    Forward (unfolding f c) := by
  intro c'
  unfold unfolding
  split
  · next hlt => exact h c' hlt
  · exact .refl c'

theorem leads_fixAt {f : Parser α → Parser α} (hf : ∀ p, Forward p → Forward (f p))
    (c : Cursor) : c.Leads (fixAt f c).2 := by
  rw [fixAt_eq]
  exact hf _ (forward_unfolding fun c' _ => leads_fixAt hf c') c
termination_by c.remaining

theorem forward_fix {f : Parser α → Parser α} (hf : ∀ p, Forward p → Forward (f p)) :
    Forward (fix f) := leads_fixAt hf

/-- A guarded rule solves its equation. -/
theorem fix_eq {f : Parser α → Parser α} (hf : Guarded f) : fix f = f (fix f) := by
  funext c
  show fixAt f c = f (fixAt f) c
  rw [fixAt_eq]
  refine hf.agree _ _ c (forward_unfolding fun c' _ => leads_fixAt hf.forward c')
    (leads_fixAt hf.forward) ?_
  intro c' hc'
  simp [unfolding, hc']

/-- Recursive rules whose bodies agree agree. -/
theorem fix_congr {f g : Parser α → Parser α} (hf : ∀ p, Forward p → Forward (f p)) {n : Nat}
    (h : ∀ (p : Parser α) (c : Cursor), Forward p → c.remaining < n → f p c = g p c) :
    AgreeBelow n (fix f) (fix g) := by
  intro c hc
  show fixAt f c = fixAt g c
  have hu : unfolding f c = unfolding g c := by
    funext c'
    unfold unfolding
    split
    · next hlt => exact fix_congr hf h c' (Nat.lt_trans hlt hc)
    · rfl
  rw [fixAt_eq, fixAt_eq, ← hu]
  exact h _ c (forward_unfolding fun c' _ => leads_fixAt hf c') hc
termination_by c => c.remaining

end Parser

end Offside
