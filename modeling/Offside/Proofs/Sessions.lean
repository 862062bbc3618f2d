import Offside.Grammar.Progress

/-!
# Sessions with a cursor

A cursor is asked for one thing after another: to look at a token, to take one, to take one
of a given kind, or to read by a rule of the grammar. A request that fails ends wherever it
has come to, and the next one goes on from there. `session_invariant` says what holds
throughout such a session, whatever the tokens are: none of them changes, the place stays
among them and is never given back, and each request other than a rule moves it by a known
amount.

One request is described by `Request.Effect`; a session follows by induction on its requests.
-/

namespace Offside

open Offside.Parser

/-! ## Requests -/

/-- The rules that a cursor can be read by. -/
inductive Goal where
  | statement
  | print
  | declaration
  | condition
  | branch
  | repeatWhile
  | count
deriving DecidableEq, Repr

/-- What a cursor can be asked for. -/
inductive Request where
  /-- The token `k` places ahead, or behind, which is not taken. -/
  | peek (k : Int)
  /-- The next token. -/
  | pop
  /-- The next token, if it has this kind, and this text where one is given. -/
  | expect (kind : Kind) (text : Option String)
  /-- What a rule makes of the next tokens. -/
  | read (goal : Goal)
deriving DecidableEq, Repr

/-- What a request gives. -/
inductive Answer where
  | token (token : Token)
  | binding (binding : Binding)
  | condition (condition : Condition)
  /-- A statement, or nothing where an unknown one was passed over. -/
  | statement (statement : Option Statement)

/-- Read by a rule. -/
def Goal.run : Goal → Parser Answer
  | statement => do return .statement (← Grammar.statement)
  | print => do return .statement (some (← Grammar.print))
  | declaration => do return .binding (← Grammar.declaration)
  | condition => do return .condition (← Grammar.condition)
  | branch => do return .statement (some (← Grammar.branch Grammar.statement).toStatement)
  | repeatWhile => do return .statement (some (← Grammar.repeatWhile Grammar.statement))
  | count => do return .statement (some (← Grammar.count Grammar.statement))

/-- Meet a request. -/
def Request.run : Request → Parser Answer
  | peek k => do return .token (← Parser.peek k)
  | pop => do return .token (← Parser.pop)
  | expect kind text => do return .token (← Parser.expect kind text)
  | read goal => goal.run

/-- The cursor after some requests, whether they were met or not. -/
def Cursor.after (c : Cursor) (requests : List Request) : Cursor :=
  requests.foldl (fun c r => (r.run c).2) c

theorem Cursor.after_append (c : Cursor) (rs rs' : List Request) :
    c.after (rs ++ rs') = (c.after rs).after rs' := List.foldl_append

/-! ## What a request does -/

/-- How far a request has moved the cursor: not at all for a look, by one for a token that was
taken, whether or not it is the one that was needed, and not at all where there was none to
take. A rule may take any number. -/
def Request.Moved (c c' : Cursor) : Request → Except GrammarError Answer → Prop
  | peek _, _ => c'.index = c.index
  | pop, .ok _ => c'.index = c.index + 1
  | pop, .error e => e = .outOfTokens ∧ c'.index = c.index
  | expect _ _, .ok _ => c'.index = c.index + 1
  | expect kind text, .error e =>
    (∃ found, e = .expected kind text found ∧ c'.index = c.index + 1) ∨
      e = .outOfTokens ∧ c'.index = c.index
  | read _, _ => True

/-- What a request leaves of the cursor `c`, with the outcome it has. -/
structure Request.Effect (r : Request) (c c' : Cursor) (outcome : Except GrammarError Answer) :
    Prop where
  tokens_eq : c'.tokens = c.tokens
  index_le : c.index ≤ c'.index
  index_le_size : c'.index ≤ c.tokens.size
  moved : r.Moved c c' outcome

theorem forward_peek (k : Int) : Forward (Parser.peek k) := by
  intro c
  unfold Parser.peek
  split
  · exact .refl c
  · exact .refl c

theorem Goal.forward_run (g : Goal) : Forward g.run := by
  have hs := Grammar.forward_statement
  cases g with
  | statement => exact hs.bind fun _ => forward_pure _
  | print => exact Grammar.forward_print.bind fun _ => forward_pure _
  | declaration => exact Grammar.forward_declaration.bind fun _ => forward_pure _
  | condition => exact Grammar.forward_condition.bind fun _ => forward_pure _
  | branch => exact (Grammar.forward_branch hs).bind fun _ => forward_pure _
  | repeatWhile => exact (Grammar.forward_repeatWhile hs).bind fun _ => forward_pure _
  | count => exact (Grammar.forward_count hs).bind fun _ => forward_pure _

/-- A request only takes tokens. -/
theorem Request.forward_run (r : Request) : Forward r.run := by
  cases r with
  | peek k => exact (forward_peek k).bind fun _ => forward_pure _
  | pop => exact forward_pop.bind fun _ => forward_pure _
  | expect kind text => exact (forward_expect kind text).bind fun _ => forward_pure _
  | read g => exact g.forward_run

theorem Request.moved_peek (k : Int) (c : Cursor) :
    (peek k).Moved c ((peek k).run c).2 ((peek k).run c).1 := by
  show (andThen (Parser.peek k c) _).2.index = c.index
  unfold Parser.peek
  cases c.peek? k with
  | none => rfl
  | some t => rfl

theorem Request.moved_pop (c : Cursor) : pop.Moved c (pop.run c).2 (pop.run c).1 := by
  show Moved c (andThen (Parser.pop c) _).2 pop (andThen (Parser.pop c) _).1
  unfold Parser.pop
  cases c.tokens[c.index]? with
  | none => exact ⟨rfl, rfl⟩
  | some t => rfl

theorem Request.moved_expect (kind : Kind) (text : Option String) (c : Cursor) :
    (expect kind text).Moved c ((expect kind text).run c).2 ((expect kind text).run c).1 := by
  show Moved c (andThen (Parser.expect kind text c) _).2 _ (andThen (Parser.expect kind text c) _).1
  have hexpect : Parser.expect kind text c = andThen (Parser.pop c) fun t =>
      if t.kind = kind ∧ text.all (· == t.text) = true then pure t
      else fail (.expected kind text t) := rfl
  rw [hexpect]
  unfold Parser.pop
  cases c.tokens[c.index]? with
  | none => exact .inr ⟨rfl, rfl⟩
  | some t =>
    by_cases ht : t.kind = kind ∧ text.all (· == t.text) = true
    · simp only [andThen, if_pos ht]
      exact rfl
    · simp only [andThen, if_neg ht]
      exact .inl ⟨t, rfl, rfl⟩

/-- What one request does to a cursor among its tokens. -/
theorem Request.effect (r : Request) {c : Cursor} (hc : c.index ≤ c.tokens.size) :
    r.Effect c (r.run c).2 (r.run c).1 := by
  obtain ⟨htokens, hindex, hmax⟩ := r.forward_run c
  have hsize : (r.run c).2.index ≤ c.tokens.size := by omega
  have hmoved : r.Moved c (r.run c).2 (r.run c).1 := by
    cases r with
    | peek k => exact moved_peek k c
    | pop => exact moved_pop c
    | expect kind text => exact moved_expect kind text c
    | read g => exact True.intro
  exact ⟨htokens, hindex, hsize, hmoved⟩

/-! ## Sessions -/

/-- Requests only take tokens. -/
theorem Cursor.leads_after (c : Cursor) (rs : List Request) : c.Leads (c.after rs) := by
  induction rs generalizing c with
  | nil => exact .refl c
  | cons r rs ih => exact (r.forward_run c).trans (ih (r.run c).2)

/-- Throughout a session the tokens stay the same, the place stays among them, each request has
the effect it should, and no later request gives tokens back. -/
theorem session_invariant (ts : List Token) (rs : List Request) :
    ((Cursor.ofList ts).after rs).tokens = ts.toArray ∧
    ((Cursor.ofList ts).after rs).index ≤ ts.length ∧
    (∀ r : Request, r.Effect ((Cursor.ofList ts).after rs) ((Cursor.ofList ts).after (rs ++ [r]))
      (r.run ((Cursor.ofList ts).after rs)).1) ∧
    ∀ rs' : List Request,
      ((Cursor.ofList ts).after rs).index ≤ ((Cursor.ofList ts).after (rs ++ rs')).index := by
  obtain ⟨htokens, -, hmax⟩ := (Cursor.ofList ts).leads_after rs
  have hindex : ((Cursor.ofList ts).after rs).index ≤ ts.length := by
    simpa [Cursor.ofList] using hmax
  refine ⟨htokens, hindex, ?_, ?_⟩
  · intro r
    rw [Cursor.after_append]
    apply r.effect
    rw [htokens]
    simpa [Cursor.ofList] using hindex
  · intro rs'
    rw [Cursor.after_append]
    exact (Cursor.leads_after _ rs').index_le

end Offside
