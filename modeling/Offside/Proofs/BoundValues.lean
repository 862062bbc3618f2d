import Offside.Proofs.Concatenation
import Offside.Proofs.Declarations
import Offside.Proofs.Derivation

/-!
# The values of bound variables

A variable is bound by a declaration or at the head of a counting loop. In both places its value
is the text of the token behind the equals sign. A declaration takes a literal or an identifier
there and nothing else, the head of a loop any token at all. So in every sequence of tokens that
is read as a program, all values are literals and identifiers exactly if the first values of the
loops are (`parse_bound`), and any token but the end can stand there (`parse_countLexemes`).

That is a law of what a parser takes: of its tokens, and of the variables that are bound in
them (`Parser.Takes`). Only two rules of the grammar bind variables; the others pass on what the
rules inside them have bound.
-/

namespace Offside

open Lexeme (sign name eof)
open Offside.Parser

/-! ## Bindings and where they stand -/

mutual

/-- The bindings of a statement in the order in which they are read, those at the head of a
counting loop marked. -/
def Statement.placed : Statement → List (Bool × Binding)
  | .print _ => []
  | .declare binding => [(false, binding)]
  | .step _ => []
  | .branch _ body otherwise => Statement.listPlaced body ++ otherwise.placed
  | .repeatWhile _ body => Statement.listPlaced body
  | .count first _ _ body => first.toList.map (true, ·) ++ Statement.listPlaced body

/-- The bindings of statements. -/
def Statement.listPlaced : List Statement → List (Bool × Binding)
  | [] => []
  | s :: ss => s.placed ++ Statement.listPlaced ss

/-- The bindings after the body of a branch. -/
def Otherwise.placed : Otherwise → List (Bool × Binding)
  | .nothing => []
  | .elseIf _ body otherwise => Statement.listPlaced body ++ otherwise.placed
  | .elseDo body => Statement.listPlaced body

end

/-- The bindings of a program, those at the heads of counting loops marked. -/
def Program.placed (p : Program) : List (Bool × Binding) := Statement.listPlaced p.body

mutual

theorem Statement.map_placed : ∀ s : Statement, s.placed.map Prod.snd = s.bindings
  | .print _ => rfl
  | .declare _ => rfl
  | .step _ => rfl
  | .branch _ body otherwise => by
    rw [Statement.placed, Statement.bindings, List.map_append, Statement.map_listPlaced body,
      otherwise.map_placed]
  | .repeatWhile _ body => Statement.map_listPlaced body
  | .count first _ _ body => by
    rw [Statement.placed, Statement.bindings, List.map_append, Statement.map_listPlaced body]
    cases first <;> rfl

theorem Statement.map_listPlaced : ∀ ss : List Statement,
    (Statement.listPlaced ss).map Prod.snd = Statement.listBindings ss
  | [] => rfl
  | s :: ss => by
    rw [Statement.listPlaced, Statement.listBindings, List.map_append, s.map_placed,
      Statement.map_listPlaced ss]

theorem Otherwise.map_placed : ∀ o : Otherwise, o.placed.map Prod.snd = o.bindings
  | .nothing => rfl
  | .elseIf _ body otherwise => by
    rw [Otherwise.placed, Otherwise.bindings, List.map_append, Statement.map_listPlaced body,
      otherwise.map_placed]
  | .elseDo body => Statement.map_listPlaced body

end

theorem Statement.listPlaced_append (ss ss' : List Statement) :
    listPlaced (ss ++ ss') = listPlaced ss ++ listPlaced ss' := by
  induction ss with
  | nil => rfl
  | cons s ss ih => rw [List.cons_append, listPlaced, listPlaced, ih, List.append_assoc]

/-- A variable that is bound, with the tokens that bind it. -/
structure Bound where
  /-- It is bound at the head of a counting loop. -/
  counts : Bool
  type : Option Token
  name : Token
  equals : Token
  value : Token

namespace Bound

/-- The tokens, in their order. -/
def tokens (b : Bound) : List Token := b.type.toList ++ [b.name, b.equals, b.value]

/-- The binding that the tokens are read as. -/
def binding (b : Bound) : Binding :=
  ⟨b.name.text, b.value.text, (b.type.map fun t => Text.lower t.text).getD "int"⟩

/-- The binding, marked. -/
def placed (b : Bound) : Bool × Binding := (b.counts, b.binding)

/-- The tokens are what the grammar asks for: in a declaration there is a type, and the value is
a literal or an identifier. -/
structure Fits (b : Bound) : Prop where
  name_kind : b.name.kind = .identifier
  equals_kind : b.equals.kind = .assign
  typed : b.counts = false → b.type.isSome = true
  value_kind : b.counts = false → b.value.kind ∈ Kind.values

end Bound

/-- The variables are bound in these tokens, one after the other, each by neighbours that fit. -/
structure Binds (us : List Token) (bs : List Bound) : Prop where
  sublist : (bs.flatMap Bound.tokens).Sublist us
  together : ∀ b ∈ bs, b.tokens <:+: us
  fits : ∀ b ∈ bs, b.Fits

theorem Binds.none (us : List Token) : Binds us [] := ⟨by simp, by simp, by simp⟩

theorem Binds.append {us vs : List Token} {bs cs : List Bound} (h : Binds us bs)
    (h' : Binds vs cs) : Binds (us ++ vs) (bs ++ cs) where
  sublist := by
    rw [List.flatMap_append]
    exact h.sublist.append h'.sublist
  together b hb := by
    obtain hb | hb := List.mem_append.1 hb
    · exact (h.together b hb).trans (List.prefix_append us vs).isInfix
    · exact (h'.together b hb).trans (List.suffix_append us vs).isInfix
  fits b hb := (List.mem_append.1 hb).elim (h.fits b) (h'.fits b)

theorem binds_one {b : Bound} (h : b.Fits) (vs : List Token) : Binds (b.tokens ++ vs) [b] where
  sublist := by simp
  together := by
    intro b' hb
    rw [List.mem_singleton.1 hb]
    exact (List.prefix_append b.tokens vs).isInfix
  fits := by
    intro b' hb
    rwa [List.mem_singleton.1 hb]

/-! ## What a parser takes -/

theorem Cursor.Leads.rest {c c' : Cursor} (h : c.Leads c') : ∃ us, c.rest = us ++ c'.rest := by
  refine ⟨c.rest.take (c'.index - c.index), ?_⟩
  have hindex := h.index_le
  have hsteps : c'.index = c.index + (c'.index - c.index) := by omega
  rw [Cursor.rest, Cursor.rest, h.tokens_eq, hsteps, ← List.drop_drop, Nat.add_sub_cancel_left,
    List.take_append_drop]

namespace Parser

variable {α β : Type} {Q : α → List Bound → Prop} {R : β → List Bound → Prop}

theorem pop_rest {c c' : Cursor} {t : Token} (h : pop c = (.ok t, c')) :
    c.rest = t :: c'.rest := by
  cases hr : c.rest with
  | nil =>
    have hsize : c.tokens.size ≤ c.index := by simpa [Cursor.rest] using hr
    simp [pop, hsize] at h
  | cons u us =>
    rw [pop_of_rest hr] at h
    cases h
    rw [Cursor.rest_skip_one hr]

theorem expect_rest {kind : Kind} {text : Option String} {c c' : Cursor} {t : Token}
    (h : expect kind text c = (.ok t, c')) : t.kind = kind ∧ c.rest = t :: c'.rest := by
  obtain ⟨t', c₁, h₁, h₂⟩ := bind_ok h
  split at h₂
  · next hkind =>
    cases h₂
    exact ⟨hkind.1, pop_rest h₁⟩
  · cases h₂

/-- When the parser succeeds at the cursor, the tokens it takes bind variables that are related
with its value. -/
def TakesAt (p : Parser α) (c : Cursor) (Q : α → List Bound → Prop) : Prop :=
  ∀ (a : α) (c' : Cursor), p c = (.ok a, c') →
    ∃ us bs, c.rest = us ++ c'.rest ∧ Binds us bs ∧ Q a bs

/-- Wherever the parser succeeds, the tokens it takes bind variables that are related with its
value. -/
def Takes (p : Parser α) (Q : α → List Bound → Prop) : Prop := ∀ c, p.TakesAt c Q

theorem takes_pure {a : α} (h : Q a []) : (pure a : Parser α).Takes Q := by
  intro c a' c' hp
  cases hp
  exact ⟨[], [], rfl, .none _, h⟩

theorem takes_fail (e : GrammarError) : (fail e : Parser α).Takes Q := by
  intro c a c' hp
  cases hp

theorem takes_ite {P : Prop} [Decidable P] {p q : Parser α} (hp : p.Takes Q) (hq : q.Takes Q) :
    (if P then p else q).Takes Q := by
  split
  · exact hp
  · exact hq

theorem Takes.bind {p : Parser α} {f : α → Parser β} (hp : p.Takes Q)
    (hf : ∀ a bs, Q a bs → (f a).Takes fun b cs => R b (bs ++ cs)) : (p >>= f).Takes R := by
  intro c b c' h
  obtain ⟨a, c₁, h₁, h₂⟩ := bind_ok h
  obtain ⟨us, bs, hus, hbinds, hq⟩ := hp c a c₁ h₁
  obtain ⟨vs, cs, hvs, hbinds', hr⟩ := hf a bs hq c₁ b c' h₂
  exact ⟨us ++ vs, bs ++ cs, by rw [hus, hvs, List.append_assoc], hbinds.append hbinds', hr⟩

/-- A step that binds nothing. -/
theorem Forward.takes_bind {p : Parser α} {f : α → Parser β} (hp : Forward p)
    (hf : ∀ a, (f a).Takes R) : (p >>= f).Takes R := by
  have htakes : p.Takes fun _ bs => bs = [] := by
    intro c a c' h
    have hleads := hp c
    rw [h] at hleads
    obtain ⟨us, hus⟩ := hleads.rest
    exact ⟨us, [], hus, .none us, rfl⟩
  refine htakes.bind fun a bs hbs => ?_
  rw [hbs]
  exact hf a

/-- A recursive rule takes what its body takes. -/
theorem takesAt_fixAt {f : Parser α → Parser α} (hf : ∀ p, p.Takes Q → (f p).Takes Q)
    (c : Cursor) : TakesAt (fixAt f) c Q := by
  intro a c' h
  rw [fixAt_eq] at h
  refine hf (unfolding f c) (fun d b d' hd => ?_) c a c' h
  unfold unfolding at hd
  split at hd
  · next hlt => exact takesAt_fixAt hf d b d' hd
  · cases hd
termination_by c.remaining

theorem takes_fix {f : Parser α → Parser α} (hf : ∀ p, p.Takes Q → (f p).Takes Q) :
    (fix f).Takes Q := takesAt_fixAt hf

end Parser

/-! ## The rules that bind variables -/

namespace Grammar

/-- The tokens of a declaration, whose value is checked. -/
theorem takes_declaration :
    declaration.Takes fun b bs => bs.map Bound.placed = [(false, b)] := by
  intro c b c' h
  obtain ⟨type, c₁, htype, h⟩ := bind_ok h
  obtain ⟨name, c₂, hname, h⟩ := bind_ok h
  obtain ⟨equals, c₃, hequals, h⟩ := bind_ok h
  rw [look_bind] at h
  split at h
  · next hkind =>
    obtain ⟨value, c₄, hvalue, h⟩ := bind_ok h
    obtain ⟨semicolon, c₅, hsemicolon, h⟩ := bind_ok h
    cases h
    rw [Cursor.look_of_rest (pop_rest hvalue)] at hkind
    have hfits : (Bound.mk false (some type) name equals value).Fits :=
      ⟨(expect_rest hname).1, (expect_rest hequals).1, fun _ => rfl, fun _ => hkind⟩
    refine ⟨_, _, ?_, binds_one hfits [semicolon], rfl⟩
    rw [pop_rest htype, (expect_rest hname).2, (expect_rest hequals).2, pop_rest hvalue,
      (expect_rest hsemicolon).2]
    rfl
  · cases h

/-- The tokens of a binding at the head of a counting loop, whose value is not looked at. -/
theorem takes_countFirst :
    countFirst.Takes fun o bs => bs.map Bound.placed = o.toList.map (true, ·) := by
  intro c o c' h
  rw [countFirst, lookKind_bind] at h
  split at h
  · cases h
    exact ⟨[], [], rfl, .none _, rfl⟩
  split at h
  · obtain ⟨type, c₁, htype, h⟩ := bind_ok h
    obtain ⟨name, c₂, hname, h⟩ := bind_ok h
    obtain ⟨equals, c₃, hequals, h⟩ := bind_ok h
    obtain ⟨value, c₄, hvalue, h⟩ := bind_ok h
    cases h
    have hfits : (Bound.mk true (some type) name equals value).Fits :=
      ⟨(expect_rest hname).1, (expect_rest hequals).1, nofun, nofun⟩
    refine ⟨_, _, ?_, binds_one hfits [], rfl⟩
    rw [pop_rest htype, (expect_rest hname).2, (expect_rest hequals).2, pop_rest hvalue]
    rfl
  obtain ⟨_, _, hlook, h⟩ := bind_ok h
  cases hlook
  split at h
  · obtain ⟨name, c₂, hname, h⟩ := bind_ok h
    obtain ⟨equals, c₃, hequals, h⟩ := bind_ok h
    obtain ⟨value, c₄, hvalue, h⟩ := bind_ok h
    cases h
    have hfits : (Bound.mk true none name equals value).Fits :=
      ⟨(expect_rest hname).1, (expect_rest hequals).1, nofun, nofun⟩
    refine ⟨_, _, ?_, binds_one hfits [], rfl⟩
    rw [(expect_rest hname).2, (expect_rest hequals).2, pop_rest hvalue]
    rfl
  · cases h
    exact ⟨[], [], rfl, .none _, rfl⟩

/-! ## The rules around them -/

variable {statement : Parser (Option Statement)} {stops : List Kind}

/-- A rule for statements takes what binds their variables. -/
def BindsStatement (p : Parser (Option Statement)) : Prop :=
  p.Takes fun s bs => bs.map Bound.placed = Statement.listPlaced s.toList

theorem takes_statements (hs : BindsStatement statement) : (statements stops statement).Takes
    fun ss bs => bs.map Bound.placed = Statement.listPlaced ss := by
  refine takes_fix fun more hmore => ?_
  refine (forward_inspect _).takes_bind fun _ => takes_ite (takes_pure rfl) ?_
  refine hs.bind fun s bs hbs => hmore.bind fun ss cs hcs => takes_pure ?_
  rw [List.append_nil, List.map_append, hbs, hcs, Statement.listPlaced_append]

theorem takes_block (hs : BindsStatement statement) : (block statement).Takes
    fun ss bs => bs.map Bound.placed = Statement.listPlaced ss := by
  refine (forward_expect _ _).takes_bind fun _ => (takes_statements hs).bind fun ss bs hbs => ?_
  refine (forward_expect _ _).takes_bind fun _ => takes_pure ?_
  rw [List.append_nil, hbs]

theorem takes_guardedBlock (hs : BindsStatement statement) : (guardedBlock statement).Takes
    fun g bs => bs.map Bound.placed = Statement.listPlaced g.2 := by
  refine (forward_expect _ _).takes_bind fun _ => forward_condition.takes_bind fun _ => ?_
  refine (forward_expect _ _).takes_bind fun _ => (takes_block hs).bind fun ss bs hbs => ?_
  refine takes_pure ?_
  rw [List.append_nil, hbs]

theorem takes_branch (hs : BindsStatement statement) : (branch statement).Takes
    fun b bs => bs.map Bound.placed = b.toStatement.placed := by
  refine takes_fix fun inner hinner => ?_
  refine (forward_expect _ _).takes_bind fun _ => (takes_guardedBlock hs).bind fun g bs hbs => ?_
  have hotherwise : (otherwiseOf statement inner).Takes
      fun o cs => cs.map Bound.placed = o.placed := by
    refine (forward_inspect _).takes_bind fun _ => takes_ite ?_ (takes_pure rfl)
    refine forward_pop.takes_bind fun _ => (forward_inspect _).takes_bind fun _ => takes_ite ?_ ?_
    · refine hinner.bind fun next cs hcs => takes_pure ?_
      rw [List.append_nil, hcs]
      rfl
    · refine (takes_block hs).bind fun ss cs hcs => takes_pure ?_
      rw [List.append_nil, hcs]
      rfl
  refine hotherwise.bind fun o cs hcs => takes_pure ?_
  rw [List.append_nil, List.map_append, hbs, hcs]
  rfl

theorem takes_repeatWhile (hs : BindsStatement statement) : (repeatWhile statement).Takes
    fun s bs => bs.map Bound.placed = s.placed := by
  refine (forward_expect _ _).takes_bind fun _ => (takes_guardedBlock hs).bind fun g bs hbs => ?_
  refine takes_pure ?_
  rw [List.append_nil, hbs]
  rfl

theorem takes_count (hs : BindsStatement statement) : (count statement).Takes
    fun s bs => bs.map Bound.placed = s.placed := by
  refine (forward_expect _ _).takes_bind fun _ => (forward_expect _ _).takes_bind fun _ => ?_
  refine takes_countFirst.bind fun first bs hbs => ?_
  refine (forward_expect _ _).takes_bind fun _ => forward_countCondition.takes_bind fun _ => ?_
  refine (forward_expect _ _).takes_bind fun _ => forward_countUpdate.takes_bind fun _ => ?_
  refine (forward_expect _ _).takes_bind fun _ => (takes_block hs).bind fun ss cs hcs => ?_
  refine takes_pure ?_
  rw [List.append_nil, List.map_append, hbs, hcs]
  rfl

theorem takes_print : print.Takes fun s bs => bs.map Bound.placed = s.placed := by
  refine (forward_expect _ _).takes_bind fun _ => (forward_expect _ _).takes_bind fun _ => ?_
  refine (forward_expect _ _).takes_bind fun _ => (forward_expect _ _).takes_bind fun _ => ?_
  refine (forward_expect _ _).takes_bind fun _ => takes_ite ?_ (takes_fail _)
  refine (forward_expect _ _).takes_bind fun _ => (forward_inspect _).takes_bind fun _ => ?_
  refine takes_ite ?_ (takes_fail _)
  refine forward_pop.takes_bind fun _ => (forward_expect _ _).takes_bind fun _ => ?_
  exact (forward_expect _ _).takes_bind fun _ => takes_pure rfl

/-- A rule that reads one statement, as a rule that may also pass over an unknown one. -/
theorem bindsStatement_some {α : Type} {p : Parser α} {f : α → Statement}
    (hp : p.Takes fun a bs => bs.map Bound.placed = (f a).placed) :
    BindsStatement (do return some (f (← p))) := by
  refine hp.bind fun a bs hbs => takes_pure ?_
  rw [List.append_nil, hbs]
  exact (List.append_nil _).symm

theorem bindsStatement : BindsStatement Grammar.statement := by
  refine takes_fix fun inner hinner => ?_
  refine (forward_inspect _).takes_bind fun _ => (forward_inspect _).takes_bind fun _ => ?_
  refine takes_ite (bindsStatement_some takes_print) ?_
  refine takes_ite (bindsStatement_some takes_declaration) ?_
  refine takes_ite (bindsStatement_some (takes_branch hinner)) ?_
  refine takes_ite (bindsStatement_some (takes_repeatWhile hinner)) ?_
  refine takes_ite (bindsStatement_some (takes_count hinner)) ?_
  refine (forward_inspect _).takes_bind fun _ => takes_ite ?_ ?_
  · refine forward_step.takes_bind fun _ => forward_pop.takes_bind fun _ => takes_pure rfl
  · exact forward_skip.takes_bind fun _ => takes_pure rfl

theorem takes_program : program.Takes fun p bs => bs.map Bound.placed = p.placed := by
  refine (takes_statements bindsStatement).bind fun ss bs hbs => takes_pure ?_
  rw [List.append_nil, hbs]
  rfl

end Grammar

/-! ## Programs -/

/-- The variables of a program are bound in its tokens. -/
theorem exists_binds {ts : List Token} {p : Program} (h : parse ts = .ok p) :
    ∃ bs, bs.map Bound.placed = p.placed ∧ Binds ts bs := by
  have hrun : Grammar.program (Cursor.ofList ts) =
      (.ok p, (Grammar.program (Cursor.ofList ts)).2) := Prod.ext h rfl
  obtain ⟨us, bs, hus, hbinds, hbs⟩ := Grammar.takes_program _ _ _ hrun
  have hts : ts = us ++ (Grammar.program (Cursor.ofList ts)).2.rest := by
    rw [← hus]
    simp [Cursor.rest, Cursor.ofList]
  refine ⟨bs, hbs, ?_⟩
  rw [hts, ← List.append_nil bs]
  exact hbinds.append (.none _)

/-- The lexemes of a counting loop that does nothing, with a first value and a type or none. -/
def countLexemes (typed : Bool) (n : String) (v : Lexeme) : List Lexeme :=
  sign .forKeyword :: sign .leftParen :: ((if typed then [sign .intType] else []) ++
    [name n, sign .assign, v, sign .semicolon, sign .semicolon, sign .rightParen,
     sign .leftBrace, sign .rightBrace])

/-- Any token but the end may be the first value of a counting loop, in front of any program. -/
theorem parse_countLexemes {ts : List Token} {p : Program} (h : parse ts = .ok p)
    (hend : (ts.map Token.lexeme).getLast? = some eof) (typed : Bool) (n : String) {v : Token}
    (hv : v.kind ≠ .eof) {us : List Token}
    (hus : us.map Token.lexeme = countLexemes typed n v.lexeme) :
    parse (us ++ ts) = .ok ⟨.count (some ⟨n, v.text, "int"⟩) none none [] :: p.body⟩ := by
  have hcount : Statement.Spelled .full (.count (some ⟨n, v.text, "int"⟩) none none [])
      (countLexemes typed n v.lexeme) := by
    cases typed with
    | true =>
      have hfirst : SpelledFirst .full (some ⟨n, v.text, "int"⟩)
          [sign .intType, name n, sign .assign, v.lexeme] :=
        .typed (k := .intType) (by decide) n (v := v.lexeme) hv
      exact .count hfirst .absent .absent .nil
    | false =>
      have hfirst : SpelledFirst .full (some ⟨n, v.text, "int"⟩)
          [name n, sign .assign, v.lexeme] := .untyped n (v := v.lexeme) hv
      exact .count hfirst .absent .absent .nil
  have hbody : SpelledBody .full true false false
      [.count (some ⟨n, v.text, "int"⟩) none none []] (us.map Token.lexeme ++ []) :=
    .cons (hus ▸ hcount) .nil
  rw [List.append_nil] at hbody
  have happend := parse_append List.map_append hbody hend
  rw [h] at happend
  exact happend

/-- Every variable of a program has its value from the token behind its equals sign. These tokens
are all literals and identifiers exactly if those at the heads of counting loops are: a
declaration takes no others. A loop does, whatever token stands there but the end, in front of
every program. -/
theorem parse_bound {ts : List Token} {p : Program} (h : parse ts = .ok p) :
    (∃ bs : List Bound, bs.map Bound.placed = p.placed ∧ bs.map Bound.binding = p.bindings ∧
      Binds ts bs ∧ ((∀ b ∈ bs, b.value.kind ∈ Kind.values) ↔
        ∀ b ∈ bs, b.counts = true → b.value.kind ∈ Kind.values)) ∧
    ((ts.map Token.lexeme).getLast? = some eof → ∀ (typed : Bool) (n : String) (v : Token),
      v.kind ≠ .eof → ∀ us : List Token, us.map Token.lexeme = countLexemes typed n v.lexeme →
        parse (us ++ ts) = .ok ⟨.count (some ⟨n, v.text, "int"⟩) none none [] :: p.body⟩) := by
  obtain ⟨bs, hplaced, hbinds⟩ := exists_binds h
  refine ⟨⟨bs, hplaced, ?_, hbinds, fun hall b hb _ => hall b hb, fun hloops b hb => ?_⟩,
    fun hend typed n v hv us hus => parse_countLexemes h hend typed n hv hus⟩
  · rw [Program.bindings, ← Statement.map_listPlaced, ← Program.placed, ← hplaced, List.map_map]
    rfl
  · cases hcounts : b.counts with
    | true => exact hloops b hb hcounts
    | false => exact (hbinds.fits b hb).value_kind hcounts

/-- A loop may start at a plus sign, which no literal or identifier of the program has the text
of. -/
theorem parse_bound_plus : ∃ ts p, parse ts = .ok p ∧
    ∃ b ∈ p.bindings, ∀ t ∈ ts, t.text = b.value → t.kind ∉ Kind.values := by
  have hempty : parse [Token.eof 0] = .ok ⟨[]⟩ :=
    Grammar.parse_of_reads rfl (Grammar.reads_statements_nil (by decide))
  have hloop := (parse_bound hempty).2 rfl true "i" ⟨.plus, "+", 0⟩ (by decide)
    ((countLexemes true "i" ⟨.plus, "+"⟩).map fun l => ⟨l.kind, l.text, 0⟩) rfl
  exact ⟨_, _, hloop, ⟨"i", "+", "int"⟩, .head _, by decide⟩

end Offside
