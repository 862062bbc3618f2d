import Offside.Grammar.Progress

/-!
# Lexemes ahead of a cursor

A lexeme is a token without its place. The grammar never asks where a token stands,
so what a rule does is decided by the lexemes ahead of the cursor, `Cursor.Sees`.
`Parser.Runs p ls Q E` says what a rule does where `ls` is ahead: it gives a value
and leaves lexemes that fit `Q`, or fails with an error that fits `E`. The lemmas
here are the laws of `Runs` for the steps that all rules are made of.
-/

namespace Offside

/-! ## Lexemes -/

/-- A token without its place. -/
structure Lexeme where
  kind : Kind
  text : String
deriving DecidableEq, Repr

/-- What a token is, wherever it stands. -/
def Token.lexeme (t : Token) : Lexeme := ⟨t.kind, t.text⟩

@[simp] theorem Token.lexeme_kind (t : Token) : t.lexeme.kind = t.kind := rfl

@[simp] theorem Token.lexeme_text (t : Token) : t.lexeme.text = t.text := rfl

namespace Lexeme

/-- The lexeme of a kind that has one spelling. -/
def sign (k : Kind) : Lexeme := ⟨k, k.spelling?.getD ""⟩

/-- An identifier. -/
def name (s : String) : Lexeme := ⟨.identifier, s⟩

/-- The end of a text. -/
def eof : Lexeme := ⟨.eof, ""⟩

@[simp] theorem sign_kind (k : Kind) : (sign k).kind = k := rfl

@[simp] theorem name_kind (s : String) : (name s).kind = .identifier := rfl

@[simp] theorem name_text (s : String) : (name s).text = s := rfl

@[simp] theorem eof_kind : eof.kind = .eof := rfl

@[simp] theorem eof_text : eof.text = "" := rfl

@[simp] theorem lexeme_eof (n : Int) : (Token.eof n).lexeme = eof := rfl

/-- The kind of the first lexeme of a list, or that of the end. -/
def next (ls : List Lexeme) : Kind := (ls.headD eof).kind

@[simp] theorem next_nil : next [] = .eof := rfl

@[simp] theorem next_cons (l : Lexeme) (ls : List Lexeme) : next (l :: ls) = l.kind := rfl

/-- The text is the spelling of the kind, where the kind has one. -/
def WellSpelled (l : Lexeme) : Prop := ∀ w, l.kind.spelling? = some w → l.text = w

theorem WellSpelled.eq_sign {l : Lexeme} (h : l.WellSpelled) {k : Kind} (hk : l.kind = k)
    (hs : k.spelling?.isSome = true) : l = sign k := by
  obtain ⟨w, hw⟩ := Option.isSome_iff_exists.1 hs
  subst hk
  have ht := h w hw
  cases l
  simp_all [sign]

theorem eq_name {l : Lexeme} (hk : l.kind = .identifier) : l = name l.text := by
  cases l
  simp_all [name]

/-- Well spelled lexemes up to the end of a text, which stands last and nowhere else. -/
inductive Closed : List Lexeme → Prop
  | last : Closed [eof]
  | cons {l : Lexeme} {ls : List Lexeme} (hk : l.kind ≠ .eof) (hw : l.WellSpelled)
      (h : Closed ls) : Closed (l :: ls)

theorem Closed.ne_nil {ls : List Lexeme} (h : Closed ls) : ls ≠ [] := by
  cases h <;> simp

/-- Past the end of a text there is nothing. -/
theorem Closed.tail {l : Lexeme} {ls : List Lexeme} (h : Closed (l :: ls))
    (hk : l.kind ≠ .eof) : Closed ls := by
  cases h with
  | last => exact absurd rfl hk
  | cons _ _ h => exact h

theorem Closed.wellSpelled {l : Lexeme} {ls : List Lexeme} (h : Closed (l :: ls)) :
    l.WellSpelled := by
  cases h with
  | last =>
    intro w hw
    simp [Kind.spelling?] at hw
  | cons _ hw _ => exact hw

theorem Closed.wellSpelled_of_mem {ls : List Lexeme} (h : Closed ls) {l : Lexeme} (hl : l ∈ ls) :
    l.WellSpelled := by
  induction h with
  | last =>
    obtain rfl : l = eof := by simpa using hl
    exact Closed.last.wellSpelled
  | cons hk hw h ih =>
    rcases List.mem_cons.1 hl with rfl | hl
    · exact hw
    · exact ih hl

theorem Closed.append {us vs : List Lexeme} (hu : ∀ l ∈ us, l.kind ≠ .eof ∧ l.WellSpelled)
    (hv : Closed vs) : Closed (us ++ vs) := by
  induction us with
  | nil => exact hv
  | cons l us ih =>
    obtain ⟨hk, hw⟩ := hu l (by simp)
    exact .cons hk hw (ih fun m hm => hu m (by simp [hm]))

end Lexeme

/-! ## What a cursor sees -/

/-- The lexemes ahead of the cursor are `ls`, and the text has an end. -/
structure Cursor.Sees (c : Cursor) (ls : List Lexeme) : Prop where
  ahead : c.rest.map Token.lexeme = ls
  last : c.last.lexeme = Lexeme.eof

namespace Cursor

theorem rest_eq_cons {c : Cursor} {t : Token} {ts : List Token} (h : c.rest = t :: ts) :
    c.tokens[c.index]? = some t ∧ c.advance.rest = ts := by
  constructor
  · have h0 : (c.tokens.toList.drop c.index)[0]? = some t := by
      rw [show c.tokens.toList.drop c.index = t :: ts from h]
      rfl
    simpa using h0
  · have h1 : (c.tokens.toList.drop c.index).drop 1 = ts := by
      rw [show c.tokens.toList.drop c.index = t :: ts from h]
      rfl
    simpa [rest, advance, Nat.add_comm] using h1

/-- Looking ahead gives the lexemes ahead, and after them the end. -/
theorem Sees.look {c : Cursor} {ls : List Lexeme} (h : c.Sees ls) (k : Nat) :
    (c.look k).lexeme = ls.getD k Lexeme.eof := by
  obtain ⟨ha, hl⟩ := h
  have hk : ls[k]? = (c.tokens[c.index + k]?).map Token.lexeme := by
    rw [← ha]
    simp [rest]
  rw [List.getD_eq_getElem?_getD, hk, Cursor.look]
  cases c.tokens[c.index + k]? with
  | none => simpa using hl
  | some t => simp

theorem Sees.kindAt {c : Cursor} {ls : List Lexeme} (h : c.Sees ls) (k : Nat) :
    c.kindAt k = (ls.getD k Lexeme.eof).kind := by
  rw [← h.look k]
  rfl

theorem Sees.next {c : Cursor} {ls : List Lexeme} (h : c.Sees ls) :
    c.kindAt 0 = Lexeme.next ls := by
  rw [h.kindAt 0]
  cases ls <;> rfl

theorem Sees.remaining {c : Cursor} {ls : List Lexeme} (h : c.Sees ls) :
    c.remaining = ls.length := by
  rw [← c.length_rest, ← h.ahead, List.length_map]

/-- A cursor at the start of tokens that end a text. -/
theorem sees_ofList {ts : List Token} (h : (ts.map Token.lexeme).getLast? = some Lexeme.eof) :
    (Cursor.ofList ts).Sees (ts.map Token.lexeme) := by
  refine ⟨by simp [ofList, rest], ?_⟩
  rw [List.getLast?_map] at h
  obtain ⟨t, ht, he⟩ := Option.map_eq_some_iff.1 h
  simp [ofList, Cursor.last, ht, he]

end Cursor

namespace Lexeme

theorem Closed.getLast? {ls : List Lexeme} (h : Closed ls) : ls.getLast? = some eof := by
  induction h with
  | last => rfl
  | @cons l ls _ _ h ih => rw [List.getLast?_cons_of_ne_nil h.ne_nil, ih]

end Lexeme

/-! ## What rules do -/

namespace Parser

variable {α β : Type}

/-- Where `ls` is ahead, `p` gives a value and leaves lexemes that fit `Q`, or it fails
with an error that fits `E`. -/
def Runs (p : Parser α) (ls : List Lexeme) (Q : α → List Lexeme → Prop)
    (E : GrammarError → Prop) : Prop :=
  ∀ c : Cursor, c.Sees ls →
    match p c with
    | (.ok a, c') => ∃ ms, c'.Sees ms ∧ Q a ms
    | (.error e, _) => E e

/-- Where `ls` is ahead, `p` gives the value `a` and leaves `ms`. -/
def Reads (p : Parser α) (ls : List Lexeme) (a : α) (ms : List Lexeme) : Prop :=
  p.Runs ls (fun b ns => b = a ∧ ns = ms) fun _ => False

theorem Reads.apply {p : Parser α} {ls ms : List Lexeme} {a : α} (h : p.Reads ls a ms)
    {c : Cursor} (hc : c.Sees ls) : ∃ c', p c = (.ok a, c') ∧ c'.Sees ms := by
  have hr := h c hc
  cases hp : p c with
  | mk r c' =>
    rw [hp] at hr
    cases r with
    | ok b =>
      obtain ⟨ns, hs, rfl, rfl⟩ := hr
      exact ⟨c', rfl, hs⟩
    | error e => exact hr.elim

theorem Runs.ok {p : Parser α} {ls : List Lexeme} {Q : α → List Lexeme → Prop}
    {E : GrammarError → Prop} (h : p.Runs ls Q E) {c : Cursor} (hc : c.Sees ls) {a : α}
    (ha : (p c).1 = .ok a) : ∃ ms, Q a ms := by
  have hr := h c hc
  cases hp : p c with
  | mk r c' =>
    rw [hp] at hr ha
    subst ha
    obtain ⟨ms, _, hq⟩ := hr
    exact ⟨ms, hq⟩

theorem Runs.error {p : Parser α} {ls : List Lexeme} {Q : α → List Lexeme → Prop}
    {E : GrammarError → Prop} (h : p.Runs ls Q E) {c : Cursor} (hc : c.Sees ls)
    {e : GrammarError} (he : (p c).1 = .error e) : E e := by
  have hr := h c hc
  cases hp : p c with
  | mk r c' =>
    rw [hp] at hr he
    subst he
    exact hr

theorem Runs.mono {p : Parser α} {ls : List Lexeme} {Q R : α → List Lexeme → Prop}
    {E F : GrammarError → Prop} (h : p.Runs ls Q E) (hQ : ∀ a ms, Q a ms → R a ms)
    (hE : ∀ e, E e → F e) : p.Runs ls R F := by
  intro c hc
  have hr := h c hc
  revert hr
  cases p c with
  | mk r c' =>
    intro hr
    cases r with
    | ok a =>
      obtain ⟨ms, hs, hq⟩ := hr
      exact ⟨ms, hs, hQ a ms hq⟩
    | error e => exact hE e hr

/-- One rule after another. -/
theorem Runs.bind {p : Parser α} {f : α → Parser β} {ls : List Lexeme}
    {Q : α → List Lexeme → Prop} {R : β → List Lexeme → Prop} {E : GrammarError → Prop}
    (hp : p.Runs ls Q E) (hf : ∀ a ms, Q a ms → (f a).Runs ms R E) :
    (p >>= f).Runs ls R E := by
  intro c hc
  rw [bind_apply]
  have hr := hp c hc
  revert hr
  cases p c with
  | mk r c' =>
    intro hr
    cases r with
    | ok a =>
      obtain ⟨ms, hs, hq⟩ := hr
      exact hf a ms hq c' hs
    | error e => exact hr

theorem Reads.bind {p : Parser α} {f : α → Parser β} {ls ms : List Lexeme} {a : α}
    {R : β → List Lexeme → Prop} {E : GrammarError → Prop} (hp : p.Reads ls a ms)
    (hf : (f a).Runs ms R E) : (p >>= f).Runs ls R E := by
  refine Runs.bind (hp.mono (fun _ _ h => h) fun _ h => h.elim) ?_
  rintro b ns ⟨rfl, rfl⟩
  exact hf

theorem runs_pure {a : α} {ls : List Lexeme} {Q : α → List Lexeme → Prop}
    {E : GrammarError → Prop} (h : Q a ls) : (pure a : Parser α).Runs ls Q E :=
  fun _ hc => ⟨ls, hc, h⟩

theorem runs_fail {e : GrammarError} {ls : List Lexeme} {Q : α → List Lexeme → Prop}
    {E : GrammarError → Prop} (h : E e) : (fail e : Parser α).Runs ls Q E :=
  fun _ _ => h

theorem runs_ite {P : Prop} [Decidable P] {p q : Parser α} {ls : List Lexeme}
    {Q : α → List Lexeme → Prop} {E : GrammarError → Prop} (hp : P → p.Runs ls Q E)
    (hq : ¬ P → q.Runs ls Q E) : (if P then p else q).Runs ls Q E := by
  by_cases h : P
  · rw [if_pos h]
    exact hp h
  · rw [if_neg h]
    exact hq h

theorem runs_pos {P : Prop} [Decidable P] {p q : Parser α} {ls : List Lexeme}
    {Q : α → List Lexeme → Prop} {E : GrammarError → Prop} (h : P) (hp : p.Runs ls Q E) :
    (if P then p else q).Runs ls Q E := runs_ite (fun _ => hp) fun hn => absurd h hn

theorem runs_neg {P : Prop} [Decidable P] {p q : Parser α} {ls : List Lexeme}
    {Q : α → List Lexeme → Prop} {E : GrammarError → Prop} (h : ¬ P) (hq : q.Runs ls Q E) :
    (if P then p else q).Runs ls Q E := runs_ite (fun hp => absurd hp h) fun _ => hq

/-- Looking at the next lexeme takes nothing. -/
theorem runs_look {f : Token → Parser β} {ls : List Lexeme} {R : β → List Lexeme → Prop}
    {E : GrammarError → Prop}
    (h : ∀ t : Token, t.lexeme = ls.headD Lexeme.eof → (f t).Runs ls R E) :
    (look 0 >>= f).Runs ls R E := by
  intro c hc
  refine h (c.look 0) ?_ c hc
  rw [hc.look 0]
  cases ls <;> rfl

theorem runs_lookKind {f : Kind → Parser β} {k : Nat} {ls : List Lexeme}
    {R : β → List Lexeme → Prop} {E : GrammarError → Prop}
    (h : (f (ls.getD k Lexeme.eof).kind).Runs ls R E) : (lookKind k >>= f).Runs ls R E := by
  intro c hc
  rw [← hc.kindAt k] at h
  exact h c hc

theorem runs_next {f : Kind → Parser β} {ls : List Lexeme} {R : β → List Lexeme → Prop}
    {E : GrammarError → Prop} (h : (f (Lexeme.next ls)).Runs ls R E) :
    (lookKind 0 >>= f).Runs ls R E := by
  intro c hc
  rw [← hc.next] at h
  exact h c hc

/-- A test of the cursor that its lexemes decide. -/
theorem runs_inspect {f : α → Parser β} {test : Cursor → α} {a : α} {ls : List Lexeme}
    {R : β → List Lexeme → Prop} {E : GrammarError → Prop}
    (ht : ∀ c : Cursor, c.Sees ls → test c = a) (h : (f a).Runs ls R E) :
    (inspect test >>= f).Runs ls R E := by
  intro c hc
  rw [← ht c hc] at h
  exact h c hc

theorem pop_cons {c : Cursor} {l : Lexeme} {ls : List Lexeme} (hc : c.Sees (l :: ls)) :
    ∃ t : Token, pop c = (.ok t, c.advance) ∧ t.lexeme = l ∧ c.advance.Sees ls := by
  obtain ⟨t, ts, hr, rfl, rfl⟩ := List.map_eq_cons_iff.1 hc.ahead
  obtain ⟨ht, ha⟩ := Cursor.rest_eq_cons hr
  refine ⟨t, ?_, rfl, ⟨by rw [ha], hc.last⟩⟩
  unfold pop
  rw [ht]

theorem pop_nil {c : Cursor} (hc : c.Sees []) : pop c = (.error .outOfTokens, c) := by
  have hr : c.rest = [] := List.map_eq_nil_iff.1 hc.ahead
  have hi : c.tokens[c.index]? = none := by
    have hl : c.tokens.size ≤ c.index := by simpa [Cursor.rest] using hr
    simp [hl]
  unfold pop
  rw [hi]

/-- The next lexeme is taken. -/
theorem runs_pop {f : Token → Parser β} {l : Lexeme} {ls : List Lexeme}
    {R : β → List Lexeme → Prop} {E : GrammarError → Prop}
    (h : ∀ t : Token, t.lexeme = l → (f t).Runs ls R E) : (pop >>= f).Runs (l :: ls) R E := by
  intro c hc
  obtain ⟨t, hp, ht, hs⟩ := pop_cons hc
  rw [bind_apply, hp]
  exact h t ht c.advance hs

/-- The next lexeme is taken; if it is not the one that is needed, that is the error. -/
theorem runs_expect {kind : Kind} {text : Option String} {f : Token → Parser β} {l : Lexeme}
    {ls : List Lexeme} {R : β → List Lexeme → Prop} {E : GrammarError → Prop}
    (hf : l.kind = kind → text.all (· == l.text) = true →
      ∀ t : Token, t.lexeme = l → (f t).Runs ls R E)
    (he : ¬ (l.kind = kind ∧ text.all (· == l.text) = true) →
      ∀ t : Token, E (.expected kind text t)) :
    (expect kind text >>= f).Runs (l :: ls) R E := by
  intro c hc
  obtain ⟨t, hp, rfl, hs⟩ := pop_cons hc
  have hx : expect kind text c = andThen (pop c) fun t =>
      if t.kind = kind ∧ text.all (· == t.text) = true then pure t
      else fail (.expected kind text t) := rfl
  rw [bind_apply, hx, hp]
  by_cases h : t.kind = kind ∧ text.all (· == t.text) = true
  · simp only [andThen, if_pos h]
    exact hf h.1 h.2 t rfl c.advance hs
  · simp only [andThen, if_neg h]
    exact he h t

theorem runs_expect_nil {kind : Kind} {text : Option String} {f : Token → Parser β}
    {R : β → List Lexeme → Prop} {E : GrammarError → Prop} (h : E .outOfTokens) :
    (expect kind text >>= f).Runs [] R E := by
  intro c hc
  have hx : expect kind text c = andThen (pop c) fun t =>
      if t.kind = kind ∧ text.all (· == t.text) = true then pure t
      else fail (.expected kind text t) := rfl
  rw [bind_apply, hx, pop_nil hc]
  exact h

/-- A lexeme that is the one needed is taken. -/
theorem reads_expect {kind : Kind} {text : Option String} {f : Token → Parser β} {l : Lexeme}
    {ls : List Lexeme} {R : β → List Lexeme → Prop} {E : GrammarError → Prop}
    (hk : l.kind = kind) (ht : text.all (· == l.text) = true)
    (hf : ∀ t : Token, t.lexeme = l → (f t).Runs ls R E) :
    (expect kind text >>= f).Runs (l :: ls) R E :=
  runs_expect (fun _ _ => hf) fun h => absurd ⟨hk, ht⟩ h

end Parser

end Offside
