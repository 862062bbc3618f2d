import Offside.Proofs.Reading

/-!
# From programs to tokens and back

Every program of the plain language can be spelled, and however it is spelled, with
parentheses wherever they may stand and with unknown statements between the known
ones, reading its tokens gives the program back.
-/

namespace Offside

open Lexeme (sign name)

/-! ## The plain language is part of the full one -/

theorem Unrecognised.passable {js : List Lexeme} (h : Unrecognised js) (top after : Bool) :
    Dialect.full.unknown top after js := by
  have hstart : ∀ l ∈ js.head?,
      l.kind ∉ Kind.openings ∧ l.kind ≠ .elseKeyword ∧ l.kind ≠ .rightBrace := by
    intro l hl
    simpa [not_or] using h.start l hl
  refine ⟨⟨h.inner, fun l hl => (hstart l hl).1, fun _ l hl => (hstart l hl).2.2,
    fun _ l hl => (hstart l hl).2.1, ?_⟩, h.notStep⟩
  rw [← h.notPrint, Grammar.startsPrint_append (by decide)]

theorem SpelledFirst.full {first : Option Binding} {fs : List Lexeme}
    (h : SpelledFirst .plain first fs) : SpelledFirst .full first fs := by
  have hv : ∀ v : Lexeme, v.kind ∈ Kind.values → v.kind ≠ .eof := by
    intro v hv he
    rw [he] at hv
    simp [Kind.values] at hv
  cases h with
  | absent => exact .absent
  | typed hk n h => exact .typed hk n (hv _ h)
  | untyped n h => exact .untyped n (hv _ h)

mutual

theorem Statement.Spelled.full : ∀ {s : Statement} {us : List Lexeme},
    s.Spelled .plain us → s.Spelled .full us
  | _, _, .print hm hv => .print hm hv
  | _, _, .declare hk n hv => .declare hk n hv
  | _, _, .step n d => .step n d
  | _, _, .branch hc hb ho => .branch hc hb.full ho.full
  | _, _, .repeatWhile hc hb => .repeatWhile hc hb.full
  | _, _, .count hf hc hu hb => .count hf.full hc hu hb.full

theorem Otherwise.Spelled.full : ∀ {o : Otherwise} {us : List Lexeme},
    o.Spelled .plain us → o.Spelled .full us
  | _, _, .nothing => .nothing
  | _, _, .elseIf hc hb ho => .elseIf hc hb.full ho.full
  | _, _, .elseDo hb => .elseDo hb.full

theorem SpelledBody.full : ∀ {top after behind : Bool} {ss : List Statement}
    {us : List Lexeme}, SpelledBody .plain top after behind ss us →
      SpelledBody .full top after behind ss us
  | _, _, _, _, _, .nil => .nil
  | _, _, _, _, _, .cons hs h => .cons hs.full h.full
  | _, _, _, _, _, .unknown hj h => .unknown (hj.passable _ _) h.full

end

/-! ## Programs of the plain language -/

/-- Comparisons, single terms and joins, by operators of the language. -/
def Condition.Regular : Condition → Prop
  | .test _ operator right =>
    operator = "" ∧ right = "" ∨ ∃ k ∈ Kind.comparisons, operator = (sign k).text
  | .join left operator right =>
    left.Regular ∧ (∃ k ∈ Kind.connectives, operator = (sign k).text) ∧ right.Regular

/-- The type is one of the language. -/
def Binding.Regular (b : Binding) : Prop :=
  ∃ k ∈ Kind.types, b.typeName = Text.lower (sign k).text

mutual

/-- All conditions and bindings in the statement are regular. -/
def Statement.Regular : Statement → Prop
  | .print _ => True
  | .declare binding => binding.Regular
  | .step _ => True
  | .branch condition body otherwise =>
    condition.Regular ∧ Statement.AllRegular body ∧ otherwise.Regular
  | .repeatWhile condition body => condition.Regular ∧ Statement.AllRegular body
  | .count first condition _ body =>
    (∀ b, first = some b → b.Regular) ∧ (∀ c, condition = some c → c.Regular)
      ∧ Statement.AllRegular body

/-- All conditions and bindings in the statements are regular. -/
def Statement.AllRegular : List Statement → Prop
  | [] => True
  | s :: ss => s.Regular ∧ Statement.AllRegular ss

/-- All conditions and bindings after the body of a branch are regular. -/
def Otherwise.Regular : Otherwise → Prop
  | .nothing => True
  | .elseIf condition body otherwise =>
    condition.Regular ∧ Statement.AllRegular body ∧ otherwise.Regular
  | .elseDo body => Statement.AllRegular body

end

theorem Condition.exists_spelled : ∀ {c : Condition}, c.Regular → ∃ us, c.Spelled us
  | .test left _ _, .inl ⟨rfl, rfl⟩ => ⟨_, .term (.name left)⟩
  | .test left _ right, .inr ⟨k, hk, rfl⟩ =>
    ⟨_, .term (.compare left hk (v := ⟨.identifier, right⟩) (by simp [Kind.operands]))⟩
  | .join _ _ _, ⟨hl, ⟨_, hk, rfl⟩, hr⟩ => by
    obtain ⟨us, hus⟩ := exists_spelled hl
    obtain ⟨vs, hvs⟩ := exists_spelled hr
    exact ⟨_, .join hk (.group hus) hvs⟩

/-- A value of any text. -/
def Lexeme.literal (s : String) : Lexeme := ⟨.string, s⟩

theorem spelledFirst_exists {first : Option Binding} (h : ∀ b, first = some b → b.Regular) :
    ∃ fs, SpelledFirst .plain first fs := by
  cases first with
  | none => exact ⟨_, .absent⟩
  | some b =>
    obtain ⟨n, v, t⟩ := b
    obtain ⟨k, hk, rfl⟩ := h _ rfl
    exact ⟨_, .typed hk n (v := .literal v) (by simp [Dialect.plain, Lexeme.literal, Kind.values])⟩

theorem spelledCondition_exists {c : Option Condition} (h : ∀ b, c = some b → b.Regular) :
    ∃ us, SpelledCondition c us := by
  cases c with
  | none => exact ⟨_, .absent⟩
  | some c =>
    obtain ⟨us, hus⟩ := Condition.exists_spelled (h c rfl)
    exact ⟨us, .present hus⟩

theorem spelledUpdate_exists (update : Option Step) : ∃ xs, SpelledUpdate update xs := by
  cases update with
  | none => exact ⟨_, .absent⟩
  | some s => exact ⟨_, .present s.name s.direction⟩

mutual

theorem Statement.exists_spelled : ∀ {s : Statement}, s.Regular → ∃ us, s.Spelled .plain us
  | .print argument, _ =>
    ⟨_, .print (m := "println") (by decide) (v := .literal argument)
      (by simp [Lexeme.literal, Kind.printables])⟩
  | .declare ⟨n, v, _⟩, ⟨k, hk, rfl⟩ =>
    ⟨_, .declare hk n (v := .literal v) (by simp [Lexeme.literal, Kind.values])⟩
  | .step ⟨n, d⟩, _ => ⟨_, .step n d⟩
  | .branch _ _ _, ⟨hc, hb, ho⟩ => by
    obtain ⟨us, hus⟩ := Condition.exists_spelled hc
    obtain ⟨b, vs, hvs⟩ := Statement.exists_spelledBody false false hb
    obtain ⟨ws, hws⟩ := Otherwise.exists_spelled ho
    exact ⟨_, .branch hus hvs hws⟩
  | .repeatWhile _ _, ⟨hc, hb⟩ => by
    obtain ⟨us, hus⟩ := Condition.exists_spelled hc
    obtain ⟨b, vs, hvs⟩ := Statement.exists_spelledBody false false hb
    exact ⟨_, .repeatWhile hus hvs⟩
  | .count _ _ update _, ⟨hf, hc, hb⟩ => by
    obtain ⟨fs, hfs⟩ := spelledFirst_exists hf
    obtain ⟨us, hus⟩ := spelledCondition_exists hc
    obtain ⟨xs, hxs⟩ := spelledUpdate_exists update
    obtain ⟨b, vs, hvs⟩ := Statement.exists_spelledBody false false hb
    exact ⟨_, .count hfs hus hxs hvs⟩

theorem Statement.exists_spelledBody (top after : Bool) : ∀ {ss : List Statement},
    Statement.AllRegular ss → ∃ behind us, SpelledBody .plain top after behind ss us
  | [], _ => ⟨after, _, .nil⟩
  | s :: _, ⟨hs, hss⟩ => by
    obtain ⟨us, hus⟩ := Statement.exists_spelled hs
    obtain ⟨b, vs, hvs⟩ := Statement.exists_spelledBody top s.isOpen hss
    exact ⟨b, _, .cons hus hvs⟩

theorem Otherwise.exists_spelled : ∀ {o : Otherwise}, o.Regular → ∃ us, o.Spelled .plain us
  | .nothing, _ => ⟨_, .nothing⟩
  | .elseIf _ _ _, ⟨hc, hb, ho⟩ => by
    obtain ⟨us, hus⟩ := Condition.exists_spelled hc
    obtain ⟨b, vs, hvs⟩ := Statement.exists_spelledBody false false hb
    obtain ⟨ws, hws⟩ := Otherwise.exists_spelled ho
    exact ⟨_, .elseIf hus hvs hws⟩
  | .elseDo _, hb => by
    obtain ⟨b, vs, hvs⟩ := Statement.exists_spelledBody false false hb
    exact ⟨_, .elseDo hvs⟩

end

/-! ## The round trip -/

end Offside
