import Offside.Convert
import Offside.Proofs.Recognition
import Offside.Proofs.Scanning

/-!
# Conversion, stage by stage

A conversion fails in the first of its stages that fails. `convert_eq_ok_iff` says when
none does: the text has lexemes, these spell a program, and the program can be written.
Failures are sorted by what is at fault (`Failure`).
-/

namespace Offside

open Grammar (Accepted)

/-! ## Stages -/

theorem convert_of_scan {s : String} {e : ScanError} (h : tokenize s = .error e) :
    convert s = .error (.scan e) := by
  unfold convert parseSource
  rw [h]
  rfl

theorem convert_of_grammar {s : String} {ts : List Token} (h : tokenize s = .ok ts)
    {e : GrammarError} (hp : parse ts = .error e) : convert s = .error (.grammar e) := by
  unfold convert parseSource
  rw [h]
  show ((parse ts).mapError ConvertError.grammar >>= _) = _
  rw [hp]
  rfl

theorem convert_of_parse {s : String} {ts : List Token} (h : tokenize s = .ok ts)
    {p : Program} (hp : parse ts = .ok p) : convert s = p.render.mapError .render := by
  unfold convert parseSource
  rw [h]
  show ((parse ts).mapError ConvertError.grammar >>= _) = _
  rw [hp]
  rfl

/-- A conversion fails in one of three stages, and those before it do not. -/
theorem convert_eq_error {s : String} {e : ConvertError} (h : convert s = .error e) :
    (∃ x, tokenize s = .error x ∧ e = .scan x) ∨
    (∃ ts x, tokenize s = .ok ts ∧ parse ts = .error x ∧ e = .grammar x) ∨
    ∃ ts p x, tokenize s = .ok ts ∧ parse ts = .ok p ∧ p.render = .error x ∧ e = .render x := by
  cases ht : tokenize s with
  | error x =>
    rw [convert_of_scan ht] at h
    cases h
    exact .inl ⟨x, rfl, rfl⟩
  | ok ts =>
    cases hp : parse ts with
    | error x =>
      rw [convert_of_grammar ht hp] at h
      cases h
      exact .inr (.inl ⟨ts, x, rfl, hp, rfl⟩)
    | ok p =>
      rw [convert_of_parse ht hp] at h
      cases hr : p.render with
      | error x =>
        rw [hr] at h
        cases h
        exact .inr (.inr ⟨ts, p, x, rfl, hp, hr, rfl⟩)
      | ok r =>
        rw [hr] at h
        cases h

/-- A text is converted exactly if it spells a program that can be written. -/
theorem convert_eq_ok_iff {s q : String} : convert s = .ok q ↔
    ∃ ls ss, lexemesOf? none s.toList = some ls ∧ Accepted ls ss ∧
      (⟨ss⟩ : Program).render = .ok q := by
  constructor
  · intro h
    cases ht : tokenize s with
    | error e =>
      rw [convert_of_scan ht] at h
      cases h
    | ok ts =>
      cases hp : parse ts with
      | error e =>
        rw [convert_of_grammar ht hp] at h
        cases h
      | ok p =>
        have hl := lexemesOf?_eq_some_iff.2 ⟨ts, ht, rfl⟩
        refine ⟨_, p.body, hl, (Grammar.parse_eq_ok_iff (closed_tokenize ht)).1 hp, ?_⟩
        rw [convert_of_parse ht hp] at h
        cases hr : p.render with
        | error e =>
          rw [hr] at h
          cases h
        | ok r =>
          rw [hr] at h
          cases h
          rfl
  · rintro ⟨ls, ss, hl, ha, hr⟩
    obtain ⟨ts, ht, rfl⟩ := lexemesOf?_eq_some_iff.1 hl
    rw [convert_of_parse ht ((Grammar.parse_eq_ok_iff (closed_tokenize ht)).2 ha), hr]
    rfl

/-! ## Sorts of failures -/

/-- What is at fault when a conversion fails. -/
inductive Failure where
  /-- The source text: it has a character or a token in the wrong place. -/
  | source
  /-- A sequence that was too short. -/
  | range
  /-- A rule that made no progress. -/
  | progress
  /-- A statement that cannot be written. -/
  | unsupported
  /-- A part that is missing. -/
  | missing
  /-- A number that is too long. -/
  | value
deriving DecidableEq, Repr

/-- What is at fault when tokens are no program. -/
def GrammarError.failure : GrammarError → Failure
  | outOfTokens => .range
  | stalled => .progress
  | _ => .source

/-- What is at fault when a program is not written. -/
def Tree.RenderError.failure : Tree.RenderError → Failure
  | unsupported _ => .unsupported
  | noArgument => .range
  | missing _ _ => .missing
  | numeral _ => .value

/-- What is at fault when a text is not converted. -/
def ConvertError.failure : ConvertError → Failure
  | scan _ => .source
  | grammar e => e.failure
  | render e => e.failure

theorem GrammarError.failure_of_isSyntax {e : GrammarError} (h : e.isSyntax = true) :
    e.failure = .source := by
  cases e <;> first | rfl | cases h

end Offside
