import Offside.Proofs.Conversion
import Offside.Proofs.Places
import Offside.Proofs.Seam

/-!
# Conversion goes statement by statement

If a text can be converted and ends with the semicolon of its last statement, whatever
is written below it is converted as if it stood alone: its text is appended, or its
failure is the failure of the whole.

Nothing reaches across the seam. The scanner ends a token at the semicolon, and the line
end separates it from what follows. The grammar has no statement open after the
semicolon: no unknown statement that would swallow what follows, and no branch that an
`else` could continue. The printer writes statements one after the other.
-/

namespace Offside

open Lexeme (sign name eof next Closed)
open Grammar (Accepted statements statement stops)

/-! ## A body that ends with a semicolon -/

/-- A branch ends with the brace of its last block. -/
theorem getLast?_otherwise {G : Dialect} {o : Otherwise} {ws : List Lexeme}
    (h : o.Spelled G ws) (us vs : List Lexeme) :
    (guarded us vs ++ ws).getLast? = some (sign .rightBrace) := by
  cases h with
  | nothing => simp [guarded, braced, List.getLast?_cons]
  | @elseIf c body o us' vs' ws b hc hb ho =>
    have hlast := getLast?_otherwise ho us' vs'
    simp [List.getLast?_append, List.getLast?_cons, hlast]
  | elseDo hb => simp [braced, List.getLast?_append, List.getLast?_cons]

theorem getLast?_open {G : Dialect} {s : Statement} {us : List Lexeme} (h : s.Spelled G us)
    (ho : s.isOpen = true) : us.getLast? = some (sign .rightBrace) := by
  cases h with
  | branch hc hb h => simp [List.getLast?_cons, getLast?_otherwise h]
  | print => cases ho
  | declare => cases ho
  | step => cases ho
  | repeatWhile => cases ho
  | count => cases ho

/-- Behind a body that an `else` would continue stands the brace of a branch. -/
theorem getLast?_body {G : Dialect} : ∀ {top after behind : Bool} {ss : List Statement}
    {us : List Lexeme}, SpelledBody G top after behind ss us → behind = true →
      after = true ∧ us = [] ∨ us.getLast? = some (sign .rightBrace)
  | _, _, _, _, _, .nil, hopen => .inl ⟨hopen, rfl⟩
  | _, _, _, _, _, .cons hs h, hopen => by
    right
    rcases getLast?_body h hopen with ⟨ho, rfl⟩ | hlast
    · rw [List.append_nil]
      exact getLast?_open hs ho
    · rw [List.getLast?_append, hlast]
      rfl
  | _, _, _, _, _, .unknown _ h, hopen => by
    right
    rcases getLast?_body h hopen with ⟨ho, -⟩ | hlast
    · cases ho
    · rw [List.getLast?_append, List.getLast?_cons, hlast]
      rfl

/-- A program that ends with a semicolon is a body to which nothing can be added. -/
theorem accepted_semicolon {ls : List Lexeme} {ss : List Statement}
    (h : Accepted (ls ++ [sign .semicolon, eof]) ss) :
    SpelledBody .full true false false ss (ls ++ [sign .semicolon]) := by
  obtain ⟨behind, us, js, hl, hb, hj⟩ := h
  rw [List.append_cons, ← List.append_assoc us, List.append_left_inj] at hl
  have hlast : (us ++ js).getLast? = some (sign .semicolon) := by
    rw [← hl]
    simp
  have hjs : js = [] := by
    cases hj' : js.getLast? with
    | none => simpa using hj'
    | some l =>
      rw [List.getLast?_append, hj'] at hlast
      cases hlast
      exact absurd rfl (hj.inner _ (List.mem_of_getLast? hj')).1
  subst hjs
  rw [List.append_nil] at hl hlast
  cases behind with
  | false => exact hl ▸ hb
  | true =>
    rcases getLast?_body hb rfl with ⟨ha, -⟩ | hr
    · cases ha
    · rw [hlast] at hr
      cases hr

/-! ## Programs one after the other -/

theorem parse_eq_map (ts : List Token) :
    parse ts = (statements (stops true) statement (Cursor.ofList ts)).1.map Program.mk := by
  show (Parser.andThen (statements (stops true) statement (Cursor.ofList ts)) _).1 = _
  rcases statements (stops true) statement (Cursor.ofList ts) with ⟨_ | ss, c⟩ <;> rfl

/-- What follows a body is read as if it stood alone. -/
theorem parse_append {ts us : List Token} {vs : List Lexeme} {ss : List Statement}
    (hts : ts.map Token.lexeme = vs ++ us.map Token.lexeme)
    (hb : SpelledBody .full true false false ss vs)
    (hu : (us.map Token.lexeme).getLast? = some eof) :
    match parse us with
    | .ok p => parse ts = .ok ⟨ss ++ p.body⟩
    | .error f => ∃ e, parse ts = .error e ∧ e.isSyntax = f.isSyntax := by
  have hsees := Cursor.sees_ofList hu
  -- before any cursor, what follows is read with the outcome it has by itself
  have halone : (statements (stops true) statement).Runs (us.map Token.lexeme)
      (fun r _ => parse us = .ok ⟨r⟩)
      (fun e => ∃ f, parse us = .error f ∧ e.isSyntax = f.isSyntax) := by
    intro c hc
    have hsame := Grammar.alike_statements (stops true) Grammar.alike_statement _ c _ hc hsees
    rw [parse_eq_map]
    revert hsame
    rcases statements (stops true) statement (Cursor.ofList us) with ⟨f | r, d'⟩ <;>
      rcases statements (stops true) statement c with ⟨e | r', c'⟩ <;> intro hsame
    · exact ⟨f, rfl, hsame⟩
    · exact hsame.elim
    · exact hsame.elim
    · obtain ⟨rfl, ms, hms, -⟩ := hsame
      exact ⟨ms, hms, rfl⟩
  have hlast : (ts.map Token.lexeme).getLast? = some eof := by
    rw [hts, List.getLast?_append, hu]
    rfl
  have hc := Cursor.sees_ofList hlast
  rw [hts] at hc
  have hall := Grammar.readsBody hb _ _ _ (by simp) halone _ hc
  rw [parse_eq_map ts]
  revert hall
  rcases statements (stops true) statement (Cursor.ofList ts) with ⟨e | r, c'⟩
  · rintro ⟨f, hf, he⟩
    rw [hf]
    exact ⟨e, rfl, he⟩
  · rintro ⟨ms, -, r', rfl, hp⟩
    rw [hp]
    rfl

/-! ## Texts of programs -/

/-- Programs are written one after the other. -/
theorem render_append {ss : List Statement} {a : String}
    (h : (⟨ss⟩ : Program).render = .ok a) (ss' : List Statement) :
    (⟨ss ++ ss'⟩ : Program).render = (⟨ss'⟩ : Program).render.map (a ++ ·) := by
  have ht : Tree.statementsText (ss.map Statement.toTree) = .ok a := h
  show Tree.statementsText ((ss ++ ss').map Statement.toTree) = _
  rw [List.map_append, Tree.statementsText_append, ht]
  rfl

/-! ## Texts -/

/-- The last token before the end is a semicolon, and the text ends with it. -/
def EndsStatement (a : String) : Prop :=
  ∃ (us : List Token) (t e : Token), tokenize a = .ok (us ++ [t, e]) ∧ t.kind = .semicolon ∧
    t.pos + (t.text.length : Int) = a.length

theorem EndsStatement.getLast? {a : String} (h : EndsStatement a) :
    a.toList.getLast? = some ';' ∧
      ∃ ls, lexemesOf? none a.toList = some (ls ++ [sign .semicolon, eof]) := by
  obtain ⟨us, t, e, hts, hk, hend⟩ := h
  obtain ⟨vs, m, hl, hslice⟩ := slice_tokenize hts
  rw [List.append_cons, List.append_singleton_inj] at hl
  obtain ⟨rfl, rfl⟩ := hl
  have ht : t.lexeme = sign .semicolon :=
    ((closed_tokenize hts).wellSpelled_of_mem (List.mem_map.2 ⟨t, by simp, rfl⟩)).eq_sign hk rfl
  have htext : t.text = ";" := congrArg Lexeme.text ht
  obtain ⟨p, hp, hs⟩ := hslice t (by simp)
  refine ⟨?_, us.map Token.lexeme, lexemesOf?_eq_some_iff.2 ⟨_, hts, by simp [ht]⟩⟩
  rw [hp, htext, show ";".length = 1 from rfl, ← String.length_toList] at hend
  have hlen : (a.toList.drop p).length = 1 := by
    rw [List.length_drop]
    omega
  have hdrop : a.toList.drop p = [';'] := by
    rw [htext, show ";".toList = [';'] from rfl, List.length_singleton,
      List.take_of_length_le (Nat.le_of_eq hlen)] at hs
    exact hs
  rw [← List.take_append_drop p a.toList, hdrop, List.getLast?_concat]

/-- The lexemes of what is written below follow those of the statements. -/
theorem EndsStatement.lexemes {a : String} (h : EndsStatement a) :
    ∃ ls, lexemesOf? none a.toList = some (ls ++ [sign .semicolon, eof]) ∧
      ∀ b : String, lexemesOf? none (a ++ "\n" ++ b).toList =
        (lexemesOf? none b.toList).map ((ls ++ [sign .semicolon]) ++ ·) := by
  obtain ⟨hlast, ls, hl⟩ := h.getLast?
  refine ⟨ls, hl, fun b => ?_⟩
  have ht : (a ++ "\n" ++ b).toList = a.toList ++ '\n' :: b.toList := by simp
  rw [List.append_cons] at hl
  rw [ht, lexemesOf?_seam hl (.inr (.inl hlast))]

/-- Errors of reading that are alike in being about a token are of one sort. -/
theorem failure_eq {ls ms : List Lexeme} {e f : GrammarError} (he : Fails ls e) (hf : Fails ms f)
    (h : e.isSyntax = f.isSyntax) : e.failure = f.failure := by
  rcases he with he | ⟨rfl, -⟩
  · rw [GrammarError.failure_of_isSyntax he, GrammarError.failure_of_isSyntax (h ▸ he)]
  · rcases hf with hf | ⟨rfl, -⟩
    · rw [hf] at h
      cases h
    · rfl

/-- Below a text that ends with a statement, a text is converted as if it stood alone. -/
theorem convert_append {a p : String} (hend : EndsStatement a) (ha : convert a = .ok p)
    (b : String) :
    (∀ q, convert b = .ok q → convert (a ++ "\n" ++ b) = .ok (p ++ q)) ∧
    (∀ f, convert b = .error f →
      ∃ e, convert (a ++ "\n" ++ b) = .error e ∧ e.failure = f.failure) := by
  obtain ⟨ls, hl, hbelow⟩ := hend.lexemes
  obtain ⟨_, ss, hl', hacc, hr⟩ := convert_eq_ok_iff.1 ha
  rw [hl] at hl'
  cases hl'
  have hbody := accepted_semicolon hacc
  have hlex := hbelow b
  -- the stages of what is below, each with the same outcome in the whole text
  cases htb : tokenize b with
  | error e =>
    rw [lexemesOf?_eq_none_iff.2 ⟨e, htb⟩] at hlex
    obtain ⟨e', he'⟩ := lexemesOf?_eq_none_iff.1 hlex
    rw [convert_of_scan htb, convert_of_scan he']
    refine ⟨fun q hq => (by cases hq), fun f hf => ?_⟩
    cases hf
    exact ⟨_, rfl, rfl⟩
  | ok tb =>
    rw [lexemesOf?_eq_some_iff.2 ⟨tb, htb, rfl⟩] at hlex
    obtain ⟨ts, hts, hmap⟩ := lexemesOf?_eq_some_iff.1 hlex
    have hclosed := closed_tokenize htb
    have hp := parse_append hmap hbody hclosed.getLast?
    cases hpb : parse tb with
    | error f =>
      rw [hpb] at hp
      obtain ⟨e, he, hsame⟩ := hp
      rw [convert_of_grammar htb hpb, convert_of_grammar hts he]
      refine ⟨fun q hq => (by cases hq), fun f' hf' => ?_⟩
      cases hf'
      exact ⟨_, rfl, failure_eq (Grammar.parse_error (closed_tokenize hts) he)
        (Grammar.parse_error hclosed hpb) hsame⟩
    | ok pb =>
      rw [hpb] at hp
      rw [convert_of_parse htb hpb, convert_of_parse hts hp, render_append hr]
      cases hrb : pb.render with
      | error r =>
        refine ⟨fun q hq => (by cases hq), fun f hf => ?_⟩
        cases hf
        exact ⟨_, rfl, rfl⟩
      | ok q =>
        refine ⟨fun q' hq => ?_, fun f hf => by cases hf⟩
        cases hq
        rfl

/-- A statement, below it one that is cut off by the end of the text, and below it a
character that starts no token. -/
theorem convert_append_step : EndsStatement "i++;" ∧ convert "i++;" = .ok "i += 1\n" ∧
    convert "j" = .ok "" ∧ convert ("i++;" ++ "\n" ++ "j") = .ok ("i += 1\n" ++ "") ∧
    ∃ e f, convert "#" = .error f ∧ convert ("i++;" ++ "\n" ++ "#") = .error e ∧
      e.failure = f.failure := by
  have htokens : tokenize "i++;" = .ok
      ([⟨.identifier, "i", 0⟩, ⟨.increment, "++", 1⟩] ++ [⟨.semicolon, ";", 3⟩, Token.eof 4]) := by
    have hscan : scan "i++;" =
        ⟨[⟨.identifier, "i", 0⟩, ⟨.increment, "++", 1⟩, ⟨.semicolon, ";", 3⟩, Token.eof 4],
          none⟩ := by
      show scanFrom Rule.all _ none 0 ['i', '+', '+', ';'] = _
      rw [scanFrom_token (k := .identifier) (n := 1) (by simp) (by decide)]
      show (scanFrom Rule.all _ (some 'i') 1 ['+', '+', ';']).cons _ = _
      rw [scanFrom_token (k := .increment) (n := 2) (by simp) (by decide)]
      show ((scanFrom Rule.all _ (some '+') 3 [';']).cons _).cons _ = _
      rw [scanFrom_token (k := .semicolon) (n := 1) (by simp) (by decide), List.drop,
        List.drop, scanFrom]
      rfl
    rw [tokenize, hscan]
    rfl
  have hend : EndsStatement "i++;" := ⟨_, _, _, htokens, rfl, rfl⟩
  have ha : convert "i++;" = .ok "i += 1\n" := by
    have hbody : SpelledBody .full true false false [.step ⟨"i", .up⟩]
        [name "i", sign .increment, sign .semicolon] := .cons (.step "i" .up) .nil
    have hrest : Passable true false [] := by
      constructor <;> simp [startsPrint]
    exact convert_eq_ok_iff.2 ⟨_, _, lexemesOf?_eq_some_iff.2 ⟨_, htokens, rfl⟩,
      ⟨false, _, [], rfl, hbody, hrest⟩, rfl⟩
  have hb : convert "j" = .ok "" := by
    have hrest : Passable true false [name "j"] := by
      constructor <;> simp [Kind.openings, Kind.types, startsPrint]
    exact convert_eq_ok_iff.2 ⟨_, _,
      lexemesOf?_token (u := ['j']) (t := []) (by decide) (lexemesOf?_nil _),
      ⟨false, [], [name "j"], rfl, .nil, hrest⟩, rfl⟩
  have hnone : lexemesOf? none "#".toList = none :=
    lexemesOf?_none (by simp) (by decide)
  obtain ⟨e, he⟩ := lexemesOf?_eq_none_iff.1 hnone
  obtain ⟨e', he', hf⟩ := (convert_append hend ha "#").2 _ (convert_of_scan he)
  exact ⟨hend, ha, hb, (convert_append hend ha "j").1 _ hb, e', _, convert_of_scan he, he', hf⟩

end Offside
