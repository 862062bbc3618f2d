import Offside.Proofs.Lines
import Offside.Proofs.LongestMatch

/-!
# What programs print

Calls that print string literals, one after the other. However their lexemes are spread over a
text, they are found (`Spreads`), and every call becomes a call of `print` with the same literal.
That writes a line feed behind the content, which only one of the two methods asks for: what
the program writes is kept if every call uses that method, and only then
(`output_convert_calls`).
-/

namespace Offside

open Grammar (printReceiver printField)
open GrammarError (printMethods)
open Lexeme (sign name eof)

/-! ## The words and signs of a call -/

/-- The words of a call. -/
def callWords : List String := printReceiver :: printField :: printMethods

/-- The signs of a call. -/
def callSigns : List Kind := [.dot, .leftParen, .rightParen, .semicolon]

/-- Before this text the lexeme is scanned as such, whatever stands in front of it. -/
def Lexeme.Before (l : Lexeme) (t : List Char) : Prop :=
  ∀ b, Rule.first? Rule.all b (l.text.toList ++ t) = some (.token l.kind, l.text.toList.length)

theorem before_sign {k : Kind} (hk : k ∈ callSigns) (t : List Char) : (sign k).Before t := by
  simp only [callSigns, List.mem_cons, List.not_mem_nil, or_false] at hk
  intro b
  obtain rfl | rfl | rfl | rfl := hk <;>
  · refine Rule.first?_of_opens (munch?_reserved_foreign (by decide) b t) (fun g => ?_)
      (by decide) (by decide) rfl
    cases g <;> rfl

/-- Texts that differ somewhere: neither starts with the other. -/
def differ (u v : List Char) : Bool := (u.zip v).any fun cd => cd.1 != cd.2

theorem isPrefixOf_differ {u v : List Char} (h : differ u v = true) (t : List Char) :
    u.isPrefixOf (v ++ t) = false := by
  induction u generalizing v with
  | nil => cases h
  | cons c u ih =>
    cases v with
    | nil => cases h
    | cons d v =>
      simp only [differ, List.zip_cons_cons, List.any_cons, Bool.or_eq_true, bne_iff_ne] at h
      rw [List.cons_append, List.isPrefixOf_cons_cons, Bool.and_eq_false_iff, beq_eq_false_iff_ne]
      exact h.imp_right ih

/-- An identifier that no reserved word or gap matches, before a character that ends it. -/
theorem first?_name {u t : List Char} (hu : isIdentifier u = true) {b : Option Char}
    (hwords : ∀ k ∈ Kind.reserved, k.munch? b (u ++ t) = none)
    (hgaps : ∀ g : Gap, g.munch? b (u ++ t) = none)
    (ht : ∀ c ∈ t.head?, isIdentifierPart c = false) :
    Rule.first? Rule.all b (u ++ t) = some (.token .identifier, u.length) := by
  cases u with
  | nil => cases hu
  | cons c cs =>
    simp only [isIdentifier, Bool.and_eq_true, List.all_eq_true] at hu
    refine Rule.first?_of_opens hwords hgaps (by decide)
      (fun k hk ho => Rule.eq_identifier_of_opens hk hu.1 ho) ?_
    simp [Kind.munch?, munchIdentifier?, hu.1, takeWhile_upTo hu.2 ht, Nat.add_comm]

theorem before_word {w : String} (hw : w ∈ callWords) {t : List Char}
    (ht : ∀ c ∈ t.head?, isIdentifierPart c = false) : (name w).Before t := by
  have hidentifier : ∀ w ∈ callWords, isIdentifier w.toList = true := by decide
  have hdiffer : ∀ w ∈ callWords, ∀ k ∈ Kind.reserved, ∀ v ∈ k.spelling?,
      differ v.toList w.toList = true := by
    decide
  intro b
  refine first?_name (hidentifier w hw) (fun k hk => ?_) (fun g => ?_) ht
  · refine munch?_reserved_none hk fun v hv => ?_
    simp [munchAlone?, isPrefixOf_differ (hdiffer w hw k hk v hv) t]
  · simp only [callWords, printMethods, List.mem_cons, List.not_mem_nil, or_false] at hw
    obtain rfl | rfl | rfl | rfl := hw <;> cases g <;> rfl

/-! ## Lexemes spread over a text -/

/-- Layout and comments are passed over behind any character. -/
theorem lexemesOf?_filler {g : List Char} (hg : Filler g) {t : List Char} {ls : List Lexeme}
    (h : ∀ b, lexemesOf? b t = some ls) (b : Option Char) : lexemesOf? b (g ++ t) = some ls := by
  induction hg generalizing b with
  | nil => exact h b
  | layout hc _ ih =>
    rw [List.cons_append, lexemesOf?, scanFrom_layout _ _ _ hc, lexemes?_scanFrom]
    exact ih _
  | line hn _ ih =>
    simp only [List.cons_append, List.append_assoc]
    rw [lexemesOf?, scanFrom_lineComment _ _ _ hn, lexemes?_scanFrom]
    exact ih _
  | block hn hm _ ih =>
    simp only [List.cons_append, List.append_assoc]
    rw [lexemesOf?, scanFrom_blockComment _ _ _ hn hm, lexemes?_scanFrom]
    exact ih _

/-- A word ends before layout and comments. -/
theorem head?_filler {g : List Char} (hg : Filler g) {t : List Char}
    (ht : ∀ c ∈ t.head?, isIdentifierPart c = false) :
    ∀ c ∈ (g ++ t).head?, isIdentifierPart c = false := by
  cases hg with
  | nil => exact ht
  | layout hc _ =>
    intro c hmem
    cases hmem
    exact Gap.isLayout_elim hc (by decide)
  | line _ _ | block _ _ _ =>
    intro c hmem
    cases hmem
    decide

/-- However the lexemes are spread over a text, with layout and comments behind each of them or
nothing at all, they are scanned as such. -/
def Spreads (ls : List Lexeme) : Prop :=
  ∀ items : List (Lexeme × List Char), items.map Prod.fst = ls →
    (∀ item ∈ items, Filler item.2) → ∀ b, lexemesOf? b (spread items) = some (ls ++ [eof])

theorem spreads_nil : Spreads [] := by
  intro items hitems _ b
  rw [List.map_eq_nil_iff.1 hitems]
  exact lexemesOf?_nil b

theorem Spreads.cons {l : Lexeme} {ls : List Lexeme} (h : Spreads ls)
    (hl : ∀ (g : List Char) (items : List (Lexeme × List Char)), Filler g →
      items.map Prod.fst = ls → l.Before (g ++ spread items)) : Spreads (l :: ls) := by
  intro items hitems hfill b
  obtain ⟨⟨l', g⟩, items, rfl, rfl, hrest⟩ := List.map_eq_cons_iff.1 hitems
  have hg : Filler g := hfill (l', g) (.head _)
  have hscan := lexemesOf?_filler hg
    (h items hrest fun item hitem => hfill item (List.mem_cons_of_mem _ hitem))
  have htoken := lexemesOf?_token (hl g items hg hrest b) (hscan _)
  rwa [String.ofList_toList] at htoken

theorem Spreads.sign {ls : List Lexeme} (h : Spreads ls) {k : Kind} (hk : k ∈ callSigns) :
    Spreads (sign k :: ls) :=
  h.cons fun _ _ _ _ => before_sign hk _

theorem Spreads.string {ls : List Lexeme} (h : Spreads ls) {l : Lexeme} {body : List Char}
    (hk : l.kind = .string) (hl : l.text.toList = '\x22' :: (body ++ ['\x22']))
    (hbody : StringBody body) : Spreads (l :: ls) :=
  h.cons fun _ _ _ _ b => by rw [hl, hk]; exact first?_string hbody b _

/-- A word before a sign. -/
theorem Spreads.word {k : Kind} {ls : List Lexeme} (h : Spreads (Lexeme.sign k :: ls))
    (hk : k ∈ callSigns) {w : String} (hw : w ∈ callWords) :
    Spreads (name w :: Lexeme.sign k :: ls) := by
  have hsigns : ∀ k ∈ callSigns, (Lexeme.sign k).text.toList.head?.any
      (fun c => !isIdentifierPart c) = true := by
    decide
  refine h.cons fun g items hg hitems => before_word hw (head?_filler hg ?_)
  obtain ⟨⟨l, g'⟩, items, rfl, rfl, -⟩ := List.map_eq_cons_iff.1 hitems
  obtain ⟨c, hc, hpart⟩ := (Option.any_eq_true _ _).1 (hsigns k hk)
  intro d hd
  rw [spread, List.head?_append, hc] at hd
  cases hd
  simpa using hpart

/-! ## Calls -/

theorem stringBody_of_plain {u : List Char} (h : ∀ c ∈ u, c ≠ '\x22' ∧ c ≠ '\\') :
    StringBody u := by
  induction u with
  | nil => exact .nil
  | cons c cs ih =>
    obtain ⟨hc, hcs⟩ := List.forall_mem_cons.1 h
    exact .plain hc.1 hc.2 (ih hcs)

/-- A call that prints a string literal without escapes or line feeds. -/
structure PrintCall where
  /-- A line feed is written behind the content. -/
  feeds : Bool
  content : String
  plain : ∀ c ∈ content.toList, c ≠ '\x22' ∧ c ≠ '\\' ∧ c ≠ '\n'

namespace PrintCall

/-- The method that is called. -/
def method (c : PrintCall) : String := if c.feeds then "println" else "print"

/-- The literal that is printed. -/
def literal (c : PrintCall) : Lexeme := ⟨.string, "\"" ++ c.content ++ "\""⟩

/-- The lexemes of the call. -/
def lexemes (c : PrintCall) : List Lexeme :=
  [name printReceiver, sign .dot, name printField, sign .dot, name c.method,
   sign .leftParen, c.literal, sign .rightParen, sign .semicolon]

/-- What the call writes. -/
def written (c : PrintCall) : String := c.content ++ if c.feeds then "\n" else ""

theorem mem_printMethods (c : PrintCall) : c.method ∈ printMethods := by
  unfold method
  split <;> decide

theorem spreads (calls : List PrintCall) : Spreads (calls.flatMap lexemes) := by
  induction calls with
  | nil => exact spreads_nil
  | cons c calls ih =>
    have hmethod : c.method ∈ callWords := .tail _ (.tail _ c.mem_printMethods)
    have hbody : StringBody c.content.toList :=
      stringBody_of_plain fun d hd => ⟨(c.plain d hd).1, (c.plain d hd).2.1⟩
    have hargument := ((ih.sign (k := .semicolon) (by decide)).sign (k := .rightParen)
      (by decide)).string (l := c.literal) rfl (by simp [literal]) hbody
    have hcall := (hargument.sign (k := .leftParen) (by decide)).word (by decide) hmethod
    have hfield := (hcall.sign (k := .dot) (by decide)).word (by decide)
      (w := printField) (by decide)
    exact (hfield.sign (k := .dot) (by decide)).word (by decide) (w := printReceiver) (by decide)

/-- The statement that the call is read as. -/
def statement (c : PrintCall) : Statement := .print c.literal.text

theorem accepted (calls : List PrintCall) :
    Grammar.Accepted (calls.flatMap lexemes ++ [eof]) (calls.map statement) := by
  refine ⟨false, _, [], rfl, ?_, Grammar.passable_nil _ _⟩
  induction calls with
  | nil => exact .nil
  | cons c calls ih =>
    have hcall : Statement.Spelled .full c.statement c.lexemes :=
      .print c.mem_printMethods (v := c.literal) (.head _)
    exact .cons hcall ih

/-- The line that the call becomes. -/
def line (c : PrintCall) : String := "print(\"" ++ c.content ++ "\")"

theorem feed_not_mem_line (c : PrintCall) : '\n' ∉ c.line.toList := by
  have hcontent : '\n' ∉ c.content.toList := fun h => (c.plain _ h).2.2 rfl
  simp [line, hcontent]

theorem render (calls : List PrintCall) : (⟨calls.map statement⟩ : Program).render =
    .ok (String.join (calls.map fun c => c.line ++ "\n")) := by
  induction calls with
  | nil => rfl
  | cons c calls ih =>
    have hline : (⟨[c.statement]⟩ : Program).render = .ok (c.line ++ "\n") := by
      show Except.ok ("print(" ++ c.literal.text ++ ")\n" ++ "") = _
      congr 1
      rw [← String.toList_inj]
      simp [line, literal]
    have hrest := render_append hline (calls.map statement)
    rw [ih] at hrest
    rw [List.map_cons, List.map_cons, String.join_cons]
    exact hrest

end PrintCall

/-! ## What a text of calls writes -/

/-- What a line writes that calls `print` for a string literal without escapes: the content of the
literal, and a line feed. -/
def printed? (l : List Char) : Option String :=
  let content := (l.drop "print(\"".length).takeWhile fun c => c != '\x22' && c != '\\'
  if l = "print(\"".toList ++ (content ++ "\")".toList) then some (String.ofList content ++ "\n")
  else none

/-- What the lines of a text write, one after the other. A line may be empty, and else calls
`print`. -/
def output? (q : String) : Option String :=
  (Text.lines q.toList).foldr
    (fun l out => if l = [] then out else do return (← printed? l) ++ (← out)) (some "")

theorem printed?_line (c : PrintCall) : printed? c.line.toList = some (c.content ++ "\n") := by
  have hline : c.line.toList = "print(\"".toList ++ (c.content.toList ++ "\")".toList) := by
    simp [PrintCall.line]
  have hcontent : (c.content.toList ++ "\")".toList).takeWhile
      (fun c => c != '\x22' && c != '\\') = c.content.toList := by
    refine takeWhile_upTo (fun d hd => ?_) (by simp)
    have hplain := c.plain d hd
    simp [hplain.1, hplain.2.1]
  rw [printed?, hline, ← String.length_toList, List.drop_left, hcontent]
  simp

theorem output?_lines (calls : List PrintCall) :
    output? (String.join (calls.map fun c => c.line ++ "\n")) =
      some (String.join (calls.map fun c => c.content ++ "\n")) := by
  induction calls with
  | nil => rfl
  | cons c calls ih =>
    have hne : c.line.toList ≠ [] := by simp [PrintCall.line]
    have hsplit : (String.join ((c :: calls).map fun c => c.line ++ "\n")).toList =
        c.line.toList ++ '\n' :: (String.join (calls.map fun c => c.line ++ "\n")).toList := by
      simp
    rw [output?, hsplit, Text.lines_line c.feed_not_mem_line, List.foldr_cons, if_neg hne,
      printed?_line, ← output?, ih, List.map_cons, String.join_cons]
    rfl

/-- Every call that asks for no line feed gets one. -/
theorem length_written (calls : List PrintCall) :
    (String.join (calls.map PrintCall.written)).length + calls.countP (fun c => !c.feeds) =
      (String.join (calls.map fun c => c.content ++ "\n")).length := by
  induction calls with
  | nil => rfl
  | cons c calls ih =>
    have hcall : c.written.length + (if !c.feeds then 1 else 0) = (c.content ++ "\n").length := by
      have hfeed : "\n".length = 1 := rfl
      cases hc : c.feeds <;> simp [PrintCall.written, hc, hfeed]
    rw [List.map_cons, List.map_cons, String.join_cons, String.join_cons, String.length_append,
      String.length_append, ← ih, ← hcall, List.countP_cons]
    omega

/-- Calls that print string literals are converted, however they are spread over a text: each
becomes a line that prints the same literal, and running the lines writes the contents in their
order, a line feed behind each. That is what the calls write exactly if all of them ask for the
line feed. -/
theorem output_convert_calls (calls : List PrintCall) {lead : List Char} (hlead : Filler lead)
    {items : List (Lexeme × List Char)}
    (hitems : items.map Prod.fst = calls.flatMap PrintCall.lexemes)
    (hfill : ∀ item ∈ items, Filler item.2) :
    ∃ q, convert (layout lead items) = .ok q ∧
      q = String.join (calls.map fun c => c.line ++ "\n") ∧
      output? q = some (String.join (calls.map fun c => c.content ++ "\n")) ∧
      (output? q = some (String.join (calls.map PrintCall.written)) ↔
        ∀ c ∈ calls, c.feeds = true) := by
  have hscan := lexemesOf?_filler hlead (PrintCall.spreads calls items hitems hfill) none
  rw [← String.toList_ofList (l := lead ++ spread items)] at hscan
  refine ⟨_, convert_eq_ok_iff.2 ⟨_, _, hscan, PrintCall.accepted calls, PrintCall.render calls⟩,
    rfl, output?_lines calls, ?_⟩
  rw [output?_lines, Option.some.injEq]
  constructor
  · intro h c hc
    have hlength := length_written calls
    rw [h] at hlength
    have hnone : calls.countP (fun c => !c.feeds) = 0 := by omega
    simpa using List.countP_eq_zero.1 hnone c hc
  · intro h
    congr 1
    refine List.map_congr_left fun c hc => ?_
    simp [PrintCall.written, h c hc]

/-- A call that asks for no line feed, with a comment in it, writes one. -/
theorem output_convert_calls_print :
    ∃ q, convert "System.out.print(/* b */\"a\");\n" = .ok q ∧
      output? q = some "a\n" ∧ output? q ≠ some "a" := by
  have hfill : ∀ item ∈ [(name "System", []), (sign .dot, []), (name "out", []), (sign .dot, []),
      (name "print", []), (sign .leftParen, "/* b */".toList), (⟨.string, "\"a\""⟩, []),
      (sign .rightParen, []), (sign .semicolon, ['\n'])], Filler item.2 := by
    intro item hitem
    have hgap : item.2 = [] ∨ item.2 = "/* b */".toList ∨ item.2 = ['\n'] := by
      revert item
      decide
    obtain h | h | h := hgap <;> rw [h]
    · exact .nil
    · exact @Filler.block " b ".toList (by decide) (by decide) [] .nil
    · exact .layout rfl .nil
  obtain ⟨q, hconvert, -, hout, hexact⟩ :=
    output_convert_calls [⟨false, "a", by simp⟩] .nil rfl hfill
  refine ⟨q, hconvert, hout, fun h => ?_⟩
  cases hexact.1 h _ (.head _)

end Offside
