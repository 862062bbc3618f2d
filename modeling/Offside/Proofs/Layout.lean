import Offside.Proofs.Concatenation
import Offside.Proofs.Languages

/-!
# Layout does not matter

Lexemes may be spread over a text with layout and comments between them, in any way that has
layout directly behind every lexeme. The scanner finds just these lexemes, each at its place
(`scanFrom_laid`), and so two texts with the same lexemes are read as the same program and
converted alike (`tokenize_layout`).

The scan is followed piece by piece. A piece of layout is one match however long it
is, but it may be taken one character at a time (`scanFrom_layout`).
-/

namespace Offside

open Lexeme (eof Closed)
open Gap (isLayout)

/-! ## What stands between lexemes -/

/-- Layout and comments in any order. A comment to the end of the line has its line feed with
it, and a comment between marks stands on one line and ends at the first mark that closes it. -/
inductive Filler : List Char → Prop
  | nil : Filler []
  | layout {c : Char} (hc : isLayout c = true) {t : List Char} (h : Filler t) : Filler (c :: t)
  | line {cs : List Char} (hn : '\n' ∉ cs) {t : List Char} (h : Filler t) :
      Filler ('/' :: '/' :: (cs ++ '\n' :: t))
  | block {cs : List Char} (hn : '\n' ∉ cs) (hm : ¬ ['*', '/'] <:+: cs) {t : List Char}
      (h : Filler t) : Filler ('/' :: '*' :: (cs ++ '*' :: '/' :: t))

/-- What separates lexemes starts with layout. -/
inductive Separator : List Char → Prop
  | mk {c : Char} (hc : isLayout c = true) {t : List Char} (h : Filler t) : Separator (c :: t)

section Scans

variable (source : List Char) (b : Option Char) (n : Nat)

/-- A character of layout is passed over. -/
theorem scanFrom_layout {c : Char} (hc : isLayout c = true) (t : List Char) :
    scanFrom Rule.all source b n (c :: t) = scanFrom Rule.all source (some c) (n + 1) t := by
  rw [scanFrom_gap (by simp) (Rule.first?_layout hc b t)]
  cases t with
  | nil => rfl
  | cons d t =>
    cases hd : isLayout d with
    | false => simp [hd]
    | true =>
      -- the rest of the run is what is matched behind `c`
      rw [scanFrom_gap (by simp) (Rule.first?_layout hd (some c) t)]
      simp only [List.takeWhile_cons, hd, if_true, List.length_cons, List.take_succ_cons,
        List.drop_succ_cons, List.getLast?_cons_cons]
      congr 1
      omega

/-- Where a slash starts a text, comments are tried first. -/
theorem first?_slash (t : List Char) : Rule.first? Rule.all b ('/' :: t) =
    Rule.first? ([.gap .lineComment, .gap .blockComment, .gap .classHeader, .gap .mainHeader] ++
      Rule.lexemes.map .token) b ('/' :: t) := by
  rw [Rule.first?_gaps (munch?_reserved_foreign (by decide) b t)]
  exact Rule.first?_cons_none (r := .gap .layout) rfl

/-- A comment to the end of the line is passed over with its line feed. -/
theorem scanFrom_lineComment {cs : List Char} (hn : '\n' ∉ cs) (t : List Char) :
    scanFrom Rule.all source b n ('/' :: '/' :: (cs ++ '\n' :: t)) =
      scanFrom Rule.all source (some '\n') (n + cs.length + 3) t := by
  have hmunch : Gap.munchLineComment? ('/' :: '/' :: (cs ++ '\n' :: t)) =
      some (2 + cs.length) := by
    have hall : (cs ++ '\n' :: t).takeWhile (· != '\n') = cs := by
      refine takeWhile_upTo (fun c hc => ?_) (by simp)
      rw [bne_iff_ne]
      intro he
      exact hn (he ▸ hc)
    simp [Gap.munchLineComment?, hall]
  have hfirst := (first?_slash b ('/' :: (cs ++ '\n' :: t))).trans
    (Rule.first?_cons_some (r := .gap .lineComment) hmunch)
  rw [scanFrom_gap (by simp) hfirst]
  have hdrop : ('/' :: '/' :: (cs ++ '\n' :: t)).drop (2 + cs.length) = '\n' :: t := by
    rw [Nat.add_comm]
    simp
  rw [hdrop, scanFrom_layout _ _ _ rfl]
  congr 1
  omega

theorem munchBlockRest?_body {cs : List Char} (hn : '\n' ∉ cs) (hm : ¬ ['*', '/'] <:+: cs)
    (t : List Char) : Gap.munchBlockRest? (cs ++ '*' :: '/' :: t) = some (cs.length + 2) := by
  induction cs with
  | nil => simp [Gap.munchBlockRest?]
  | cons c cs ih =>
    have hc : c ≠ '\n' := fun he => hn (by simp [he])
    have hrest := ih (fun h => hn (by simp [h])) fun h => hm (List.infix_cons h)
    have hclosed : ¬ (c = '*' ∧ (cs ++ '*' :: '/' :: t).head? = some '/') := by
      intro h
      obtain ⟨rfl, hhead⟩ := h
      cases cs with
      | nil => simp at hhead
      | cons d ds =>
        obtain rfl : d = '/' := by simpa using hhead
        exact hm ⟨[], ds, rfl⟩
    rw [List.cons_append, Gap.munchBlockRest?, if_neg (by simpa using hclosed), if_neg hc, hrest]
    rfl

/-- A comment between marks is passed over. -/
theorem scanFrom_blockComment {cs : List Char} (hn : '\n' ∉ cs) (hm : ¬ ['*', '/'] <:+: cs)
    (t : List Char) : scanFrom Rule.all source b n ('/' :: '*' :: (cs ++ '*' :: '/' :: t)) =
      scanFrom Rule.all source (some '/') (n + cs.length + 4) t := by
  have hmunch : Gap.munchBlockComment? ('/' :: '*' :: (cs ++ '*' :: '/' :: t)) =
      some (cs.length + 2 + 2) := by
    simp [Gap.munchBlockComment?, munchBlockRest?_body hn hm]
  have hfirst := (first?_slash b ('*' :: (cs ++ '*' :: '/' :: t))).trans
    ((Rule.first?_cons_none (r := .gap .lineComment) rfl).trans
      (Rule.first?_cons_some (r := .gap .blockComment) hmunch))
  have hsplit : '/' :: '*' :: (cs ++ '*' :: '/' :: t) =
      ('/' :: '*' :: (cs ++ ['*', '/'])) ++ t := by
    simp
  have hlength : ('/' :: '*' :: (cs ++ ['*', '/'])).length = cs.length + 2 + 2 := by simp
  have hlast : ('/' :: '*' :: (cs ++ ['*', '/'])).getLast? = some '/' := by
    simp [List.getLast?_cons, List.getLast?_append]
  rw [scanFrom_gap (by simp) hfirst, hsplit, ← hlength, List.take_left, List.drop_left, hlength,
    hlast]
  simp only [Nat.add_assoc]

/-- Layout and comments are passed over, and a word may start behind them. -/
theorem scanFrom_filler {g : List Char} (hg : Filler g) (hb : Text.endsWord b = true)
    (t : List Char) : ∃ b', Text.endsWord b' = true ∧
      scanFrom Rule.all source b n (g ++ t) = scanFrom Rule.all source b' (n + g.length) t := by
  induction hg generalizing b n with
  | nil => exact ⟨b, hb, rfl⟩
  | @layout c hc g _ ih =>
    obtain ⟨b', hb', hscan⟩ := ih (some c) (n + 1) (endsWord_layout hc)
    refine ⟨b', hb', ?_⟩
    rw [List.cons_append, scanFrom_layout source b n hc, hscan, List.length_cons, Nat.add_assoc,
      Nat.add_comm 1]
  | @line cs hn g _ ih =>
    obtain ⟨b', hb', hscan⟩ := ih (some '\n') (n + cs.length + 3) (endsWord_layout rfl)
    refine ⟨b', hb', ?_⟩
    simp only [List.cons_append, List.append_assoc]
    rw [scanFrom_lineComment source b n hn, hscan]
    simp only [List.length_cons, List.length_append]
    congr 1
    omega
  | @block cs hn hm g _ ih =>
    obtain ⟨b', hb', hscan⟩ := ih (some '/') (n + cs.length + 4) (by decide +kernel)
    refine ⟨b', hb', ?_⟩
    simp only [List.cons_append, List.append_assoc]
    rw [scanFrom_blockComment source b n hn hm, hscan]
    simp only [List.length_cons, List.length_append]
    congr 1
    omega

/-- What separates lexemes is passed over behind any character. -/
theorem scanFrom_separator {g : List Char} (hg : Separator g) (t : List Char) :
    ∃ b', Text.endsWord b' = true ∧
      scanFrom Rule.all source b n (g ++ t) = scanFrom Rule.all source b' (n + g.length) t := by
  obtain ⟨hc, hfiller⟩ := hg
  obtain ⟨b', hb', hscan⟩ := scanFrom_filler source _ (n + 1) hfiller (endsWord_layout hc) t
  refine ⟨b', hb', ?_⟩
  rw [List.cons_append, scanFrom_layout source b n hc, hscan, List.length_cons, Nat.add_assoc,
    Nat.add_comm 1]

end Scans

/-! ## Lexemes spread over a text -/

/-- Lexemes, each with what stands behind it: something that separates it from the next one,
and behind the last perhaps nothing. -/
inductive Laid : List (Lexeme × List Char) → Prop
  | nil : Laid []
  | last {l : Lexeme} (hl : l.Proper) : Laid [(l, [])]
  | cons {l : Lexeme} (hl : l.Proper) {g : List Char} (hg : Separator g)
      {items : List (Lexeme × List Char)} (h : Laid items) : Laid ((l, g) :: items)

/-- The characters of the lexemes and of what stands behind them. -/
def spread : List (Lexeme × List Char) → List Char
  | [] => []
  | (l, g) :: items => l.text.toList ++ (g ++ spread items)

/-- The tokens of lexemes that are spread over a text from a position on. -/
def places (n : Nat) : List (Lexeme × List Char) → List Token
  | [] => []
  | (l, g) :: items => ⟨l.kind, l.text, n⟩ :: places (n + l.text.toList.length + g.length) items

theorem lexeme_places (n : Nat) (items : List (Lexeme × List Char)) :
    (places n items).map Token.lexeme = items.map Prod.fst := by
  induction items generalizing n with
  | nil => rfl
  | cons item items ih =>
    rw [places, List.map_cons, List.map_cons, ih]
    rfl

/-- A lexeme before layout or at the end is scanned as such. -/
theorem scanFrom_lexeme {l : Lexeme} (hl : l.Proper) (source : List Char) {b : Option Char}
    (hb : Text.endsWord b = true) (n : Nat) {t : List Char} (ht : Ends t) :
    scanFrom Rule.all source b n (l.text.toList ++ t) =
      (scanFrom Rule.all source l.text.toList.getLast? (n + l.text.toList.length) t).cons
        ⟨l.kind, l.text, n⟩ := by
  have hfirst := first?_proper hl hb ht
  have hne : l.text.toList ++ t ≠ [] := by
    intro he
    rw [he] at hfirst
    cases hfirst
  rw [scanFrom_token hne hfirst, List.take_left, List.drop_left, String.ofList_toList]

/-- Lexemes that are spread over a text are scanned one after the other. -/
theorem scanFrom_laid {items : List (Lexeme × List Char)} (h : Laid items) (source : List Char)
    (b : Option Char) (hb : Text.endsWord b = true) (n : Nat) :
    scanFrom Rule.all source b n (spread items) =
      ⟨places n items ++ [Token.eof (n + (spread items).length : Nat)], none⟩ := by
  induction h generalizing b n with
  | nil => simp [spread, places, scanFrom]
  | @last l hl =>
    have hscan := scanFrom_lexeme hl source hb n (t := []) (by simp [Ends])
    rw [spread, spread, List.append_nil, hscan]
    simp [scanFrom, Scan.cons, places]
  | @cons l hl g hg items _ ih =>
    have hends : Ends (g ++ spread items) := by
      obtain ⟨hc, -⟩ := hg
      intro c hmem
      cases hmem
      exact hc
    obtain ⟨b', hb', hscan⟩ := scanFrom_separator source l.text.toList.getLast?
      (n + l.text.toList.length) hg (spread items)
    rw [spread, scanFrom_lexeme hl source hb n hends, hscan, ih b' hb']
    simp [Scan.cons, places, Nat.add_assoc]

/-- The text of lexemes behind some layout and comments. -/
def layout (lead : List Char) (items : List (Lexeme × List Char)) : String :=
  String.ofList (lead ++ spread items)

theorem tokenize_laid {lead : List Char} (hlead : Filler lead) {items : List (Lexeme × List Char)}
    (h : Laid items) : tokenize (layout lead items) =
      .ok (places lead.length items ++ [Token.eof (layout lead items).length]) := by
  obtain ⟨b, hb, hscan⟩ := scanFrom_filler (lead ++ spread items) none 0 hlead rfl (spread items)
  have hlaid := scanFrom_laid h (lead ++ spread items) b hb (0 + lead.length)
  rw [tokenize, scan, layout, String.toList_ofList, hscan, hlaid]
  simp

/-! ## Texts with the same lexemes -/

/-- Tokens with the same lexemes are read as the same program, or fail alike. -/
theorem parse_congr {ts us : List Token} (h : ts.map Token.lexeme = us.map Token.lexeme)
    (hclosed : Closed (us.map Token.lexeme)) :
    (parse ts).mapError GrammarError.failure = (parse us).mapError GrammarError.failure := by
  have hsame := @parse_append ts us [] [] (by simpa using h) .nil hclosed.getLast?
  cases hu : parse us with
  | ok p =>
    rw [hu] at hsame
    rw [hsame]
    rfl
  | error f =>
    rw [hu] at hsame
    obtain ⟨e, he, hsyntax⟩ := hsame
    have hts : Closed (ts.map Token.lexeme) := h ▸ hclosed
    have hfailure :=
      failure_eq (Grammar.parse_error hts he) (Grammar.parse_error hclosed hu) hsyntax
    rw [he]
    exact congrArg Except.error hfailure

theorem parseSource_congr {s t : String} {ts us : List Token} (hs : tokenize s = .ok ts)
    (ht : tokenize t = .ok us) (h : ts.map Token.lexeme = us.map Token.lexeme) :
    (parseSource s).mapError ConvertError.failure =
      (parseSource t).mapError ConvertError.failure := by
  have hgrammar : ∀ x : Except GrammarError Program,
      (x.mapError ConvertError.grammar).mapError ConvertError.failure =
        x.mapError GrammarError.failure := by
    intro x
    cases x <;> rfl
  unfold parseSource
  rw [hs, ht]
  show ((parse ts).mapError ConvertError.grammar).mapError _ =
    ((parse us).mapError ConvertError.grammar).mapError _
  rw [hgrammar, hgrammar, parse_congr h (closed_tokenize ht)]

/-- Texts with the same program are converted alike. -/
theorem convert_congr {s t : String} (h : (parseSource s).mapError ConvertError.failure =
      (parseSource t).mapError ConvertError.failure) :
    (convert s).mapError ConvertError.failure = (convert t).mapError ConvertError.failure := by
  unfold convert
  cases hs : parseSource s with
  | error e =>
    cases ht : parseSource t with
    | error f =>
      rw [hs, ht] at h
      exact congrArg Except.error (Except.error.inj h)
    | ok q =>
      rw [hs, ht] at h
      cases h
  | ok p =>
    cases ht : parseSource t with
    | error f =>
      rw [hs, ht] at h
      cases h
    | ok q =>
      rw [hs, ht] at h
      cases h
      rfl

/-- Lexemes that are spread over a text in any way are its tokens, each at its place. How they
are spread changes neither the program that is read nor what it is converted to. -/
theorem tokenize_layout {lead : List Char} (hlead : Filler lead)
    {items : List (Lexeme × List Char)} (h : Laid items) :
    tokenize (layout lead items) =
      .ok (places lead.length items ++ [Token.eof (layout lead items).length]) ∧
    ∀ (lead' : List Char) (items' : List (Lexeme × List Char)), Filler lead' → Laid items' →
      items'.map Prod.fst = items.map Prod.fst →
        (parseSource (layout lead' items')).mapError ConvertError.failure =
          (parseSource (layout lead items)).mapError ConvertError.failure ∧
        (convert (layout lead' items')).mapError ConvertError.failure =
          (convert (layout lead items)).mapError ConvertError.failure := by
  have htokens := tokenize_laid hlead h
  constructor
  · exact htokens
  · intro lead' items' hlead' h' hlexemes
    have hsame := parseSource_congr (tokenize_laid hlead' h') htokens (by
      simp [lexeme_places, hlexemes])
    exact ⟨hsame, convert_congr hsame⟩

/-- A word in a comment is not scanned, and neither comments nor line ends change the program. -/
theorem tokenize_layout_comment :
    tokenize "int x /* if */;" =
      .ok [⟨.intType, "int", 0⟩, ⟨.identifier, "x", 4⟩, ⟨.semicolon, ";", 14⟩, Token.eof 15] ∧
    (convert "// if\nint\n\tx ;").mapError ConvertError.failure =
      (convert "int x /* if */;").mapError ConvertError.failure := by
  have hint : (Lexeme.sign .intType).Proper := Lexeme.proper_sign rfl (by decide)
  have hsemicolon : (Lexeme.sign .semicolon).Proper := Lexeme.proper_sign rfl (by decide)
  have hletter : isIdentifier "x".toList = true := by decide
  have hx : (Lexeme.name "x").Proper := ⟨hletter, by decide, by decide, by decide⟩
  have hspace : Separator [' '] := .mk rfl .nil
  have hcomment : Separator " /* if */".toList :=
    .mk rfl (@Filler.block " if ".toList (by decide) (by decide) [] .nil)
  have hbreak : Separator "\n\t".toList := .mk rfl (.layout rfl .nil)
  have hlead : Filler "// if\n".toList := @Filler.line " if".toList (by decide) [] .nil
  obtain ⟨htokens, hsame⟩ := tokenize_layout .nil
    (.cons hint hspace (.cons hx hcomment (.last hsemicolon)))
  have hconvert := hsame "// if\n".toList _ hlead
    (.cons hint hbreak (.cons hx hspace (.last hsemicolon))) rfl
  exact ⟨htokens, hconvert.2⟩

end Offside
