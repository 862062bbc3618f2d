import Offside.Proofs.MatchedTexts
import Offside.Proofs.Outline

/-!
# Blocks in the text of a program

The text of a program is read row by row, and what counts is what stands in the rows: a row that
heads a block has to be followed by one that is not blank and is indented by four more spaces. A
line takes up one row, or several if it has a literal with line feeds in it, and the rows of such
a literal are no heads, even if they look like one.

`convert_blocks_iff` says that the text for a source has its blocks exactly if no block of the
program in the source is empty. An empty block is written as a head with nothing below it.

What the lines of a program look like depends on its tokens: a name has no blank in it, and a
colon or a line feed stands only between quotes (`Kind.Language.colon`). Lines that fit
(`Line.Fits`) start where they are indented to, have no line feed if they are heads, and end with
a colon behind a word only then.
-/

namespace Offside

open Text (indentChars indentLine isBlank isBlankText)
open Offside.Tree (RenderError valueText)
open Lexeme (sign name eof)

/-! ## Rows -/

/-- A row of a text, with a mark if it heads a block. -/
structure Row where
  isHead : Bool
  chars : List Char
deriving DecidableEq, Repr

/-- The number of spaces that the row starts with. -/
def Row.indentation (r : Row) : Nat := (r.chars.takeWhile (· == ' ')).length

/-- The rows that a line takes up. -/
def Line.rows (l : Line) : List Row :=
  (Text.lines (indentChars l.depth l.text.toList)).map (Row.mk l.isHead)

/-- The rows of lines, one after the other. -/
def rowsOf (ls : List Line) : List Row := ls.flatMap Line.rows

/-- The rows of a program. -/
def Program.rows (p : Program) : Except RenderError (List Row) := p.outline.map rowsOf

/-- The row may stand first in a block whose head is indented by `n` spaces. -/
def Row.isBelow (n : Nat) (r : Row) : Bool := !isBlankText r.chars && r.indentation == n + 4

/-- Every head is directly followed by a row of its block. -/
def rowsBlocked : List Row → Bool
  | [] => true
  | r :: rs => (!r.isHead || rs.head?.any (Row.isBelow r.indentation)) && rowsBlocked rs

/-- The words that a head starts with, if it is not that of a last alternative. -/
def headWords : List String := ["if ", "elif ", "while ", "for "]

/-- The row looks like a head: behind its spaces it is `else:`, or it starts with such a word and
ends with a colon. -/
def looksLikeHead (chars : List Char) : Bool :=
  let text := chars.dropWhile (· == ' ')
  text.getLast? == some ':' &&
    (text == "else:".toList || headWords.any fun w => w.toList.isPrefixOf text)

/-! ## The rows of a text -/

theorem lines_write (l : Line) (cs : List Char) :
    Text.lines (l.write.toList ++ cs) = l.rows.map Row.chars ++ Text.lines cs := by
  have hwrite : l.write.toList = indentChars l.depth l.text.toList ++ ['\n'] := by
    rw [Line.write, Text.indent, String.toList_ofList, String.toList_append,
      show "\n".toList = ['\n'] from rfl, Text.indentChars_feed, Text.indentChars_nil]
  have hrows : l.rows.map Row.chars = Text.lines (indentChars l.depth l.text.toList) := by
    simp [Line.rows, Function.comp_def]
  rw [hwrite, hrows, List.append_assoc, List.singleton_append, Text.lines_feed]

/-- Lines are written as their rows, and the last line feed ends the last of them. -/
theorem lines_writeLines (ls : List Line) :
    Text.lines (writeLines ls).toList = (rowsOf ls).map Row.chars ++ [[]] := by
  induction ls with
  | nil => rfl
  | cons l ls ih =>
    rw [writeLines, String.toList_append, lines_write, ih, rowsOf, rowsOf, List.flatMap_cons,
      List.map_append, List.append_assoc]

/-! ## Lines that fit -/

/-- The line starts with a character that is not blank, and it has the mark of a head exactly if
it looks like one. A head has no line feed, and no line has one if `flat`. -/
structure Line.Fits (flat : Prop) (l : Line) : Prop where
  start : ∃ c cs, l.text.toList = c :: cs ∧ isBlank c = false
  oneRow : l.isHead = true ∨ flat → '\n' ∉ l.text.toList
  marked : l.isHead = looksLikeHead l.text.toList

theorem ne_space {c : Char} (hc : isBlank c = false) : (c == ' ') = false := by
  have hspace : isBlank ' ' = true := by decide
  rw [beq_eq_false_iff_ne]
  intro he
  rw [he, hspace] at hc
  cases hc

theorem indentLine_cons (d : Nat) {c : Char} (hc : isBlank c = false) (cs : List Char) :
    indentLine d (c :: cs) = List.replicate (4 * d) ' ' ++ c :: cs := by
  have hne : isBlankText (c :: cs) = false := Text.isBlankText_of_mem (.head cs) hc
  simp [indentLine, hne, Text.indentWidth]

theorem takeWhile_indented (d : Nat) {c : Char} (hc : isBlank c = false) (cs : List Char) :
    (List.replicate d ' ' ++ c :: cs).takeWhile (· == ' ') = List.replicate d ' ' := by
  apply takeWhile_upTo
  · intro e he
    simpa using List.eq_of_mem_replicate he
  · intro e he
    cases he
    exact ne_space hc

theorem looksLikeHead_indented (d : Nat) (cs : List Char) :
    looksLikeHead (List.replicate d ' ' ++ cs) = looksLikeHead cs := by
  have hdrop : (List.replicate d ' ' ++ cs).dropWhile (· == ' ') = cs.dropWhile (· == ' ') := by
    induction d with
    | zero => rfl
    | succ d ih => simp [List.replicate_succ, ih]
  unfold looksLikeHead
  rw [hdrop]

namespace Line.Fits

variable {flat : Prop} {l : Line}

/-- A line without line feeds is one row. -/
theorem rows_eq (h : l.Fits flat) (hl : '\n' ∉ l.text.toList) :
    l.rows = [⟨l.isHead, List.replicate (4 * l.depth) ' ' ++ l.text.toList⟩] := by
  obtain ⟨c, cs, htext, hc⟩ := h.start
  have hrow := Text.newline_not_mem_indentLine hl l.depth
  rw [Line.rows, Text.indentChars_last _ hl, Text.lines_last hrow, htext, indentLine_cons _ hc]
  rfl

/-- The first row of a line starts where the line is indented to. -/
theorem exists_rows (h : l.Fits flat) : ∃ c cs more, isBlank c = false ∧
    l.rows = ⟨l.isHead, List.replicate (4 * l.depth) ' ' ++ c :: cs⟩ :: more := by
  obtain ⟨c, cs, htext, hc⟩ := h.start
  by_cases hmem : '\n' ∈ l.text.toList
  · obtain ⟨row, rest, hsplit, hrow⟩ := List.eq_append_cons_of_mem hmem
    cases row with
    | nil =>
      -- the first character is no line feed, since that is blank
      rw [htext] at hsplit
      cases hsplit
      cases hc
    | cons d ds =>
      obtain ⟨rfl, -⟩ : c = d ∧ cs = ds ++ '\n' :: rest := by simpa [htext] using hsplit
      have hrow' := Text.newline_not_mem_indentLine hrow l.depth
      have hrows : l.rows = ⟨l.isHead, List.replicate (4 * l.depth) ' ' ++ c :: ds⟩ ::
          (Text.lines (indentChars l.depth rest)).map (Row.mk l.isHead) := by
        rw [Line.rows, hsplit, Text.indentChars_line _ hrow, Text.lines_line hrow',
          indentLine_cons _ hc, List.map_cons]
      exact ⟨c, ds, _, hc, hrows⟩
  · have hrows := h.rows_eq hmem
    rw [htext] at hrows
    exact ⟨c, cs, [], hc, hrows⟩

theorem sink (h : l.Fits flat) (n : Nat) : (l.sink n).Fits flat := ⟨h.start, h.oneRow, h.marked⟩

/-- A line that does not end with a colon is no head. -/
theorem plain {t : String} (hstart : ∃ c cs, t.toList = c :: cs ∧ isBlank c = false)
    (hlast : t.toList.getLast? ≠ some ':') (hflat : flat → '\n' ∉ t.toList) :
    (Line.plain t).Fits flat := by
  obtain ⟨c, cs, htext, hc⟩ := hstart
  constructor
  · exact ⟨c, cs, htext, hc⟩
  · intro h
    obtain h | h := h
    · cases h
    · exact hflat h
  · have hdrop : t.toList.dropWhile (· == ' ') = t.toList := by
      rw [htext, List.dropWhile_cons_of_neg (by simp [ne_space hc])]
    simp [Line.plain, looksLikeHead, hdrop, hlast]

/-- A head is a word, a text without line feeds and a colon. -/
theorem head {w : String} (hw : w ∈ headWords) {t : String} (ht : '\n' ∉ t.toList) :
    (Line.head (w ++ t ++ ":")).Fits flat := by
  have hwords : ∀ w ∈ headWords, '\n' ∉ w.toList := by decide
  have hfeed := hwords w hw
  have hlooks : ∀ cs, w.toList.isPrefixOf (w.toList ++ cs) = true := by simp
  have hstart : ∃ c cs, w.toList = c :: cs ∧ isBlank c = false := by
    simp only [headWords, List.mem_cons, List.not_mem_nil, or_false] at hw
    obtain rfl | rfl | rfl | rfl := hw <;> exact ⟨_, _, rfl, by decide⟩
  obtain ⟨c, cs, hchars, hc⟩ := hstart
  have htext : (w ++ t ++ ":").toList = c :: (cs ++ (t.toList ++ [':'])) := by
    simp [hchars]
  constructor
  · exact ⟨c, _, htext, hc⟩
  · intro _
    simp [Line.head, hfeed, ht]
  · have hdrop : (w ++ t ++ ":").toList.dropWhile (· == ' ') = w.toList ++ (t.toList ++ [':']) := by
      rw [htext, List.dropWhile_cons_of_neg (by simp [ne_space hc]), hchars, List.cons_append]
    have hword : headWords.any (fun v => v.toList.isPrefixOf (w.toList ++ (t.toList ++ [':']))) =
        true := List.any_eq_true.2 ⟨w, hw, hlooks _⟩
    simp only [Line.head, looksLikeHead, hdrop, hword, Bool.or_true, Bool.and_true]
    simp

/-- The head of a last alternative. -/
theorem lastHead : (Line.head "else:").Fits flat := by
  constructor
  · exact ⟨'e', "lse:".toList, rfl, by decide⟩
  · intro _
    decide
  · decide

end Line.Fits

/-! ## Rows and lines -/

theorem rowsBlocked_plain (cs : List (List Char)) (rs : List Row) :
    rowsBlocked (cs.map (Row.mk false) ++ rs) = rowsBlocked rs := by
  induction cs with
  | nil => rfl
  | cons c cs ih => simpa [rowsBlocked] using ih

/-- The first row of lines is that of a block below a head exactly if the first line is. -/
theorem isBelow_rowsOf {flat : Prop} {ls : List Line} (h : ∀ l ∈ ls, l.Fits flat) (d : Nat) :
    (rowsOf ls).head?.any (Row.isBelow (4 * d)) = ls.head?.any (·.depth == d + 1) := by
  cases ls with
  | nil => rfl
  | cons l ls =>
    obtain ⟨c, cs, more, hc, hrows⟩ := (h l (by simp)).exists_rows
    have hblank : isBlankText (List.replicate (4 * l.depth) ' ' ++ c :: cs) = false :=
      Text.isBlankText_of_mem (by simp) hc
    have hwidth : (4 * l.depth == 4 * d + 4) = (l.depth == d + 1) := by
      rw [Bool.eq_iff_iff, beq_iff_eq, beq_iff_eq]
      omega
    simp only [rowsOf, List.flatMap_cons, hrows, List.cons_append, List.head?_cons,
      Option.any_some, Row.isBelow, Row.indentation, hblank, takeWhile_indented _ hc,
      List.length_replicate, hwidth, Bool.not_false, Bool.true_and]

/-- Rows have their blocks exactly if the lines do. -/
theorem rowsBlocked_rowsOf {flat : Prop} {ls : List Line} (h : ∀ l ∈ ls, l.Fits flat) :
    rowsBlocked (rowsOf ls) = blocked ls := by
  induction ls with
  | nil => rfl
  | cons l ls ih =>
    have hl := h l (by simp)
    have hls : ∀ k ∈ ls, k.Fits flat := fun k hk => h k (by simp [hk])
    have hrest := ih hls
    cases hhead : l.isHead with
    | false =>
      have hrows : rowsOf (l :: ls) =
          (Text.lines (indentChars l.depth l.text.toList)).map (Row.mk false) ++ rowsOf ls := by
        rw [rowsOf, List.flatMap_cons, Line.rows, hhead, rowsOf]
      rw [hrows, rowsBlocked_plain, hrest, blocked, hhead, Bool.not_false, Bool.true_or,
        Bool.true_and]
    | true =>
      have hone := hl.rows_eq (hl.oneRow (.inl hhead))
      obtain ⟨c, cs, htext, hc⟩ := hl.start
      have hrows : rowsOf (l :: ls) =
          ⟨true, List.replicate (4 * l.depth) ' ' ++ c :: cs⟩ :: rowsOf ls := by
        rw [rowsOf, List.flatMap_cons, hone, hhead, htext, List.singleton_append, rowsOf]
      have hindentation : (Row.mk true (List.replicate (4 * l.depth) ' ' ++ c :: cs)).indentation =
          4 * l.depth := by
        rw [Row.indentation, takeWhile_indented _ hc, List.length_replicate]
      rw [hrows, rowsBlocked, hindentation, isBelow_rowsOf hls, hrest, blocked, hhead]

/-- Where no line has a line feed, the heads are the rows that look like one. -/
theorem looksLikeHead_rowsOf {ls : List Line} (h : ∀ l ∈ ls, l.Fits True) :
    ∀ r ∈ rowsOf ls, r.isHead = looksLikeHead r.chars := by
  intro r hr
  obtain ⟨l, hl, hr⟩ := List.mem_flatMap.1 hr
  have hfits := h l hl
  rw [hfits.rows_eq (hfits.oneRow (.inr True.intro)), List.mem_singleton] at hr
  rw [hr, looksLikeHead_indented]
  exact hfits.marked

/-! ## What stands in tokens -/

/-- A line feed and a colon stand only between quotes. -/
theorem Kind.Language.not_mem {k : Kind} {u : List Char} (h : k.Language u) (hs : k ≠ .string)
    (hq : k ≠ .charLiteral) {c : Char} (hc : c = '\n' ∨ c = ':') : c ∉ u := by
  have hpart : isIdentifierPart c = false := by obtain rfl | rfl := hc <;> decide
  have hdecimal : Text.isDecimal c = false := by obtain rfl | rfl := hc <;> decide
  have hdot : c ≠ '.' := by obtain rfl | rfl := hc <;> decide
  have hsuffix : c ≠ 'f' ∧ c ≠ 'F' := by obtain rfl | rfl := hc <;> decide
  have hdigits : ∀ {ds : List Char}, Digits ds → c ∉ ds := by
    intro ds hds hm
    rw [hds.decimal c hm] at hdecimal
    cases hdecimal
  have hnumeral : ∀ {ds : List Char}, Numeral ds → c ∉ ds := by
    intro ds hds
    cases hds with
    | whole hd => exact hdigits hd
    | fraction hd he => simp [hdigits hd, hdigits he, hdot]
  unfold Kind.Language at h
  split at h
  · exact absurd rfl hs
  · exact absurd rfl hq
  · intro hm
    rw [isIdentifierPart_of_mem h c hm] at hpart
    cases hpart
  · exact hnumeral h
  · obtain ⟨ds, suffix, hds, hf, rfl⟩ := h
    obtain rfl | rfl := hf <;> simp [hnumeral hds, hsuffix]
  · have hall : ∀ k ∈ Kind.all, ∀ w ∈ k.spelling?, '\n' ∉ w.toList ∧ ':' ∉ w.toList := by
      decide
    have hw := hall k (Kind.mem_all_of_spelling? h) _ h
    rw [String.toList_ofList] at hw
    obtain rfl | rfl := hc
    · exact hw.1
    · exact hw.2

/-- A text with a colon in it ends with a quote. -/
theorem Kind.Language.colon {k : Kind} {u : List Char} (h : k.Language u) :
    ':' ∉ u ∨ u.getLast? = some '\x22' ∨ u.getLast? = some '\x27' := by
  by_cases hs : k = .string
  · subst hs
    obtain ⟨body, -, rfl⟩ := h
    exact .inr (.inl (by simp [List.getLast?_cons]))
  · by_cases hq : k = .charLiteral
    · subst hq
      obtain ⟨body, -, rfl⟩ := h
      exact .inr (.inr (by simp [List.getLast?_cons]))
    · exact .inl (h.not_mem hs hq (.inr rfl))

theorem getLast?_valueText {v : String} {k : Kind} (h : k.Language v.toList) :
    (valueText v).toList.getLast? ≠ some ':' := by
  have hlast : v.toList.getLast? ≠ some ':' := by
    intro he
    obtain hm | hm | hm := h.colon
    · exact hm (List.mem_of_getLast? he)
    · simp [he] at hm
    · simp [he] at hm
  unfold valueText
  split
  · decide
  · split
    · decide
    · split
      · next hsuffix =>
        -- what ends with a letter has no colon in it
        intro he
        rw [String.toList_ofList] at he
        have hcolon := List.dropLast_subset _ (List.mem_of_getLast? he)
        obtain hm | hm | hm := h.colon
        · exact hm hcolon
        · simp [hm] at hsuffix
        · simp [hm] at hsuffix
      · exact hlast

/-- The text is one of the kind, and has no line feed if `flat`. -/
structure Lexeme.Written (flat : Prop) (l : Lexeme) : Prop where
  language : l.kind.Language l.text.toList
  oneRow : flat → '\n' ∉ l.text.toList

namespace Lexeme.Written

variable {flat : Prop}

theorem newline_not_mem {l : Lexeme} (h : l.Written flat)
    (hk : l.kind ≠ .string ∧ l.kind ≠ .charLiteral) : '\n' ∉ l.text.toList :=
  h.language.not_mem hk.1 hk.2 (.inl rfl)

theorem newline_not_mem_name {n : String} (h : (name n).Written flat) : '\n' ∉ n.toList :=
  h.newline_not_mem (by simp)

/-- A name starts with a character that is not blank. -/
theorem start_name {n : String} (h : (name n).Written flat) :
    ∃ c cs, n.toList = c :: cs ∧ isBlank c = false := by
  have hname : isIdentifier n.toList = true := h.language
  cases hchars : n.toList with
  | nil =>
    rw [hchars] at hname
    cases hname
  | cons c cs =>
    rw [hchars] at hname
    have hpart := isIdentifierPart_of_mem hname c (by simp)
    exact ⟨c, cs, rfl, not_isBlank_of_isIdentifierPart hpart⟩

end Lexeme.Written

/-! ## Lines of what was read -/

variable {flat : Prop}

theorem fits_print {v : Lexeme} (hv : v.Written flat) :
    (Line.plain ("print(" ++ v.text ++ ")")).Fits flat := by
  apply Line.Fits.plain
  · exact ⟨'p', "rint(".toList ++ (v.text.toList ++ [')']), by simp, by decide⟩
  · rw [String.toList_append, List.getLast?_append]
    simp
  · intro h
    simp [hv.oneRow h]

/-- A line that starts with a name. -/
theorem fits_named {n rest : String} (hn : (name n).Written flat)
    (hlast : (n ++ rest).toList.getLast? ≠ some ':') (hrest : flat → '\n' ∉ rest.toList) :
    (Line.plain (n ++ rest)).Fits flat := by
  obtain ⟨c, cs, hchars, hc⟩ := hn.start_name
  apply Line.Fits.plain
  · exact ⟨c, cs ++ rest.toList, by simp [hchars], hc⟩
  · exact hlast
  · intro h
    simp [hn.newline_not_mem_name, hrest h]

theorem fits_binding {n : String} (hn : (name n).Written flat) {v : Lexeme}
    (hv : v.Written flat) (type : String) :
    (Line.plain (Binding.line ⟨n, v.text, type⟩)).Fits flat := by
  have hline : Binding.line ⟨n, v.text, type⟩ = n ++ (" = " ++ valueText v.text) := by
    simp [Binding.line, String.append_assoc]
  have hlast := getLast?_valueText hv.language
  rw [hline]
  apply fits_named hn
  · intro he
    simp only [String.toList_append, List.getLast?_append] at he
    cases hvalue : (valueText v.text).toList.getLast? with
    | none => simp [hvalue] at he
    | some d =>
      rw [hvalue] at he hlast
      exact hlast he
  · intro h
    simp [newline_not_mem_valueText (hv.oneRow h)]

theorem fits_step {n : String} (hn : (name n).Written flat) (d : Direction) :
    (Line.plain (Step.line ⟨n, d⟩)).Fits flat := by
  cases d with
  | up => exact fits_named hn (by simp [List.getLast?_append]) fun _ => by decide
  | down => exact fits_named hn (by simp [List.getLast?_append]) fun _ => by decide

mutual

theorem Condition.SpelledTerm.flat_texts : ∀ {c : Condition} {us : List Lexeme},
    c.SpelledTerm us → (∀ u ∈ us, u.Written flat) → Flat c.texts
  | _, _, .name n, h => by
    have hn := (h (name n) (by simp)).newline_not_mem_name
    simp [Flat, Condition.texts, hn]
  | _, _, .compare n (k := k) (v := v) hk hv, h => by
    have hsigns : ∀ k ∈ Kind.comparisons, k ≠ .string ∧ k ≠ .charLiteral := by decide
    have hoperands : ∀ k ∈ Kind.operands, k ≠ .string ∧ k ≠ .charLiteral := by decide
    have hn := (h (name n) (by simp)).newline_not_mem_name
    have hsign := (h (sign k) (by simp)).newline_not_mem (hsigns k hk)
    have hoperand := (h v (by simp)).newline_not_mem (hoperands _ hv)
    simp [Flat, Condition.texts, hn, hsign, hoperand]
  | _, _, .truth (k := k) hk, h => by
    have htruths : ∀ k ∈ Kind.truths, k ≠ .string ∧ k ≠ .charLiteral := by decide
    have hsign := (h (sign k) (by simp)).newline_not_mem (htruths k hk)
    simp [Flat, Condition.texts, hsign]
  | _, _, .group hc, h => hc.flat_texts fun u hu => h u (by simp [hu])

/-- The texts of a condition have no line feeds: there are no quotes in it. -/
theorem Condition.Spelled.flat_texts : ∀ {c : Condition} {us : List Lexeme},
    c.Spelled us → (∀ u ∈ us, u.Written flat) → Flat c.texts
  | _, _, .term hc, h => hc.flat_texts h
  | _, _, .join (k := k) hk hl hr, h => by
    have hsigns : ∀ k ∈ Kind.connectives, k ≠ .string ∧ k ≠ .charLiteral := by decide
    have hsign := (h (sign k) (by simp)).newline_not_mem (hsigns k hk)
    have hleft := hl.flat_texts fun u hu => h u (by simp [hu])
    have hright := hr.flat_texts fun u hu => h u (by simp [hu])
    intro t ht
    simp only [Condition.texts, List.mem_cons, List.mem_append] at ht
    obtain rfl | ht | ht := ht
    · exact hsign
    · exact hleft t ht
    · exact hright t ht

end

theorem Condition.Spelled.newline_not_mem {c : Condition} {us : List Lexeme} (h : c.Spelled us)
    (hu : ∀ u ∈ us, u.Written flat) : '\n' ∉ c.text.toList :=
  newline_not_mem_text (h.flat_texts hu)

theorem SpelledCondition.newline_not_mem {c : Option Condition} {us : List Lexeme}
    (h : SpelledCondition c us) (hu : ∀ u ∈ us, u.Written flat) :
    '\n' ∉ ((c.map Condition.text).getD "True").toList := by
  cases h with
  | absent => decide
  | present hc => exact hc.newline_not_mem hu

/-- The line of the first binding of a counting loop fits, and its name has no line feed. -/
theorem SpelledFirst.fits {b : Binding} {us : List Lexeme}
    (h : SpelledFirst .full (some b) us) (hu : ∀ u ∈ us, u.Written flat) :
    (Line.plain b.line).Fits flat ∧ '\n' ∉ b.name.toList := by
  cases h with
  | typed hk n hv =>
    have hn := hu (name n) (by simp)
    exact ⟨fits_binding hn (hu _ (by simp)) _, hn.newline_not_mem_name⟩
  | untyped n hv =>
    have hn := hu (name n) (by simp)
    exact ⟨fits_binding hn (hu _ (by simp)) _, hn.newline_not_mem_name⟩

theorem SpelledUpdate.fits {u : Step} {us : List Lexeme} (h : SpelledUpdate (some u) us)
    (hu : ∀ u ∈ us, u.Written flat) : (Line.plain u.line).Fits flat := by
  cases h with
  | present n d => exact fits_step (hu (name n) (by simp)) d

/-- All lines fit, if there are lines. -/
def Fitted (flat : Prop) (ls : Except RenderError (List Line)) : Prop :=
  ∀ l, ls = .ok l → ∀ k ∈ l, k.Fits flat

namespace Fitted

variable {a b : Except RenderError (List Line)}

theorem nil : Fitted flat (.ok []) := by
  intro l hl k hk
  cases hl
  cases hk

theorem line {l : Line} (h : l.Fits flat) : Fitted flat (.ok [l]) := by
  intro ls hls k hk
  cases hls
  rw [List.mem_singleton] at hk
  rw [hk]
  exact h

theorem optional {t : Option String} (h : ∀ l ∈ t, (Line.plain l).Fits flat) :
    Fitted flat (.ok (optionalLines t)) := by
  cases t with
  | none => exact nil
  | some t => exact line (h t rfl)

theorem append (ha : Fitted flat a) (hb : Fitted flat b) :
    Fitted flat (do let ls ← a; let ks ← b; return ls ++ ks) := by
  intro l hl k hk
  obtain ⟨ls, hls, hl⟩ := exists_of_bind hl
  obtain ⟨ks, hks, hl⟩ := exists_of_bind hl
  cases hl
  obtain hk | hk := List.mem_append.1 hk
  · exact ha ls hls k hk
  · exact hb ks hks k hk

theorem block {head : String} (hhead : (Line.head head).Fits flat) (ha : Fitted flat a)
    (hb : Fitted flat b) : Fitted flat (outlineBlock head a b) := by
  intro l hl k hk
  obtain ⟨ls, hls, hl⟩ := exists_of_bind hl
  obtain ⟨ks, hks, hl⟩ := exists_of_bind hl
  cases hl
  rw [List.mem_cons, List.mem_append, List.mem_map] at hk
  obtain rfl | ⟨m, hm, rfl⟩ | hk := hk
  · exact hhead
  · exact (ha ls hls m hm).sink 1
  · exact hb ks hks k hk

theorem count {first : Option Binding} {c : Option Condition} {update : Option Step}
    {fs us xs : List Lexeme} (hf : SpelledFirst .full first fs) (hc : SpelledCondition c us)
    (hu : SpelledUpdate update xs) (hfs : ∀ u ∈ fs, u.Written flat)
    (hus : ∀ u ∈ us, u.Written flat) (hxs : ∀ u ∈ xs, u.Written flat) (ha : Fitted flat a) :
    Fitted flat (outlineCount (Head.mk first c update).rangeLine? first c update a) := by
  cases hrange : (Head.mk first c update).rangeLine? with
  | error e =>
    intro l hl
    cases hl
  | ok range =>
    cases range with
    | some head =>
      have hname : ∀ b ∈ first, '\n' ∉ b.name.toList := by
        intro b hb
        obtain rfl : first = some b := hb
        exact (hf.fits hfs).2
      have hline := Head.rangeLine?_isLine hname hrange
      obtain ⟨l, arguments, -, -, rfl⟩ := Head.exists_of_rangeLine? hrange
      have hparts : "for " ++ l.counter ++ " in range(" ++ arguments ++ "):" =
          "for " ++ (l.counter ++ " in range(" ++ arguments ++ ")") ++ ":" := by
        simp [String.append_assoc]
      rw [hparts] at hline ⊢
      have hrest : '\n' ∉ (l.counter ++ " in range(" ++ arguments ++ ")").toList := by
        intro hm
        apply hline.flat
        rw [String.toList_append, String.toList_append]
        exact List.mem_append_left _ (List.mem_append_right _ hm)
      exact ha.block (.head (by decide) hrest) nil
    | none =>
      have hinit : ∀ l ∈ first.map Binding.line, (Line.plain l).Fits flat := by
        intro l hl
        obtain ⟨b, rfl, rfl⟩ := Option.map_eq_some_iff.1 hl
        exact (hf.fits hfs).1
      have hlast : ∀ l ∈ update.map Step.line, (Line.plain l).Fits flat := by
        intro l hl
        obtain ⟨u, rfl, rfl⟩ := Option.map_eq_some_iff.1 hl
        exact hu.fits hxs
      have hrounds := ha.append (optional hlast)
      exact (optional hinit).append
        (hrounds.block (.head (by decide) (hc.newline_not_mem hus)) nil)

end Fitted

mutual

/-- The lines of a statement that was read fit. -/
theorem Statement.Spelled.fitted : ∀ {s : Statement} {us : List Lexeme},
    s.Spelled .full us → (∀ u ∈ us, u.Written flat) → Fitted flat s.outline
  | _, _, .print hm hv, h => .line (fits_print (h _ (by simp)))
  | _, _, .declare hk n hv, h => .line (fits_binding (h (name n) (by simp)) (h _ (by simp)) _)
  | _, _, .step n d, h => .line (fits_step (h (name n) (by simp)) d)
  | _, _, .branch hc hb ho, h => by
    have hhead := hc.newline_not_mem fun u hu => h u (by simp [guarded, hu])
    have hbody := hb.fitted fun u hu => h u (by simp [guarded, braced, hu])
    have hrest := ho.fitted fun u hu => h u (by simp [hu])
    exact hbody.block (.head (by decide) hhead) hrest
  | _, _, .repeatWhile hc hb, h => by
    have hhead := hc.newline_not_mem fun u hu => h u (by simp [guarded, hu])
    have hbody := hb.fitted fun u hu => h u (by simp [guarded, braced, hu])
    exact hbody.block (.head (by decide) hhead) .nil
  | _, _, .count hf hc hu hb, h => by
    have hbody := hb.fitted fun u hu => h u (by simp [braced, hu])
    exact .count hf hc hu (fun u hu => h u (by simp [hu])) (fun u hu => h u (by simp [hu]))
      (fun u hu => h u (by simp [hu])) hbody

/-- The lines after the body of a branch that was read fit. -/
theorem Otherwise.Spelled.fitted : ∀ {o : Otherwise} {us : List Lexeme},
    o.Spelled .full us → (∀ u ∈ us, u.Written flat) → Fitted flat o.outline
  | _, _, .nothing, _ => .nil
  | _, _, .elseIf hc hb ho, h => by
    have hhead := hc.newline_not_mem fun u hu => h u (by simp [guarded, hu])
    have hbody := hb.fitted fun u hu => h u (by simp [guarded, braced, hu])
    have hrest := ho.fitted fun u hu => h u (by simp [hu])
    exact hbody.block (.head (by decide) hhead) hrest
  | .elseDo [], _, .elseDo _, _ => .nil
  | .elseDo (_ :: _), _, .elseDo hb, h => by
    have hbody := hb.fitted fun u hu => h u (by simp [braced, hu])
    exact hbody.block .lastHead .nil

/-- The lines of a body that was read fit. -/
theorem SpelledBody.fitted : ∀ {top after behind : Bool} {ss : List Statement}
    {us : List Lexeme}, SpelledBody .full top after behind ss us →
      (∀ u ∈ us, u.Written flat) → Fitted flat (Statement.listOutline ss)
  | _, _, _, _, _, .nil, _ => .nil
  | _, _, _, _, _, .cons hs hb, h => by
    have hfirst := hs.fitted fun u hu => h u (by simp [hu])
    have hrest := hb.fitted fun u hu => h u (by simp [hu])
    exact hfirst.append hrest
  | _, _, _, _, _, .unknown hj hb, h => hb.fitted fun u hu => h u (by simp [hu])

end

/-! ## Conversion -/

/-- All tokens of a text but the end are texts of their kinds. -/
theorem language_tokenize {s : String} {ts : List Token} (h : tokenize s = .ok ts) :
    ∃ us m, ts = us ++ [Token.eof m] ∧ ∀ t ∈ us, t.kind.Language t.text.toList := by
  have hmade : Rule.Makes s.toList fun t => t.kind.Language t.text.toList := by
    intro before offset k n hf
    have hm : k.munch? before (s.toList.drop offset) = some n := Rule.first?_munch hf
    rw [String.toList_ofList]
    exact Kind.language_of_munch? hm
  exact tokenize_induction hmade h

/-- The lines of a program in a text fit. -/
theorem fits_parse {s : String} {ts : List Token} (ht : tokenize s = .ok ts) {p : Program}
    (hp : parse ts = .ok p) (hflat : flat → ∀ t ∈ ts, '\n' ∉ t.text.toList) :
    Fitted flat p.outline := by
  obtain ⟨behind, us, js, hl, hb, -⟩ := (Grammar.parse_eq_ok_iff (closed_tokenize ht)).1 hp
  obtain ⟨vs, m, rfl, hlanguage⟩ := language_tokenize ht
  have hsplit : vs.map Token.lexeme = us ++ js := by
    rw [List.map_append, ← List.append_assoc] at hl
    exact List.append_inj_left' hl rfl
  apply hb.fitted
  intro u hu
  have hmem : u ∈ vs.map Token.lexeme := by simp [hsplit, hu]
  obtain ⟨t, htv, rfl⟩ := List.mem_map.1 hmem
  constructor
  · exact hlanguage t htv
  · intro h
    exact hflat h t (by simp [htv])

/-- The text for a source consists of the rows of the program that is read from it. Each row that
heads a block is directly followed by a row that is not blank and is indented by four more spaces,
exactly if no block of the program is empty. If no token has a line feed in it, the rows that
head a block are those that look like it. -/
theorem convert_blocks_iff {s q : String} (h : convert s = .ok q) :
    ∃ ts p rows, tokenize s = .ok ts ∧ parse ts = .ok p ∧ p.rows = .ok rows ∧
      Text.lines q.toList = rows.map Row.chars ++ [[]] ∧
      (rowsBlocked rows = true ↔ p.isFilled = true) ∧
      ((∀ t ∈ ts, '\n' ∉ t.text.toList) → ∀ r ∈ rows, r.isHead = looksLikeHead r.chars) := by
  obtain ⟨ls, ss, hl, ha, hr⟩ := convert_eq_ok_iff.1 h
  obtain ⟨ts, ht, rfl⟩ := lexemesOf?_eq_some_iff.1 hl
  have hp := (Grammar.parse_eq_ok_iff (closed_tokenize ht)).2 ha
  rw [Program.render_eq] at hr
  cases houtline : (⟨ss⟩ : Program).outline with
  | error e =>
    rw [houtline] at hr
    cases hr
  | ok ks =>
    rw [houtline] at hr
    cases hr
    have hrows : (⟨ss⟩ : Program).rows = .ok (rowsOf ks) := by
      rw [Program.rows, houtline]
      rfl
    have hblocked : rowsBlocked (rowsOf ks) = (⟨ss⟩ : Program).isFilled := by
      have hfitted : Fitted False (⟨ss⟩ : Program).outline := fits_parse ht hp False.elim
      rw [rowsBlocked_rowsOf (hfitted ks houtline), Program.blocked_outline houtline]
    refine ⟨ts, ⟨ss⟩, rowsOf ks, ht, hp, hrows, lines_writeLines ks, by rw [hblocked], ?_⟩
    intro hflat
    have hfitted : Fitted True (⟨ss⟩ : Program).outline := fits_parse ht hp fun _ => hflat
    exact looksLikeHead_rowsOf (hfitted ks houtline)

/-- A branch with an empty body: a head, and no block below it. -/
theorem convert_blocks_empty : convert "if (a) \x7b \x7d" = .ok "if a:\n" ∧
    ∃ ts p rows, tokenize "if (a) \x7b \x7d" = .ok ts ∧ parse ts = .ok p ∧ p.rows = .ok rows ∧
      rows.map Row.chars = ["if a:".toList] ∧ p.isFilled = false ∧ rowsBlocked rows = false := by
  have hlexemes : lexemesOf? none "if (a) \x7b \x7d".toList =
      some [sign .ifKeyword, sign .leftParen, name "a", sign .rightParen, sign .leftBrace,
        sign .rightBrace, eof] :=
    lexemesOf?_token (u := ['i', 'f']) (t := " (a) \x7b \x7d".toList) (by decide +kernel) <|
    lexemesOf?_gap (u := [' ']) (t := "(a) \x7b \x7d".toList) (g := .layout) (by decide +kernel) <|
    lexemesOf?_token (u := ['(']) (t := "a) \x7b \x7d".toList) (by decide +kernel) <|
    lexemesOf?_token (u := ['a']) (t := ") \x7b \x7d".toList) (by decide +kernel) <|
    lexemesOf?_token (u := [')']) (t := " \x7b \x7d".toList) (by decide +kernel) <|
    lexemesOf?_gap (u := [' ']) (t := "\x7b \x7d".toList) (g := .layout) (by decide +kernel) <|
    lexemesOf?_token (u := ['\x7b']) (t := " \x7d".toList) (by decide +kernel) <|
    lexemesOf?_gap (u := [' ']) (t := "\x7d".toList) (g := .layout) (by decide +kernel) <|
    lexemesOf?_token (u := ['\x7d']) (t := []) (by decide +kernel) <| lexemesOf?_nil _
  have hbody : SpelledBody .full true false true [.branch (.test "a" "" "") [] .nothing]
      [sign .ifKeyword, sign .leftParen, name "a", sign .rightParen, sign .leftBrace,
        sign .rightBrace] := .cons (.branch (.term (.name "a")) .nil .nothing) .nil
  have haccepted : Grammar.Accepted _ [.branch (.test "a" "" "") [] .nothing] :=
    ⟨true, _, [], rfl, hbody, Grammar.passable_nil _ _⟩
  have hconvert : convert "if (a) \x7b \x7d" = .ok "if a:\n" :=
    convert_eq_ok_iff.2 ⟨_, _, hlexemes, haccepted, rfl⟩
  obtain ⟨ts, p, rows, ht, hp, hrows, hlines, hblocked, -⟩ := convert_blocks_iff hconvert
  obtain ⟨us, hu, hmap⟩ := lexemesOf?_eq_some_iff.1 hlexemes
  obtain rfl : ts = us := Except.ok.inj (ht.symm.trans hu)
  have hread : parse ts = .ok ⟨[.branch (.test "a" "" "") [] .nothing]⟩ := by
    rw [Grammar.parse_eq_ok_iff (closed_tokenize ht), hmap]
    exact haccepted
  obtain rfl := Except.ok.inj (hread.symm.trans hp)
  have hchars : rows.map Row.chars = ["if a:".toList] := List.append_inj_left' hlines.symm rfl
  have hunfilled : rowsBlocked rows = false := by
    rw [← Bool.not_eq_true, hblocked]
    decide
  exact ⟨hconvert, ts, _, rows, ht, hread, hrows, hchars, rfl, hunfilled⟩

end Offside
