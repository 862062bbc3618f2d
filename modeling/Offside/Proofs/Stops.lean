import Mathlib.Algebra.GroupWithZero.Nat
import Offside.Proofs.Comments
import Offside.Proofs.Lines

/-!
# Where a scan is stopped

A scan is stopped by a character at which no rule matches. The error gives its position, its line
and its column, and these three agree: the line is a line of the text, counted from one, and has
the character in that column (`place_of_char`). All that stands before it was taken as tokens and
gaps.

Few characters can stop a scan (`Stuck`): a double quote that no other one closes, half of a sign
of two characters, and those that nothing starts with. All others start a token or a gap wherever
they stand (`isOpening`).
-/

namespace Offside

/-! ## Lines and columns -/

/-- The position at which a line of a text starts, the lines counted from zero. Every line before
it takes up its own characters and a line feed. -/
def lineStart (source : List Char) (i : Nat) : Nat :=
  (((Text.lines source).take i).map fun l => l.length + 1).sum

/-- The error gives the place of a character of the text, by its position and by its line and
column, which are counted from one. -/
structure ScanError.Points (source : List Char) (e : ScanError) : Prop where
  char_eq : source[e.offset]? = some e.char
  line_pos : 0 < e.line
  column_pos : 0 < e.column
  column_eq : ∃ row, (Text.lines source)[e.line - 1]? = some row ∧ row[e.column - 1]? = some e.char
  offset_eq : lineStart source (e.line - 1) + (e.column - 1) = e.offset

theorem lines_append_last {l : List Char} (hl : '\n' ∉ l) {c : Char} (hc : c ≠ '\n')
    (bs : List Char) : ∃ cs ls, Text.lines (l ++ c :: bs) = (l ++ c :: cs) :: ls := by
  induction l with
  | nil =>
    obtain ⟨cs, ls, hlines⟩ := List.exists_cons_of_ne_nil (Text.lines_ne_nil bs)
    exact ⟨cs, ls, by simp [Text.lines, hc, hlines]⟩
  | cons d l ih =>
    have hd : d ≠ '\n' := fun he => hl (by simp [he])
    obtain ⟨cs, ls, hlines⟩ := ih fun hm => hl (by simp [hm])
    exact ⟨cs, ls, by simp [Text.lines, hd, hlines]⟩

theorem lineStart_line {l : List Char} (hl : '\n' ∉ l) (cs : List Char) (i : Nat) :
    lineStart (l ++ '\n' :: cs) (i + 1) = l.length + 1 + lineStart cs i := by
  simp [lineStart, Text.lines_line hl]

/-- A character that is no line feed stands in the line and column that are counted for it. -/
theorem place_of_char (as : List Char) {c : Char} (hc : c ≠ '\n') (bs : List Char) :
    (∃ row, (Text.lines (as ++ c :: bs))[as.count '\n']? = some row ∧
      row[(as.reverse.takeWhile (· != '\n')).length]? = some c) ∧
    lineStart (as ++ c :: bs) (as.count '\n') + (as.reverse.takeWhile (· != '\n')).length =
      as.length := by
  induction as using Text.line_induction with
  | last l hl =>
    have hcolumn : l.reverse.takeWhile (· != '\n') = l.reverse :=
      List.takeWhile_eq_self_iff.2 (ne_feed_of_mem_reverse hl)
    obtain ⟨cs, ls, hlines⟩ := lines_append_last hl hc bs
    simp [List.count_eq_zero_of_not_mem hl, hcolumn, hlines, lineStart]
  | line l as hl ih =>
    obtain ⟨hrow, hstart⟩ := ih
    have hcolumn : (l ++ '\n' :: as).reverse.takeWhile (· != '\n') =
        as.reverse.takeWhile (· != '\n') := by
      rw [List.reverse_append, List.reverse_cons, List.append_assoc, List.singleton_append]
      exact takeWhile_seam (by decide) _ _
    have hcount : (l ++ '\n' :: as).count '\n' = as.count '\n' + 1 := by
      simp [List.count_eq_zero_of_not_mem hl]
    rw [hcolumn, hcount, List.append_assoc, List.cons_append]
    constructor
    · rw [Text.lines_line hl, List.getElem?_cons_succ]
      exact hrow
    · rw [lineStart_line hl, List.length_append, List.length_cons]
      omega

/-! ## Characters -/

/-- The signs that stand for themselves, alone or before others. -/
def loneSigns : List Char :=
  ['\x27', '+', '-', '*', '/', '%', '=', '<', '>', '\x7b', '\x7d', '(', ')', '[', ']', ';',
    ',', '.']

/-- The character starts a token or a gap wherever it stands. -/
def isOpening (c : Char) : Bool :=
  isIdentifierStart c || Text.isDecimal c || Gap.isLayout c || loneSigns.contains c

/-- The character cannot start a token or a gap before the text `t`. -/
inductive Stuck : Char → List Char → Prop
  /-- A double quote that starts no string literal. -/
  | quote {t : List Char} (h : ∀ body rest, StringBody body → t ≠ body ++ '\x22' :: rest) :
      Stuck '\x22' t
  | loneAnd {t : List Char} (h : t.head? ≠ some '&') : Stuck '&' t
  | loneOr {t : List Char} (h : t.head? ≠ some '|') : Stuck '|' t
  | loneNot {t : List Char} (h : t.head? ≠ some '=') : Stuck '!' t
  /-- A character that no token and no gap starts with. -/
  | foreign {c : Char} {t : List Char} (hc : isOpening c = false)
      (hk : ∀ (k : Kind) (u : List Char), ¬ k.Language (c :: u))
      (hg : ∀ (g : Gap) (b : Option Char) (u : List Char) (e : Option Char),
        ¬ g.Stands b (c :: u) e) : Stuck c t

/-- The first characters of signs that are no signs of their own. -/
def halves : List Char := ['&', '|', '!']

/-- A token starts with an opening character, a double quote or half a sign. -/
theorem Kind.isOpening_of_language {k : Kind} {c : Char} {u : List Char}
    (h : k.Language (c :: u)) : isOpening c = true ∨ c = '\x22' ∨ c ∈ halves := by
  have hsigns : Kind.all.all (fun k => k.spelling?.all fun w => w.toList.head?.all fun d =>
      isOpening d || halves.contains d) = true := by decide
  have hopens := Kind.opens_of_language h
  unfold Kind.Language at h
  split at h
  · exact .inr (.inl (beq_iff_eq.1 hopens))
  · left
    rw [beq_iff_eq.1 hopens]
    decide
  · left
    rw [isOpening, show isIdentifierStart c = true from hopens]
    simp
  · left
    rw [isOpening, show Text.isDecimal c = true from hopens]
    simp
  · left
    rw [isOpening, show Text.isDecimal c = true from hopens]
    simp
  · have hsign := List.all_eq_true.1 hsigns _ (Kind.mem_all_of_spelling? h)
    rw [h, Option.all_some, String.toList_ofList, List.head?_cons, Option.all_some,
      Bool.or_eq_true, List.contains_iff_mem] at hsign
    exact hsign.imp_right .inr

/-- A gap starts with an opening character. -/
theorem Gap.Stands.isOpening {g : Gap} {b e : Option Char} {c : Char} {u : List Char}
    (h : g.Stands b (c :: u) e) : isOpening c = true := by
  have hheader : ∀ ps, PiecesLanguage (.exactly "public" :: ps) (c :: u) → c = 'p' := by
    intro ps hpieces
    generalize hw : c :: u = w at hpieces
    cases hpieces with
    | cons hword _ =>
      rw [show _ = "public".toList from hword] at hw
      exact (List.cons.inj hw).1
  cases g with
  | layout =>
    have hlayout : Gap.isLayout c = true := h.2.1 c (.head _)
    simp [Offside.isOpening, hlayout]
  | lineComment =>
    obtain ⟨cs, he, -⟩ := h
    obtain ⟨rfl, -⟩ := List.cons.inj he
    decide
  | blockComment =>
    obtain ⟨cs, he, -⟩ := h
    obtain ⟨rfl, -⟩ := List.cons.inj he
    decide
  | classHeader =>
    rw [hheader _ h.2]
    decide
  | mainHeader =>
    rw [hheader _ h.2]
    decide

/-! ## Places where no rule matches -/

/-- Where no rule matches, no text stands that a rule is about. -/
theorem Rule.not_stands {b : Option Char} {u t : List Char}
    (h : first? Rule.all b (u ++ t) = none) {r : Rule} (hr : r ∈ Rule.all) :
    ¬ r.Stands b u t.head? := by
  intro hstands
  obtain ⟨m, hm⟩ : ∃ m, r.munch? b (u ++ t) = some m := by
    cases r with
    | token k =>
      obtain ⟨m, hm, -⟩ := Kind.munch?_longest hstands
      exact ⟨m, hm⟩
    | gap g => exact Gap.exists_munch?_of_stands hstands
  obtain ⟨r', n, hf⟩ := exists_first? hr hm
  rw [h] at hf
  cases hf

/-- Where no rule matches, no text of a kind stands that may be touched on both sides. -/
theorem Kind.not_language {b : Option Char} {u t : List Char}
    (h : Rule.first? Rule.all b (u ++ t) = none) {k : Kind} (hk : k ∈ Rule.lateKinds) :
    ¬ k.Language u := by
  have hkinds : ∀ k ∈ Rule.lateKinds, Rule.token k ∈ Rule.all ∧ k ∉ Kind.reserved := by
    decide
  intro hlanguage
  exact Rule.not_stands h (hkinds k hk).1 ⟨hlanguage, fun hreserved =>
    absurd hreserved (hkinds k hk).2⟩

theorem not_isOpening {b : Option Char} {c : Char} {t : List Char}
    (h : Rule.first? Rule.all b (c :: t) = none) : isOpening c = false := by
  have hnot : ∀ {k : Kind}, k ∈ Rule.lateKinds → ¬ k.Language [c] :=
    fun hk => Kind.not_language (u := [c]) h hk
  have hsigns : loneSigns.all (fun d => Rule.signs.any fun k =>
      k.spelling? == some (String.singleton d)) = true := by decide
  rw [← Bool.not_eq_true]
  intro hc
  simp only [isOpening, Bool.or_eq_true] at hc
  obtain ((hc | hc) | hc) | hc := hc
  · exact hnot (k := .identifier) (by decide) (by simp [Kind.Language, isIdentifier, hc])
  · exact hnot (k := .number) (by decide) (.whole ⟨by simp, by simp [hc]⟩)
  · rw [Rule.first?_layout hc] at h
    cases h
  · have hsign := List.all_eq_true.1 hsigns c (List.contains_iff_mem.1 hc)
    obtain ⟨k, hk, hspelled⟩ := List.any_eq_true.1 hsign
    have hlanguage := Kind.language_of_spelling? (beq_iff_eq.1 hspelled)
    exact hnot (List.mem_of_mem_drop hk) (by simpa using hlanguage)

/-- A character at which no rule matches cannot start anything. -/
theorem stuck_of_first? {b : Option Char} {c : Char} {t : List Char}
    (h : Rule.first? Rule.all b (c :: t) = none) : Stuck c t := by
  have hopening := not_isOpening h
  have hpair : ∀ {k : Kind} {d : Char}, k ∈ Rule.lateKinds → k.Language [c, d] →
      t.head? ≠ some d := by
    intro k d hk hlanguage hhead
    obtain ⟨rest, rfl⟩ := List.head?_eq_some_iff.1 hhead
    exact Kind.not_language (u := [c, d]) h hk hlanguage
  by_cases hquote : c = '\x22'
  · subst hquote
    refine .quote fun body rest hbody ht => ?_
    subst ht
    refine Kind.not_language (k := .string) (u := '\x22' :: (body ++ ['\x22'])) (t := rest)
      (b := b) ?_ (by decide) ⟨body, hbody, rfl⟩
    simpa using h
  by_cases hhalf : c ∈ halves
  · simp only [halves, List.mem_cons, List.not_mem_nil, or_false] at hhalf
    obtain rfl | rfl | rfl := hhalf
    · exact .loneAnd (hpair (k := .and) (by decide) rfl)
    · exact .loneOr (hpair (k := .or) (by decide) rfl)
    · exact .loneNot (hpair (k := .neq) (by decide) rfl)
  · refine .foreign hopening (fun k u hlanguage => ?_) fun g b u e hstands => ?_
    · obtain hc | hc | hc := Kind.isOpening_of_language hlanguage
      · rw [hopening] at hc
        cases hc
      · exact hquote hc
      · exact hhalf hc
    · have hc := hstands.isOpening
      rw [hopening] at hc
      cases hc

theorem Stuck.ne_feed {c : Char} {t : List Char} (h : Stuck c t) : c ≠ '\n' := by
  rintro rfl
  cases h with
  | foreign hc _ _ => exact absurd hc (by decide)

/-! ## Errors -/

section Errors

variable {s : String} {e : ScanError}

theorem stuck_of_error (h : (scan s).error = some e) :
    Stuck e.char (s.toList.drop (e.offset + 1)) := by
  obtain ⟨-, hchar, hfirst, -⟩ := stage_of_error (Nat.zero_le _) h
  rw [firstAt, drop_eq_cons hchar] at hfirst
  exact stuck_of_first? hfirst

theorem points_of_error (h : (scan s).error = some e) : e.Points s.toList := by
  obtain ⟨-, hchar, -, hline, hcolumn⟩ := stage_of_error (Nat.zero_le _) h
  obtain ⟨hlt, -⟩ := List.getElem?_eq_some_iff.1 hchar
  obtain ⟨hrow, hstart⟩ := place_of_char (s.toList.take e.offset) (stuck_of_error h).ne_feed
    (s.toList.drop (e.offset + 1))
  rw [← drop_eq_cons hchar, List.take_append_drop] at hrow hstart
  rw [List.length_take_of_le (Nat.le_of_lt hlt)] at hstart
  constructor
  · exact hchar
  · simp [hline, lineAt]
  · simp [hcolumn, columnAt]
  · rw [hline, hcolumn]
    exact hrow
  · rw [hline, hcolumn]
    exact hstart

theorem covered_of_error (h : (scan s).error = some e) :
    Covered s.toList (scan s).tokens e.offset := by
  have hscan : scanFrom Rule.all s.toList (charBefore s.toList 0) 0 (s.toList.drop 0) = scan s :=
    rfl
  obtain ⟨found, htokens, hle, hrounds⟩ := rounds_scanFrom s.toList (Nat.zero_le _)
  simp only [hscan, Scan.stop, Scan.closing, h, List.append_nil] at htokens hle hrounds
  rw [htokens]
  exact hrounds.covered hle

end Errors

/-- The error of a scan points at the character that stops it: position, line and column agree.
All that stands before that character was taken as tokens and gaps. Nothing that a rule is about
stands at its place: it is a double quote that starts no string literal, half a sign, or a
character that nothing starts with. -/
theorem scan_error_place {s : String} {e : ScanError} (h : (scan s).error = some e) :
    e.Points s.toList ∧ Covered s.toList (scan s).tokens e.offset ∧
    (∀ r ∈ Rule.all, ∀ u v, s.toList.drop e.offset = u ++ v →
      ¬ r.Stands (charBefore s.toList e.offset) u v.head?) ∧
    Stuck e.char (s.toList.drop (e.offset + 1)) := by
  refine ⟨points_of_error h, covered_of_error h, ?_, stuck_of_error h⟩
  intro r hr u v huv
  obtain ⟨-, -, hfirst, -⟩ := stage_of_error (Nat.zero_le _) h
  rw [firstAt, huv] at hfirst
  exact Rule.not_stands hfirst hr

/-- A lone sign in the second line, behind a string literal that has a line feed in it. -/
theorem scan_error_place_second_line : ∃ e : ScanError, e = ⟨'&', 2, 4, 6⟩ ∧
    (scan "\x22a\nb\x22 & c").error = some e ∧ e.Points "\x22a\nb\x22 & c".toList ∧
    Covered "\x22a\nb\x22 & c".toList (scan "\x22a\nb\x22 & c").tokens e.offset ∧
    Stuck e.char " c".toList := by
  have herror : (scan "\x22a\nb\x22 & c").error = some ⟨'&', 2, 4, 6⟩ := by
    have hwithin : scanWithin Rule.all "\x22a\nb\x22 & c".toList 9 none 0
        "\x22a\nb\x22 & c".toList = some (scan "\x22a\nb\x22 & c") :=
      scanWithin_eq _ _ (by decide) none 0
    have hvalue : (scanWithin Rule.all "\x22a\nb\x22 & c".toList 9 none 0
        "\x22a\nb\x22 & c".toList).bind Scan.error = some ⟨'&', 2, 4, 6⟩ := by decide +kernel
    rwa [hwithin] at hvalue
  obtain ⟨hpoints, hcovered, -, hstuck⟩ := scan_error_place herror
  exact ⟨_, rfl, herror, hpoints, hcovered, hstuck⟩

end Offside
