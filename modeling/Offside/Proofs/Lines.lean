import Offside.Text.Lines

/-!
# Indentation line by line

Indenting a text treats each of its lines on its own, whatever the others are
(`indentChars_line`, `indentChars_last`). What holds of all texts is therefore proved by
induction on their lines (`line_induction`): levels add up, and a text that ends with a line
feed, or is empty, is indented apart from what follows it. Nothing is lost: a text is got back
from the indented one if as many characters are taken off each line that is not blank
(`outdent`).
-/

namespace Offside.Text

/-! ## Texts as lines -/

theorem lines_last {l : List Char} (hl : '\n' ∉ l) : lines l = [l] := by
  induction l with
  | nil => rfl
  | cons c l ih =>
    have hc : c ≠ '\n' := fun he => hl (by simp [he])
    have htail : '\n' ∉ l := fun hm => hl (by simp [hm])
    simp [lines, hc, ih htail]

theorem lines_line {l : List Char} (hl : '\n' ∉ l) (cs : List Char) :
    lines (l ++ '\n' :: cs) = l :: lines cs := by
  induction l with
  | nil => simp [lines]
  | cons c l ih =>
    have hc : c ≠ '\n' := fun he => hl (by simp [he])
    have htail : '\n' ∉ l := fun hm => hl (by simp [hm])
    simp [lines, hc, ih htail]

/-- A text is a line without a line feed, or one with a line feed before another text. -/
@[elab_as_elim]
theorem line_induction {P : List Char → Prop} (cs : List Char)
    (last : ∀ l, '\n' ∉ l → P l) (line : ∀ l cs, '\n' ∉ l → P cs → P (l ++ '\n' :: cs)) :
    P cs := by
  induction hn : cs.length using Nat.strongRecOn generalizing cs with
  | ind n ih =>
    subst hn
    by_cases hmem : '\n' ∈ cs
    · obtain ⟨l, ds, rfl, hl⟩ := List.eq_append_cons_of_mem hmem
      exact line l ds hl (ih ds.length (by simp; omega) ds rfl)
    · exact last cs hmem

/-! ## One line -/

@[simp] theorem isBlankText_nil : isBlankText [] = true := rfl

theorem isBlankText_append (as bs : List Char) :
    isBlankText (as ++ bs) = (isBlankText as && isBlankText bs) := List.all_append

theorem isBlankText_spaces (n : Nat) : isBlankText (List.replicate n ' ') = true := by
  have hspace : isBlank ' ' = true := by decide
  simp [isBlankText, hspace]

/-- A line with a character that is not white space is not blank. -/
theorem isBlankText_of_mem {c : Char} {l : List Char} (hm : c ∈ l) (hc : isBlank c = false) :
    isBlankText l = false := by
  rw [isBlankText, List.all_eq_false]
  exact ⟨c, hm, by simp [hc]⟩

theorem newline_not_mem_indentLine {l : List Char} (hl : '\n' ∉ l) (n : Nat) :
    '\n' ∉ indentLine n l := by
  unfold indentLine
  split
  · exact hl
  · simp [hl]

theorem isBlankText_indentLine (n : Nat) (l : List Char) :
    isBlankText (indentLine n l) = isBlankText l := by
  unfold indentLine
  split
  · rfl
  · rw [isBlankText_append, isBlankText_spaces, Bool.true_and]

theorem indentLine_indentLine (a b : Nat) (l : List Char) :
    indentLine b (indentLine a l) = indentLine (a + b) l := by
  have hmoved := isBlankText_indentLine a l
  by_cases hblank : isBlankText l = true
  · simp [indentLine, hblank]
  · have hwidth : indentWidth * (a + b) = indentWidth * b + indentWidth * a := by
      rw [Nat.mul_add, Nat.add_comm]
    rw [indentLine, hmoved]
    simp [indentLine, hblank, hwidth, ← List.replicate_append_replicate]

theorem indentLine_zero (l : List Char) : indentLine 0 l = l := by
  simp [indentLine]

/-! ## Whole texts -/

theorem indentChars_last (n : Nat) {l : List Char} (hl : '\n' ∉ l) :
    indentChars n l = indentLine n l := by
  simp [indentChars, lines_last hl, unlines]

/-- A line is indented apart from all that follows it. -/
theorem indentChars_line (n : Nat) {l : List Char} (hl : '\n' ∉ l) (cs : List Char) :
    indentChars n (l ++ '\n' :: cs) = indentLine n l ++ '\n' :: indentChars n cs := by
  obtain ⟨m, ms, hm⟩ := List.exists_cons_of_ne_nil (lines_ne_nil cs)
  simp [indentChars, lines_line hl, hm, unlines]

@[simp] theorem indentChars_nil (n : Nat) : indentChars n [] = [] := by
  simp [indentChars, lines, unlines, indentLine]

theorem indentChars_zero (cs : List Char) : indentChars 0 cs = cs := by
  induction cs using line_induction with
  | last l hl => rw [indentChars_last 0 hl, indentLine_zero]
  | line l cs hl ih => rw [indentChars_line 0 hl, indentLine_zero, ih]

/-- Levels add up. -/
theorem indentChars_indentChars (a b : Nat) (cs : List Char) :
    indentChars b (indentChars a cs) = indentChars (a + b) cs := by
  induction cs using line_induction with
  | last l hl =>
    rw [indentChars_last a hl, indentChars_last b (newline_not_mem_indentLine hl a),
      indentLine_indentLine, indentChars_last _ hl]
  | line l cs hl ih =>
    rw [indentChars_line a hl, indentChars_line b (newline_not_mem_indentLine hl a),
      indentLine_indentLine, ih, indentChars_line _ hl]

/-- A line feed ends a line, whatever lines stand before it. -/
theorem lines_feed (cs ds : List Char) : lines (cs ++ '\n' :: ds) = lines cs ++ lines ds := by
  induction cs using line_induction with
  | last l hl => rw [lines_line hl, lines_last hl, List.singleton_append]
  | line l cs hl ih =>
    rw [List.append_assoc, List.cons_append, lines_line hl, lines_line hl, ih, List.cons_append]

theorem indentChars_feed (n : Nat) (cs ds : List Char) :
    indentChars n (cs ++ '\n' :: ds) = indentChars n cs ++ '\n' :: indentChars n ds := by
  induction cs using line_induction with
  | last l hl => rw [indentChars_line n hl, indentChars_last n hl]
  | line l cs hl ih =>
    rw [List.append_assoc, List.cons_append, indentChars_line n hl, indentChars_line n hl, ih,
      List.append_assoc, List.cons_append]

/-- The text is empty or ends with a line feed. -/
def EndsLine (cs : List Char) : Prop := cs = [] ∨ cs.getLast? = some '\n'

theorem endsLine_last {l : List Char} (hl : '\n' ∉ l) : EndsLine l ↔ l = [] := by
  constructor
  · intro h
    obtain h | h := h
    · exact h
    · exact absurd (List.mem_of_getLast? h) hl
  · exact .inl

theorem endsLine_line (l cs : List Char) : EndsLine (l ++ '\n' :: cs) ↔ EndsLine cs := by
  cases cs with
  | nil => simp [EndsLine]
  | cons c cs => simp [EndsLine, List.getLast?_append, List.getLast?_cons_cons]

theorem EndsLine.append {as bs : List Char} (ha : EndsLine as) (hb : EndsLine bs) :
    EndsLine (as ++ bs) := by
  obtain rfl | hb := hb
  · rwa [List.append_nil]
  · exact .inr (by simp [List.getLast?_append, hb])

theorem EndsLine.indentChars {cs : List Char} (h : EndsLine cs) (n : Nat) :
    EndsLine (indentChars n cs) := by
  induction cs using line_induction with
  | last l hl =>
    obtain rfl := (endsLine_last hl).1 h
    exact .inl (indentChars_nil n)
  | line l cs hl ih =>
    rw [endsLine_line] at h
    rw [indentChars_line n hl, endsLine_line]
    exact ih h

/-- A text of whole lines is indented apart from what follows it. -/
theorem indentChars_append (n : Nat) {as : List Char} (h : EndsLine as) (bs : List Char) :
    indentChars n (as ++ bs) = indentChars n as ++ indentChars n bs := by
  induction as using line_induction with
  | last l hl =>
    obtain rfl := (endsLine_last hl).1 h
    simp
  | line l cs hl ih =>
    rw [endsLine_line] at h
    rw [List.append_assoc, List.cons_append, indentChars_line n hl, indentChars_line n hl, ih h,
      List.append_assoc, List.cons_append]

/-- The lines of an indented text are those of the text, indented one by one. -/
theorem lines_indentChars (n : Nat) (cs : List Char) :
    lines (indentChars n cs) = (lines cs).map (indentLine n) := by
  induction cs using line_induction with
  | last l hl =>
    simp [indentChars_last n hl, lines_last hl, lines_last (newline_not_mem_indentLine hl n)]
  | line l cs hl ih =>
    simp [indentChars_line n hl, lines_line hl, lines_line (newline_not_mem_indentLine hl n), ih]

/-! ## Indentation taken away -/

/-- One line without its first characters, unless it is blank. -/
def outdentLine (width : Nat) (l : List Char) : List Char :=
  if isBlankText l then l else l.drop width

/-- Every line of a text without its first `width` characters; blank lines stay as they are. -/
def outdent (width : Nat) (s : String) : String :=
  String.ofList (unlines ((lines s.toList).map (outdentLine width)))

theorem outdentLine_indentLine (n : Nat) (l : List Char) :
    outdentLine (indentWidth * n) (indentLine n l) = l := by
  rw [outdentLine, isBlankText_indentLine]
  split
  · next hblank => simp [indentLine, hblank]
  · next hblank =>
    have hspaces : (List.replicate (indentWidth * n) ' ').length = indentWidth * n :=
      List.length_replicate
    rw [indentLine, if_neg hblank, List.drop_left' hspaces]

/-! ## Laws -/

theorem indent_indent (a b : Nat) (s : String) : indent b (indent a s) = indent (a + b) s := by
  simp [indent, indentChars_indentChars]

theorem indent_append (n : Nat) {s : String} (hs : EndsLine s.toList) (t : String) :
    indent n (s ++ t) = indent n s ++ indent n t := by
  simp [indent, indentChars_append n hs, String.ofList_append]

theorem outdent_indent (n : Nat) (s : String) : outdent (indentWidth * n) (indent n s) = s := by
  simp [outdent, indent, lines_indentChars, Function.comp_def, outdentLine_indentLine]

/-- Levels add up, a text that is empty or ends with a line feed is indented apart from what
follows it, and an indented text without the first four characters for each level in every line
that is not blank is the text again. -/
theorem indentBy_laws (s t : String) {a b : Int} (ha : 0 ≤ a) (hb : 0 ≤ b) :
    indentBy b (indentBy a s) = indentBy (a + b) s ∧
    (s = "" ∨ s.toList.getLast? = some '\n' →
      indentBy a (s ++ t) = indentBy a s ++ indentBy a t) ∧
    outdent (4 * a).toNat (indentBy a s) = s := by
  have hsum : (a + b).toNat = a.toNat + b.toNat := by omega
  have hwidth : (4 * a).toNat = indentWidth * a.toNat := by
    rw [indentWidth]
    omega
  unfold indentBy
  refine ⟨?_, ?_, ?_⟩
  · rw [hsum, indent_indent]
  · intro hs
    have hends : EndsLine s.toList := by
      rwa [EndsLine, String.toList_eq_nil_iff]
    exact indent_append a.toNat hends t
  · rw [hwidth, outdent_indent]

/-- Two levels and one more, on a text with a line of wide blanks and a line that is indented
already. -/
theorem indentBy_laws_blank_line :
    (0 : Int) ≤ 2 ∧ (0 : Int) ≤ 1 ∧ "a:\n\u2003\n    b\n".toList.getLast? = some '\n' ∧
    indentBy 1 (indentBy 2 "a:\n\u2003\n    b\n") = indentBy 3 "a:\n\u2003\n    b\n" ∧
    indentBy 2 ("a:\n\u2003\n    b\n" ++ "c") =
      indentBy 2 "a:\n\u2003\n    b\n" ++ indentBy 2 "c" ∧
    outdent 8 (indentBy 2 "a:\n\u2003\n    b\n") = "a:\n\u2003\n    b\n" := by
  have hlast : "a:\n\u2003\n    b\n".toList.getLast? = some '\n' := by decide
  obtain ⟨hsum, happend, hback⟩ :=
    indentBy_laws "a:\n\u2003\n    b\n" "c" (a := 2) (b := 1) (by decide) (by decide)
  exact ⟨by decide, by decide, hlast, hsum, happend (.inr hlast), hback⟩

end Offside.Text
