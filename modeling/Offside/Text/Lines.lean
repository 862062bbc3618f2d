import Offside.Text.Blank

/-!
# Lines and indentation

A text is a sequence of lines separated by line feeds; no other character
separates lines. Indenting a text moves every line four columns to the right for
each level, except the lines that hold only white space, which stay as they are. This
is `indent_lines`.
-/

namespace Offside.Text

/-- The lines of a text. There is always one line more than there are line feeds. -/
def lines : List Char → List (List Char)
  | [] => [[]]
  | c :: cs =>
    if c = '\n' then [] :: lines cs
    else match lines cs with
      | [] => [[c]]
      | l :: ls => (c :: l) :: ls

/-- Lines put together again, with a line feed between neighbours. -/
def unlines : List (List Char) → List Char
  | [] => []
  | [l] => l
  | l :: ls => l ++ '\n' :: unlines ls

/-- The number of columns of one level (`INDENT`). -/
def indentWidth : Nat := 4

/-- One line moved to the right, unless it is blank. -/
def indentLine (level : Nat) (l : List Char) : List Char :=
  if isBlankText l then l else List.replicate (indentWidth * level) ' ' ++ l

/-- Every line of a text moved to the right. -/
def indentChars (level : Nat) (cs : List Char) : List Char :=
  unlines ((lines cs).map (indentLine level))

/-- Every line of a text moved to the right by `level` levels. -/
def indent (level : Nat) (s : String) : String :=
  String.ofList (indentChars level s.toList)

/-- Indentation by a signed number of levels; a negative number counts as none. -/
def indentBy (level : Int) (s : String) : String := indent level.toNat s

theorem lines_ne_nil (cs : List Char) : lines cs ≠ [] := by
  cases cs with
  | nil => simp [lines]
  | cons c cs =>
    simp only [lines]
    split
    · simp
    · split <;> simp

@[simp] theorem unlines_lines (cs : List Char) : unlines (lines cs) = cs := by
  induction cs with
  | nil => rfl
  | cons c cs ih =>
    obtain ⟨l, ls, h⟩ := List.exists_cons_of_ne_nil (lines_ne_nil cs)
    rw [h] at ih
    by_cases hc : c = '\n'
    · simp [lines, hc, h, unlines, ih]
    · cases ls with
      | nil => simp_all [lines, unlines]
      | cons l' ls => simp_all [lines, unlines]

end Offside.Text
