/-!
# Sets of characters

A set of characters is a list of intervals of code points. The properties of
characters that the scanner and the printers ask for (white space, decimal
digits, word characters, printable characters, letter case) are sets of this
form, one module for each.
-/

namespace Offside.Text

/-- A set of characters, given by intervals of code points with both ends
included. -/
structure CharSet where
  intervals : List (Nat × Nat)

/-- Membership: some interval holds the character's code point. -/
def CharSet.contains (s : CharSet) (c : Char) : Bool :=
  s.intervals.any fun i => i.1 ≤ c.toNat && c.toNat ≤ i.2

theorem CharSet.contains_iff {s : CharSet} {c : Char} :
    s.contains c = true ↔ ∃ i ∈ s.intervals, i.1 ≤ c.toNat ∧ c.toNat ≤ i.2 := by
  simp [CharSet.contains]

end Offside.Text
