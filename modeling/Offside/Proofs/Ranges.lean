import Mathlib.Algebra.Group.Nat.Defs
import Offside.Tree.Range

/-!
# Range heads that cannot be written

A counting loop is written over a range only if it goes from a numeral to a numeral.
Nothing but the length of a number can then be at fault, and one of the two numerals is
as long as the limit: the numbers written differ from the numbers read by at most one
(`rangeHead?_failsOnly`).
-/

namespace Offside

/-! ## Ways to fail -/

/-- There is a result, or an error of which `F` holds. -/
def FailsOnly {ε α : Type} (F : ε → Prop) : Except ε α → Prop
  | .ok _ => True
  | .error e => F e

namespace FailsOnly

variable {ε α β : Type} {F : ε → Prop}

theorem ok (a : α) : FailsOnly F (.ok a) := True.intro

theorem of_forall (h : ∀ e, F e) (r : Except ε α) : FailsOnly F r := by
  cases r with
  | error e => exact h e
  | ok a => exact True.intro

theorem elim {e : ε} {r : Except ε α} (h : FailsOnly F r) (he : r = .error e) : F e := by
  subst he
  exact h

theorem mono {F' : ε → Prop} {r : Except ε α} (h : FailsOnly F r) (hF : ∀ e, F e → F' e) :
    FailsOnly F' r := by
  cases r with
  | error e => exact hF e h
  | ok a => exact True.intro

theorem bind {r : Except ε α} (h : FailsOnly F r) {f : α → Except ε β}
    (hf : ∀ a, r = .ok a → FailsOnly F (f a)) : FailsOnly F (r >>= f) := by
  cases r with
  | error e => exact h
  | ok a => exact hf a rfl

theorem mapError {ε' : Type} {F' : ε' → Prop} {g : ε → ε'} {r : Except ε α}
    (h : FailsOnly (fun e => F' (g e)) r) : FailsOnly F' (r.mapError g) := by
  cases r with
  | error e => exact h
  | ok a => exact True.intro

end FailsOnly

/-! ## Numerals -/

namespace Text

/-- It is the length of a number that is at fault. -/
def NumeralError.isLimit : NumeralError → Bool
  | tooLongToRead _ => true
  | tooLongToWrite => true
  | notDecimal _ => false

theorem decimalValue?_getD_lt (c : Char) : (decimalValue? c).getD 0 < 10 := by
  cases h : decimalValue? c with
  | none => decide
  | some v => exact decimalValue?_lt h

/-- Digits behind a number make at most as much of it as nines would. -/
theorem foldl_digits_lt (cs : List Char) (n : Nat) :
    cs.foldl (fun n c => 10 * n + (decimalValue? c).getD 0) n < (n + 1) * 10 ^ cs.length := by
  induction cs generalizing n with
  | nil => simp
  | cons c cs ih =>
    have hc := decimalValue?_getD_lt c
    calc (c :: cs).foldl (fun n c => 10 * n + (decimalValue? c).getD 0) n
        < (10 * n + (decimalValue? c).getD 0 + 1) * 10 ^ cs.length := ih _
      _ ≤ (10 * (n + 1)) * 10 ^ cs.length := Nat.mul_le_mul_right _ (by omega)
      _ = (n + 1) * 10 ^ (c :: cs).length := by
        rw [List.length_cons, Nat.pow_succ, Nat.mul_comm 10 (n + 1), Nat.mul_assoc,
          Nat.mul_comm 10]

theorem digitsValue_lt (cs : List Char) : digitsValue cs < 10 ^ cs.length := by
  have h := foldl_digits_lt cs 0
  rwa [Nat.zero_add, Nat.one_mul] at h

theorem lt_of_readNumeral {cs : List Char} {n : Nat} (h : readNumeral cs = .ok n) :
    n < 10 ^ cs.length := by
  simp only [readNumeral] at h
  split at h
  · cases h
  · split at h
    · cases h
    · cases h
      exact digitsValue_lt cs

/-- Decimal digits are read, unless they are too many. -/
theorem readNumeral_failsOnly {cs : List Char} (h : ∀ c ∈ cs, isDecimal c = true) :
    FailsOnly (fun e => e.isLimit = true ∧ numeralLimit ≤ cs.length) (readNumeral cs) := by
  have hall : cs.takeWhile isDecimal = cs := by
    have happend : (cs ++ []).takeWhile isDecimal = cs ++ [] := List.takeWhile_append_of_pos h
    rwa [List.append_nil] at happend
  simp only [readNumeral, hall, Nat.lt_irrefl, if_false]
  split
  · next hlong => exact ⟨rfl, Nat.le_of_lt hlong⟩
  · exact True.intro

/-- A number is written, unless it has too many digits. -/
theorem writeNumeral_failsOnly (n : Int) :
    FailsOnly (fun e => e.isLimit = true ∧ 10 ^ numeralLimit ≤ n.natAbs) (writeNumeral n) := by
  unfold writeNumeral
  split
  · next hlong =>
    refine ⟨rfl, ?_⟩
    rwa [← Nat.not_lt, ← Nat.length_toDigits_le_iff (by decide) (by decide), Nat.not_le]
  · exact True.intro

/-- A number that has too many digits after a change by one was read from as many digits
as the limit. -/
theorem numeralLimit_le {n d m : Nat} (hn : n < 10 ^ d) (hm : m ≤ n + 1)
    (h : 10 ^ numeralLimit ≤ m) : numeralLimit ≤ d := by
  -- with fewer digits even the next number is below the least one that is too long
  refine Classical.byContradiction fun hd => ?_
  have hpow : 10 ^ d < 10 ^ numeralLimit := Nat.pow_lt_pow_right (by decide) (Nat.not_le.1 hd)
  omega

end Text

namespace Tree

open Text (numeralLimit isDecimal isDigitText writeNumeral)

/-! ## Ranges -/

theorem commaSeparated_failsOnly (ns : List Int) :
    FailsOnly (fun e => e.isLimit = true ∧ ∃ n ∈ ns, 10 ^ numeralLimit ≤ n.natAbs)
      (commaSeparated ns) := by
  have hmap : FailsOnly (fun e => e.isLimit = true ∧ ∃ n ∈ ns, 10 ^ numeralLimit ≤ n.natAbs)
      (ns.mapM writeNumeral) := by
    induction ns with
    | nil => exact True.intro
    | cons n ns ih =>
      rw [List.mapM_cons]
      refine FailsOnly.bind ((Text.writeNumeral_failsOnly n).mono ?_) fun _ _ =>
        FailsOnly.bind (ih.mono ?_) fun _ _ => True.intro
      · rintro e ⟨he, hn⟩
        exact ⟨he, n, by simp, hn⟩
      · rintro e ⟨he, m, hm, hlong⟩
        exact ⟨he, m, by simp [hm], hlong⟩
  exact hmap.bind fun _ _ => True.intro

/-- The arguments of a range are at most one off its ends. -/
theorem natAbs_rangeArguments? {operator : String} {delta : Int} {start bound : Nat}
    {ns : List Int} (h : rangeArguments? operator delta start bound = some ns) {n : Int}
    (hn : n ∈ ns) : n.natAbs ≤ start + 1 ∨ n.natAbs ≤ bound + 1 := by
  unfold rangeArguments? at h
  repeat' split at h
  all_goals cases h
  all_goals
    simp only [List.mem_cons, List.not_mem_nil, or_false] at hn
    omega

/-- One of the numerals is as long as the limit. -/
def Counting.IsLong (l : Counting) : Prop :=
  numeralLimit ≤ l.start.length ∨ numeralLimit ≤ l.bound.length

theorem Counting.head?_failsOnly {l : Counting} (hs : ∀ c ∈ l.start.toList, isDecimal c = true)
    (hb : ∀ c ∈ l.bound.toList, isDecimal c = true) :
    FailsOnly (fun e => e.isLimit = true ∧ l.IsLong) l.head? := by
  refine FailsOnly.bind ((Text.readNumeral_failsOnly hs).mono ?_) fun start hstart =>
    FailsOnly.bind ((Text.readNumeral_failsOnly hb).mono ?_) fun bound hbound => ?_
  · rintro e ⟨he, hlong⟩
    exact ⟨he, .inl (String.length_toList ▸ hlong)⟩
  · rintro e ⟨he, hlong⟩
    exact ⟨he, .inr (String.length_toList ▸ hlong)⟩
  · cases hns : rangeArguments? l.operator l.delta start bound with
    | none => exact True.intro
    | some ns =>
      refine FailsOnly.bind ((commaSeparated_failsOnly ns).mono ?_) fun _ _ => True.intro
      rintro e ⟨he, n, hn, hlong⟩
      have hstart := Text.lt_of_readNumeral hstart
      have hbound := Text.lt_of_readNumeral hbound
      rw [String.length_toList] at hstart hbound
      rcases natAbs_rangeArguments? hns hn with hle | hle
      · exact ⟨he, .inl (Text.numeralLimit_le hstart hle hlong)⟩
      · exact ⟨he, .inr (Text.numeralLimit_le hbound hle hlong)⟩

/-! ## Loops of a program -/

end Tree

/-- The head of a counting loop. -/
structure Head where
  first : Option Binding
  condition : Option Condition
  update : Option Step

namespace Head

open Text (numeralLimit isDecimal isDigitText)
open Offside.Tree (Counting RenderError)

/-- The loop as one over numbers, if it is one: it counts with a variable from a numeral,
compares the same variable with a numeral, and has an update. -/
def counting? : Head → Option Counting
  | ⟨some b, some (.test x operator v), some u⟩ =>
    if isDigitText b.value.toList ∧ x = b.name ∧ isDigitText v.toList then
      some ⟨b.name, b.value, v, operator, u.direction.amount⟩
    else none
  | _ => none

/-- The head of the loop over a range, for the loop as a tree. -/
def rangeHead? (h : Head) : Except RenderError (Option String) :=
  Tree.rangeHead? (optionTree Binding.toTree h.first) (optionTree Condition.toTree h.condition)
    (optionTree Step.toTree h.update)

/-- Every part of a loop of a program can be looked at. -/
theorem counting?_toTree (h : Head) :
    Tree.counting? (optionTree Binding.toTree h.first) (optionTree Condition.toTree h.condition)
      (optionTree Step.toTree h.update) = .ok h.counting? := by
  obtain ⟨first, condition, update⟩ := h
  rcases first with _ | b
  · rfl
  rcases condition with _ | ⟨x, operator, v⟩ | ⟨l, operator, r⟩
  · show (if isDigitText b.value.toList = true then Except.ok none else Except.ok none) = _
    rw [ite_self]
    rfl
  · -- all three parts are there: only the guards are left, from left to right
    rcases update with _ | ⟨y, direction⟩
    · show (if isDigitText b.value.toList = true then if x = b.name then
        if isDigitText v.toList = true then Except.ok none else Except.ok none else Except.ok none
          else Except.ok none) = _
      simp only [ite_self]
      rfl
    · have hone : direction.amount.natAbs = 1 := by cases direction <;> rfl
      show (if isDigitText b.value.toList = true then if x = b.name then
        if isDigitText v.toList = true then if direction.amount.natAbs = 1 then
          Except.ok (some (Counting.mk b.name b.value v operator direction.amount))
        else Except.ok none else Except.ok none else Except.ok none else Except.ok none) =
        Except.ok (if isDigitText b.value.toList ∧ x = b.name ∧ isDigitText v.toList then
          some (Counting.mk b.name b.value v operator direction.amount) else none)
      grind
  · show (if isDigitText b.value.toList = true then Except.ok none else Except.ok none) = _
    rw [ite_self]
    rfl

/-- The parts of the head of a loop over numbers. -/
theorem parts_of_counting? {h : Head} {l : Counting} (hl : h.counting? = some l) :
    ∃ typeName u, h.first = some ⟨l.counter, l.start, typeName⟩ ∧
      h.condition = some (.test l.counter l.operator l.bound) ∧ h.update = some u ∧
      u.direction.amount = l.delta ∧ isDigitText l.start.toList = true ∧
      isDigitText l.bound.toList = true := by
  unfold counting? at hl
  split at hl
  · next b x operator v u =>
    split at hl
    · next hd =>
      obtain ⟨hstart, rfl, hbound⟩ := hd
      cases hl
      exact ⟨b.typeName, u, rfl, rfl, rfl, rfl, hstart, hbound⟩
    · cases hl
  · cases hl

/-- The head of a loop fails only as its numbers do. -/
theorem rangeHead?_failsOnly {h : Head} {F : RenderError → Prop}
    (hF : ∀ l, h.counting? = some l → FailsOnly (fun e => F (.numeral e)) l.head?) :
    FailsOnly F h.rangeHead? := by
  unfold rangeHead? Tree.rangeHead?
  rw [counting?_toTree]
  cases hl : h.counting? with
  | none => exact True.intro
  | some l => exact (hF l hl).mapError

end Head

end Offside
