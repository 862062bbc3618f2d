import Mathlib.Tactic.SplitIfs
import Offside.Proofs.Execution

/-!
# Counting loops over ranges

A loop that counts goes through numbers: it starts with one, goes on while a test holds, and
changes the number after every round (`Counts`). The range that such a loop is written over lists
these numbers for the comparisons that order, and for the other two it does so only for some starts
and bounds (`counts_rangeValues_iff`). Where it does, and the body leaves the counter alone, the
loop over the range and the loop on the condition do the same (`agreeBut_whileForm`).
-/

namespace Offside

open Text (readNumeral isDigitText)
open Offside.Tree (Counting counting? rangeArguments? valueText)

/-! ## The numbers that a loop counts through -/

/-- A loop that counts in steps of `delta` as long as the test holds goes through these numbers,
and ends. -/
inductive Counts (test : Int → Bool) (delta : Int) : Int → List Int → Prop
  | stop {a : Int} (ht : test a = false) : Counts test delta a []
  | round {a : Int} {ns : List Int} (ht : test a = true) (h : Counts test delta (a + delta) ns) :
      Counts test delta a (a :: ns)

theorem counts_of_steps {test : Int → Bool} {delta : Int} {n : Nat} {a : Int}
    (hin : ∀ i : Nat, i < n → test (a + i * delta) = true) (hout : test (a + n * delta) = false) :
    Counts test delta a ((List.range n).map fun i : Nat => a + i * delta) := by
  induction n generalizing a with
  | zero => exact .stop (by simpa using hout)
  | succ n ih =>
    -- the numbers after the first are those of a loop that starts one step later
    have hstep : ∀ i : Nat, a + delta + i * delta = a + ((i + 1 : Nat) : Int) * delta := by
      intro i
      rw [Int.natCast_add, Int.add_mul]
      omega
    rw [List.range_succ_eq_map, List.map_cons, List.map_map]
    have hfirst : a + ((0 : Nat) : Int) * delta = a := by simp
    rw [hfirst]
    apply Counts.round
    · simpa using hin 0 (Nat.succ_pos n)
    · have hrest := ih (a := a + delta)
        (fun i hi => by rw [hstep]; exact hin _ (Nat.succ_lt_succ hi)) (by rw [hstep]; exact hout)
      simp only [hstep] at hrest
      exact hrest

theorem counts_up {test : Int → Bool} {a stop : Int}
    (hin : ∀ n, a ≤ n → n < stop → test n = true) (hout : test (max a stop) = false) :
    Counts test 1 a (progression a stop 1) := by
  have hcount : (stop - a + 1 - 1) / 1 = stop - a := by omega
  simp only [progression, hcount, Int.zero_lt_one, if_true]
  apply counts_of_steps
  · intro i hi
    apply hin <;> omega
  · rwa [show a + ((stop - a).toNat : Int) * 1 = max a stop by omega]

theorem counts_down {test : Int → Bool} {a stop : Int}
    (hin : ∀ n, n ≤ a → stop < n → test n = true) (hout : test (min a stop) = false) :
    Counts test (-1) a (progression a stop (-1)) := by
  have hcount : (a - stop - -1 - 1) / - -1 = a - stop := by
    rw [Int.neg_neg, Int.ediv_one]
    omega
  have hneg : ¬ (0 : Int) < -1 := by omega
  have hneg' : (-1 : Int) < 0 := by omega
  simp only [progression, hcount, hneg, hneg', if_true, if_false]
  apply counts_of_steps
  · intro i hi
    apply hin <;> omega
  · rwa [show a + ((a - stop).toNat : Int) * -1 = min a stop by omega]

/-! ## Ranges for comparisons -/

/-- The number compares with the bound as the operator says. -/
def comparesWith (operator : String) (bound n : Int) : Bool :=
  compare? operator n bound == some true

/-- The loops that are written over a range. -/
theorem rangeArguments?_cases {operator : String} {delta a b : Int} {ns : List Int}
    (h : rangeArguments? operator delta a b = some ns) :
    (operator = "<" ∧ delta = 1 ∧ ns = [a, b]) ∨
    (operator = "<=" ∧ delta = 1 ∧ ns = [a, b + 1]) ∨
    (operator = ">" ∧ delta = -1 ∧ ns = [a, b, -1]) ∨
    (operator = ">=" ∧ delta = -1 ∧ ns = [a, b - 1, -1]) ∨
    (operator = "==" ∧ delta = 1 ∧ ns = [a, a + 1]) ∨
    (operator = "!=" ∧ delta = 1 ∧ ns = [a, b]) := by
  unfold rangeArguments? at h
  split_ifs at h with h₁ h₂ h₃ h₄ h₅ h₆ <;> cases h <;> simp [*]

theorem compare?_of_rangeArguments? {operator : String} {delta a b : Int} {ns : List Int}
    (h : rangeArguments? operator delta a b = some ns) (n m : Int) :
    compare? operator n m = some (comparesWith operator m n) := by
  rcases rangeArguments?_cases h with
    ⟨rfl, -⟩ | ⟨rfl, -⟩ | ⟨rfl, -⟩ | ⟨rfl, -⟩ | ⟨rfl, -⟩ | ⟨rfl, -⟩ <;>
    simp [comparesWith, compare?]

theorem counts_equal_iff (a b : Int) :
    Counts (comparesWith "==" b) 1 a (progression a (a + 1) 1) ↔ a = b := by
  have hone : progression a (a + 1) 1 = [a] := by
    have hcount : (a + 1 - a + 1 - 1) / 1 = 1 := by omega
    simp only [progression, hcount, Int.zero_lt_one, if_true]
    simp
  rw [hone]
  constructor
  · intro h
    cases h with
    | round ht => simpa [comparesWith, compare?] using ht
  · rintro rfl
    apply Counts.round
    · simp [comparesWith, compare?]
    · have hne : a + 1 ≠ a := by omega
      exact .stop (by simp [comparesWith, compare?, hne])

theorem exists_counts_equal (a b : Int) : ∃ ns, Counts (comparesWith "==" b) 1 a ns := by
  by_cases hab : a = b
  · exact ⟨_, (counts_equal_iff a b).2 hab⟩
  · exact ⟨[], .stop (by simp [comparesWith, compare?, hab])⟩

/-- A loop until its counter equals a number ends only if it does not start behind it. -/
theorem le_of_counts_unequal {a b : Int} {ns : List Int}
    (h : Counts (comparesWith "!=" b) 1 a ns) : a ≤ b := by
  induction h with
  | @stop a ht =>
    have hab : a = b := by simpa [comparesWith, compare?] using ht
    omega
  | round ht h ih => omega

theorem counts_unequal_iff (a b : Int) :
    Counts (comparesWith "!=" b) 1 a (progression a b 1) ↔ a ≤ b := by
  constructor
  · exact le_of_counts_unequal
  · intro hab
    apply counts_up
    · intro n _ hn
      have hne : n ≠ b := by omega
      simp [comparesWith, compare?, hne]
    · have hmax : max a b = b := by omega
      simp [comparesWith, compare?, hmax]

/-- A loop that compares for equality and counts up ends, unless it goes on until its counter equals
a number below its start. -/
theorem exists_counts_iff {operator : String} (hop : operator = "==" ∨ operator = "!=")
    (a b : Int) :
    (∃ ns, Counts (comparesWith operator b) 1 a ns) ↔ (operator = "!=" → a ≤ b) := by
  rcases hop with rfl | rfl
  · exact iff_of_true (exists_counts_equal a b) (by simp)
  · constructor
    · rintro ⟨ns, h⟩ -
      exact le_of_counts_unequal h
    · intro hab
      exact ⟨_, (counts_unequal_iff a b).2 (hab rfl)⟩

/-- A range lists the numbers that the loop counts through. There are two exceptions: a loop that
goes on while its counter equals a number other than its start, and a loop that goes on until its
counter equals a number below its start. -/
theorem counts_rangeValues_iff {operator : String} {delta a b : Int} {ns : List Int}
    (h : rangeArguments? operator delta a b = some ns) :
    Counts (comparesWith operator b) delta a (rangeValues ns) ↔
      (operator = "==" → a = b) ∧ (operator = "!=" → a ≤ b) := by
  rcases rangeArguments?_cases h with ⟨rfl, rfl, rfl⟩ | ⟨rfl, rfl, rfl⟩ | ⟨rfl, rfl, rfl⟩ |
    ⟨rfl, rfl, rfl⟩ | ⟨rfl, rfl, rfl⟩ | ⟨rfl, rfl, rfl⟩
  -- a comparison that orders fails at the end of its range, and wherever the range is empty
  · refine iff_of_true (counts_up ?_ ?_) (by simp) <;> grind [comparesWith, compare?]
  · refine iff_of_true (counts_up ?_ ?_) (by simp) <;> grind [comparesWith, compare?]
  · refine iff_of_true (counts_down ?_ ?_) (by simp) <;> grind [comparesWith, compare?]
  · refine iff_of_true (counts_down ?_ ?_) (by simp) <;> grind [comparesWith, compare?]
  · simpa [rangeValues] using counts_equal_iff a b
  · simpa [rangeValues] using counts_unequal_iff a b

/-! ## Rounds -/

section Rounds

variable {x : String} {body : List Tree} {condition : Tree} {test : Int → Bool} {delta : Int}

/-- A body that leaves the counter alone, and then the change of the counter. -/
theorem runs_round_iff (hx : x ∉ Tree.assignedIn body) {σ σ' : Store} {a : Int}
    (hσ : σ x = some a) {trace : List Shown} :
    Runs (.block (body ++ [.change x delta])) σ trace σ' ↔
      ∃ σ₁, Runs (.block body) σ trace σ₁ ∧ σ' = Function.update σ₁ x (some (a + delta)) := by
  have hkept : ∀ {σ₁ trace}, Runs (.block body) σ trace σ₁ → σ₁ x = some a := by
    intro σ₁ trace h
    rw [h.eq_of_not_assigned hx, hσ]
  constructor
  · intro h
    obtain ⟨trace₁, σ₁, trace₂, rfl, hbody, hchange⟩ := h.exists_of_append
    refine ⟨σ₁, ?_⟩
    cases runs_block_singleton.1 hchange with
    | change hn =>
      obtain rfl := Option.some.inj (hn.symm.trans (hkept hbody))
      rw [List.append_nil]
      exact ⟨hbody, rfl⟩
  · rintro ⟨σ₁, hbody, rfl⟩
    have hchange : Runs (.statement (.change x delta)) σ₁ [] _ := .change (hkept hbody)
    have happend := hbody.append (runs_block_singleton.2 hchange)
    rwa [List.append_nil] at happend

/-- A body that leaves the counter alone does the same for each of the numbers that are counted
through as it does on the condition. The stores at the start may differ at the counter, which the
loop over the numbers sets itself. -/
theorem each_iff_whileLoop (hx : x ∉ Tree.assignedIn body)
    (hc : ∀ (σ : Store) (n : Int), σ x = some n → truth? σ condition = some (test n))
    {a : Int} {ns : List Int} (h : Counts test delta a ns) {σ ρ τ : Store} {trace : List Shown}
    (hρ : ρ x = some a) (hσ : σ.SameBut x ρ) :
    (∃ σ', Runs (.each x ns body) σ trace σ' ∧ σ'.SameBut x τ) ↔
      ∃ ρ', Runs (.statement (.whileLoop condition (body ++ [.change x delta]))) ρ trace ρ' ∧
        ρ'.SameBut x τ := by
  induction h generalizing σ ρ trace with
  | @stop a ht =>
    have hstop : truth? ρ condition = some false := by rw [hc ρ a hρ, ht]
    constructor
    · rintro ⟨σ', hrun, hτ⟩
      cases hrun
      exact ⟨ρ, .whileStop hstop, hσ.symm.trans hτ⟩
    · rintro ⟨ρ', hrun, hτ⟩
      cases hrun with
      | whileStop => exact ⟨σ, .eachStop, hσ.trans hτ⟩
      | whileRound hgo => cases hgo.symm.trans hstop
  | @round a ns ht h ih =>
    have hgo : truth? ρ condition = some true := by rw [hc ρ a hρ, ht]
    -- both rounds start from the store in which the counter is the number
    have hstart : Function.update σ x (some a) = ρ := by rw [← hρ, hσ.update_eq]
    have hchanged : ∀ σ₁ : Store, Function.update σ₁ x (some (a + delta)) x = some (a + delta) :=
      fun σ₁ => Function.update_self ..
    constructor
    · rintro ⟨σ', hrun, hτ⟩
      cases hrun with
      | eachRound hbody hrest =>
        rw [hstart] at hbody
        obtain ⟨ρ', hrest', hτ'⟩ := (ih (hchanged _) (.update _ _ _)).1 ⟨σ', hrest, hτ⟩
        exact ⟨ρ', .whileRound hgo ((runs_round_iff hx hρ).2 ⟨_, hbody, rfl⟩) hrest', hτ'⟩
    · rintro ⟨ρ', hrun, hτ⟩
      cases hrun with
      | whileStop hstop => cases hstop.symm.trans hgo
      | whileRound _ hround hrest =>
        obtain ⟨σ₁, hbody, rfl⟩ := (runs_round_iff hx hρ).1 hround
        obtain ⟨σ', hrest', hτ'⟩ := (ih (hchanged σ₁) (.update _ _ _)).2 ⟨ρ', hrest, hτ⟩
        exact ⟨σ', .eachRound (hstart ▸ hbody) hrest', hτ'⟩

end Rounds

/-! ## The two forms of a loop over numbers -/

theorem value?_of_readNumeral (σ : Store) {text : String} (hd : isDigitText text.toList = true)
    {n : Nat} (hn : readNumeral text.toList = .ok n) : value? σ text = some (n : Int) := by
  simp [value?, hd, hn, Except.toOption]

theorem valueText_of_isDigitText {text : String} (hd : isDigitText text.toList = true) :
    valueText text = text := by
  have hall : ∀ c ∈ text.toList, Text.isDigit c = true := by
    simp only [isDigitText, Bool.and_eq_true, List.all_eq_true] at hd
    exact hd.2
  have hlast : ∀ c, Text.isDigit c = false → text.toList.getLast? ≠ some c := by
    intro c hc hlast
    rw [hall c (List.mem_of_getLast? hlast)] at hc
    cases hc
  unfold valueText
  rw [if_neg, if_neg, if_neg]
  · rintro ⟨-, hf | hF⟩
    · exact hlast 'f' (by decide) hf
    · exact hlast 'F' (by decide) hF
  · rintro rfl
    exact absurd hd (by decide)
  · rintro rfl
    exact absurd hd (by decide)

/-- The loop on the condition starts when its counter is set. -/
theorem runs_whileForm_iff {x value typeName : String} {operator bound : String} {delta : Int}
    {body : List Tree} {a : Int} {σ σ' : Store} {trace : List Shown}
    (ha : value? σ (valueText value) = some a) :
    Runs (.block (whileForm (.binding x (some value) typeName)
        (.comparison x operator (some bound)) (.change x delta) body)) σ trace σ' ↔
      Runs (.statement (.whileLoop (.comparison x operator (some bound))
        (body ++ [.change x delta]))) (Function.update σ x (some a)) trace σ' := by
  show Runs (.block (.binding x (some value) typeName ::
    [.whileLoop (.comparison x operator (some bound)) (body ++ [.change x delta])])) σ trace σ' ↔ _
  constructor
  · intro h
    cases h with
    | cons hfirst hloop =>
      cases hfirst with
      | binding hn =>
        obtain rfl := Option.some.inj (hn.symm.trans ha)
        exact runs_block_singleton.1 hloop
  · intro h
    exact .cons (.binding ha) (runs_block_singleton.2 h)

section Forms

variable {first condition update : Tree} {body : List Tree} {l : Counting} {a b : Nat}
  {ns : List Int}

theorem range?_eq_ok (ha : readNumeral l.start.toList = .ok a)
    (hb : readNumeral l.bound.toList = .ok b) :
    l.range? = .ok (rangeArguments? l.operator l.delta a b) := by
  simp only [Counting.range?, ha, hb]
  rfl

/-- A loop over numbers that has a range is written over it. -/
theorem statementText_of_range? (hl : counting? first condition update = .ok (some l))
    (hr : l.range? = .ok (some ns)) :
    Tree.statementText (.forLoop first condition update body) =
      rangeText l.counter ns (Tree.statementsText body) := by
  have hwritten : writtenRange? first condition update = .ok (some (l.counter, ns)) := by
    simp only [writtenRange?, hl, hr, bind, Except.bind]
    rfl
  rw [statementText_forLoop, hwritten]
  rfl

theorem truth?_of_rangeArguments? (hd : isDigitText l.bound.toList = true)
    (hb : readNumeral l.bound.toList = .ok b)
    (hr : rangeArguments? l.operator l.delta a b = some ns) {σ : Store} {n : Int}
    (hn : σ l.counter = some n) :
    truth? σ (.comparison l.counter l.operator (some l.bound)) =
      some (comparesWith l.operator b n) := by
  have hcompare := compare?_of_rangeArguments? hr n b
  have hop : l.operator ≠ "" := by
    intro hop
    rw [hop] at hcompare
    cases hcompare
  simp [truth?, hop, hn, value?_of_readNumeral σ hd hb, hcompare]

/-- If a range lists the numbers that are counted through, a body that leaves the counter alone
does the same over the range as on the condition. -/
theorem agreeBut_whileForm (hl : counting? first condition update = .ok (some l))
    (hu : update = .change l.counter l.delta) (hbody : l.counter ∉ Tree.assignedIn body)
    (ha : readNumeral l.start.toList = .ok a) (hb : readNumeral l.bound.toList = .ok b)
    (hr : rangeArguments? l.operator l.delta a b = some ns)
    (hns : Counts (comparesWith l.operator b) l.delta a (rangeValues ns)) :
    Code.AgreeBut l.counter (.each l.counter (rangeValues ns) body)
      (.block (whileForm first condition update body)) := by
  subst hu
  obtain ⟨typeName, changed, rfl, rfl, -, hstart, hbound⟩ := Tree.parts_of_counting? hl
  intro σ trace τ
  have hset : value? σ (valueText l.start) = some (a : Int) := by
    rw [valueText_of_isDigitText hstart, value?_of_readNumeral σ hstart ha]
  simp only [runs_whileForm_iff hset]
  exact each_iff_whileLoop hbody (fun σ n hn => truth?_of_rangeArguments? hbound hb hr hn) hns
    (Function.update_self ..) (.update _ _ _)

end Forms

/-! ## Loops whose comparison orders -/

/-- A loop over numbers that compares its counter by order, and alone changes it, is written over
a range, and does there what it would do on its condition: it ends from the same stores, prints the
same, and leaves the same store except for its counter. -/
theorem forLoop_agrees_whileForm {first condition update : Tree} {body : List Tree} {l : Counting}
    {a b : Nat} (hl : counting? first condition update = .ok (some l))
    (hop : (l.operator, l.delta) ∈ [("<", (1 : Int)), ("<=", 1), (">", -1), (">=", -1)])
    (hu : update = .change l.counter l.delta) (hbody : l.counter ∉ Tree.assignedIn body)
    (ha : readNumeral l.start.toList = .ok a) (hb : readNumeral l.bound.toList = .ok b) :
    ∃ ns, l.range? = .ok (some ns) ∧
      Tree.statementText (.forLoop first condition update body) =
        rangeText l.counter ns (Tree.statementsText body) ∧
      Tree.statementsText (whileForm first condition update body) =
        Tree.forText (.ok none) first.statementText condition.conditionText
          (Tree.statementsText body) update.statementText ∧
      Code.AgreeBut l.counter (.each l.counter (rangeValues ns) body)
        (.block (whileForm first condition update body)) := by
  simp only [List.mem_cons, List.not_mem_nil, or_false, Prod.mk.injEq] at hop
  obtain ⟨ns, hns⟩ : ∃ ns, rangeArguments? l.operator l.delta a b = some ns := by
    rcases hop with ⟨ho, hd⟩ | ⟨ho, hd⟩ | ⟨ho, hd⟩ | ⟨ho, hd⟩ <;> simp [rangeArguments?, ho, hd]
  have hr : l.range? = .ok (some ns) := by rw [range?_eq_ok ha hb, hns]
  have hcounts : Counts (comparesWith l.operator b) l.delta a (rangeValues ns) := by
    rw [counts_rangeValues_iff hns]
    constructor
    · intro ho
      simp [ho] at hop
    · intro ho
      simp [ho] at hop
  refine ⟨ns, hr, statementText_of_range? hl hr, ?_,
    agreeBut_whileForm hl hu hbody ha hb hns hcounts⟩
  obtain ⟨typeName, changed, rfl, rfl, rfl, -⟩ := Tree.parts_of_counting? hl
  rw [statementsText_whileForm]
  rfl

theorem forLoop_agrees_whileForm_down :
    counting? (.binding "i" (some "3") "int") (.comparison "i" ">=" (some "1"))
        (.change "i" (-1)) = .ok (some ⟨"i", "3", "1", ">=", -1⟩) ∧
      Tree.statementText (.forLoop (.binding "i" (some "3") "int")
        (.comparison "i" ">=" (some "1")) (.change "i" (-1)) [.print ["i"], .change "x" 1]) =
          rangeText "i" [3, 0, -1] (Tree.statementsText [.print ["i"], .change "x" 1]) ∧
      ∃ σ', Runs (.block (whileForm (.binding "i" (some "3") "int")
        (.comparison "i" ">=" (some "1")) (.change "i" (-1)) [.print ["i"], .change "x" 1]))
          (fun _ => some 0) [.number 3, .number 2, .number 1] σ' := by
  have hl : counting? (.binding "i" (some "3") "int") (.comparison "i" ">=" (some "1"))
      (.change "i" (-1)) = .ok (some ⟨"i", "3", "1", ">=", -1⟩) := rfl
  obtain ⟨ns, hr, htext, -, hagree⟩ := forLoop_agrees_whileForm (a := 3) (b := 1) hl (by decide) rfl
    (by decide : "i" ∉ Tree.assignedIn [.print ["i"], .change "x" 1]) rfl rfl
  have hns : some ns = some [3, 0, -1] := Except.ok.inj (hr.symm.trans rfl)
  cases hns
  have hround : ∀ (n m : Int) (σ : Store), σ "x" = some m →
      Runs (.block [.print ["i"], .change "x" 1]) (Function.update σ "i" (some n)) [.number n]
        (Function.update (Function.update σ "i" (some n)) "x" (some (m + 1))) := by
    intro n m σ hm
    have hx : Function.update σ "i" (some n) "x" = some m := hm
    exact .cons (.print rfl) (runs_block_singleton.2 (.change hx))
  have heach := Runs.eachRound (hround 3 0 (fun _ => some 0) rfl)
    (.eachRound (hround 2 1 _ rfl) (.eachRound (hround 1 2 _ rfl) .eachStop))
  obtain ⟨σ', hwhile, -⟩ := (hagree _ _ _).1 ⟨_, heach, fun _ _ => rfl⟩
  exact ⟨hl, htext, σ', hwhile⟩

/-! ## Loops that compare for equality -/

/-- A loop over numbers that counts up while its counter equals a number, or until it does, is
written over a range, whether it ends or not. The range lists the numbers that the loop counts
through just if it counts while its counter equals its start, or until it equals a number that is
not below its start. Then the loop over the range does the same as the loop on the condition. -/
theorem equality_range_counts_iff {first condition update : Tree} {body : List Tree}
    {l : Counting} {a b : Nat} (hl : counting? first condition update = .ok (some l))
    (hop : l.operator = "==" ∨ l.operator = "!=") (hu : update = .change l.counter 1)
    (hbody : l.counter ∉ Tree.assignedIn body) (ha : readNumeral l.start.toList = .ok a)
    (hb : readNumeral l.bound.toList = .ok b) :
    ∃ ns, l.range? = .ok (some ns) ∧
      Tree.statementText (.forLoop first condition update body) =
        rangeText l.counter ns (Tree.statementsText body) ∧
      ((∃ ms, Counts (comparesWith l.operator b) 1 a ms) ↔ (l.operator = "!=" → a ≤ b)) ∧
      (Counts (comparesWith l.operator b) 1 a (rangeValues ns) ↔
        l.operator = "==" ∧ a = b ∨ l.operator = "!=" ∧ a ≤ b) ∧
      (Counts (comparesWith l.operator b) 1 a (rangeValues ns) →
        Code.AgreeBut l.counter (.each l.counter (rangeValues ns) body)
          (.block (whileForm first condition update body))) := by
  have hdelta : l.delta = 1 := by
    obtain ⟨typeName, changed, -, -, hupdate, -⟩ := Tree.parts_of_counting? hl
    rw [hu] at hupdate
    exact (Tree.change.inj hupdate).2.symm
  obtain ⟨ns, hns⟩ : ∃ ns, rangeArguments? l.operator l.delta a b = some ns := by
    rcases hop with ho | ho <;> simp [rangeArguments?, ho, hdelta]
  have hr : l.range? = .ok (some ns) := by rw [range?_eq_ok ha hb, hns]
  have hiff := counts_rangeValues_iff hns
  rw [hdelta] at hiff
  refine ⟨ns, hr, statementText_of_range? hl hr, ?_, hiff.trans ?_, ?_⟩
  · rw [exists_counts_iff hop, Int.ofNat_le]
  · rcases hop with ho | ho <;> simp [ho, Int.ofNat_inj]
  · intro hcounts
    rw [← hdelta] at hu hcounts
    exact agreeBut_whileForm hl hu hbody ha hb hns hcounts

theorem equality_range_counts_iff_unmet :
    counting? (.binding "i" (some "0") "int") (.comparison "i" "==" (some "5")) (.change "i" 1) =
        .ok (some ⟨"i", "0", "5", "==", 1⟩) ∧
      Tree.statementText (.forLoop (.binding "i" (some "0") "int")
        (.comparison "i" "==" (some "5")) (.change "i" 1) [.change "x" 1]) =
          rangeText "i" [0, 1] (Tree.statementsText [.change "x" 1]) ∧
      ¬ Counts (comparesWith "==" 5) 1 0 (rangeValues [0, 1]) := by
  have hl : counting? (.binding "i" (some "0") "int") (.comparison "i" "==" (some "5"))
      (.change "i" 1) = .ok (some ⟨"i", "0", "5", "==", 1⟩) := rfl
  obtain ⟨ns, hr, htext, -, hiff, -⟩ := equality_range_counts_iff (a := 0) (b := 5) hl (by decide)
    rfl (by decide : "i" ∉ Tree.assignedIn [.change "x" 1]) rfl rfl
  have hns : some ns = some [0, 1] := Except.ok.inj (hr.symm.trans rfl)
  cases hns
  exact ⟨hl, htext, fun h => absurd (hiff.1 h) (by decide)⟩

end Offside
