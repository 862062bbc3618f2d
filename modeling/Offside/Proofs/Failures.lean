import Offside.Proofs.Conversion
import Offside.Proofs.Ranges

/-!
# How a conversion fails

A conversion gives a text, or finds the source text at fault, or comes to the end of the
text in the head of a counting loop, or meets a number that is too long to be read or
written. Nothing else can happen (`convert_outcomes`): the printer can write every
program, as far as its numbers are short enough, and the numbers of a program that was
read are numbers of the text.
-/

namespace Offside

open Text (numeralLimit isDecimal isDigit isDigitText)

/-! ## Tokens made of digits -/

/-- A digit is one of the ten usual ones, or comes long after the letters. -/
theorem Text.toNat_of_isDigit {c : Char} (h : isDigit c = true) :
    (0x30 ≤ c.toNat ∧ c.toNat ≤ 0x39) ∨ 0xB2 ≤ c.toNat := by
  rcases Bool.or_eq_true_iff.1 h with hd | ho
  · have hzeros : ∀ z ∈ decimalZeros, z = 0x30 ∨ 0xB2 ≤ z := by decide
    obtain ⟨z, hz, hc⟩ := List.any_eq_true.1 hd
    simp only [Bool.and_eq_true, decide_eq_true_eq] at hc
    rcases hzeros z hz with rfl | hz
    · left
      omega
    · right
      omega
  · have hothers : ∀ i ∈ otherDigits.intervals, 0xB2 ≤ i.1 := by decide
    obtain ⟨i, hi, hc⟩ := CharSet.contains_iff.1 ho
    have := hothers i hi
    right
    omega

theorem isIdentifierStart_of_isDigit {c : Char} (h : isDigit c = true) :
    isIdentifierStart c = false := by
  rw [← Bool.not_eq_true]
  intro hi
  have hdigit := Text.toNat_of_isDigit h
  have hletter := toNat_of_isIdentifierStart hi
  omega

theorem Kind.isDigitText_of_spelling? {k : Kind} {w : String} (hw : k.spelling? = some w) :
    isDigitText w.toList = false := by
  cases k <;> simp only [spelling?, Option.some.injEq, reduceCtorEq] at hw <;> subst hw <;>
    decide

/-- A number of digits alone is one of decimal digits. -/
theorem munchNumber?_digits {t : List Char} {n : Nat} (h : munchNumber? t = some n)
    (hd : ∀ c ∈ t.take n, isDigit c = true) : ∀ c ∈ t.take n, isDecimal c = true := by
  have hwhole : t.take (t.takeWhile isDecimal).length = t.takeWhile isDecimal :=
    (List.prefix_iff_eq_take.1 (List.takeWhile_prefix _)).symm
  simp only [munchNumber?] at h
  split at h
  · cases h
  · split at h
    · next rest hrest =>
      split at h
      · cases h
        rw [hwhole]
        exact fun c hc => List.all_eq_true.1 List.all_takeWhile c hc
      · cases h
        -- the point before a fraction is no digit
        have hdot : '.' ∈ t.take ((t.takeWhile isDecimal).length + 1
            + (rest.takeWhile isDecimal).length) := by
          rw [Nat.add_assoc, List.take_add, hrest, Nat.add_comm 1, List.take_succ_cons]
          simp
        exact absurd (hd _ hdot) (by decide)
    · cases h
      rw [hwhole]
      exact fun c hc => List.all_eq_true.1 List.all_takeWhile c hc

theorem munchFloat?_digits {t : List Char} {n : Nat} (h : munchFloat? t = some n) :
    ¬ ∀ c ∈ t.take n, isDigit c = true := by
  intro hd
  simp only [munchFloat?] at h
  split at h
  · cases h
  · next m _ =>
    split at h
    · next c cs hdrop =>
      split at h
      · next hc =>
        cases h
        have hmem : c ∈ t.take (m + 1) := by
          rw [List.take_add, hdrop]
          simp
        have hdigit := hd c hmem
        rw [Bool.or_eq_true, decide_eq_true_eq, decide_eq_true_eq] at hc
        rcases hc with rfl | rfl <;> exact absurd hdigit (by decide)
      · cases h
    · cases h

/-- A token made of digits is a number, and its digits are decimal. -/
theorem Kind.munch?_digits {k : Kind} {b : Option Char} {t : List Char} {n : Nat}
    (h : k.munch? b t = some n) (hd : isDigitText (t.take n) = true) :
    k = .number ∧ ∀ c ∈ t.take n, isDecimal c = true := by
  cases hw : k.spelling? with
  | some w =>
    rw [Kind.take_munch? hw h, Kind.isDigitText_of_spelling? hw] at hd
    cases hd
  | none =>
    have hdigits : ∀ c ∈ t.take n, isDigit c = true :=
      List.all_eq_true.1 (Bool.and_eq_true_iff.1 hd).2
    obtain ⟨m, rfl⟩ : ∃ m, n = m + 1 := Nat.exists_eq_add_one.2 (munch?_pos h)
    cases t with
    | nil => cases hd
    | cons c cs =>
      have hc : isDigit c = true := hdigits c (by simp)
      unfold Kind.munch? at h
      split at h
      · have hq : c ≠ '\x22' := by
          rintro rfl
          exact absurd hc (by decide)
        rw [munchString?, if_neg hq] at h
        cases h
      · have hq : c ≠ '\x27' := by
          rintro rfl
          exact absurd hc (by decide)
        rw [munchChar?_ne hq] at h
        cases h
      · rw [munchIdentifier?, isIdentifierStart_of_isDigit hc] at h
        cases h
      · exact absurd hdigits (munchFloat?_digits h)
      · exact ⟨rfl, munchNumber?_digits h hdigits⟩
      · rw [hw] at h
        cases h

/-- The number is written with decimal digits alone. -/
structure IsDecimalNumber (l : Lexeme) : Prop where
  kind : l.kind = .number
  digits : ∀ c ∈ l.text.toList, isDecimal c = true

theorem digits_tokenize {s : String} {ts : List Token} (h : tokenize s = .ok ts) {t : Token}
    (ht : t ∈ ts) (hd : isDigitText t.text.toList = true) : IsDecimalNumber t.lexeme := by
  have hmade : Rule.Makes s.toList fun t =>
      isDigitText t.text.toList = true → IsDecimalNumber t.lexeme := by
    intro before offset k n hf hd
    rw [String.toList_ofList] at hd
    obtain ⟨hk, hall⟩ := Kind.munch?_digits (Rule.first?_munch hf) hd
    exact ⟨hk, by simpa using hall⟩
  obtain ⟨us, m, rfl, hall⟩ := tokenize_induction hmade h
  rcases List.mem_append.1 ht with ht | ht
  · exact hall t ht hd
  · obtain rfl : t = Token.eof m := by simpa using ht
    cases hd

/-! ## Counting loops of a program -/

mutual

/-- The heads of the counting loops in a statement. -/
def Statement.heads : Statement → List Head
  | .print _ => []
  | .declare _ => []
  | .step _ => []
  | .branch _ body otherwise => Statement.listHeads body ++ otherwise.heads
  | .repeatWhile _ body => Statement.listHeads body
  | .count first condition update body => ⟨first, condition, update⟩ :: Statement.listHeads body

/-- The heads of the counting loops in statements. -/
def Statement.listHeads : List Statement → List Head
  | [] => []
  | s :: ss => s.heads ++ Statement.listHeads ss

/-- The heads of the counting loops after the body of a branch. -/
def Otherwise.heads : Otherwise → List Head
  | .nothing => []
  | .elseIf _ body otherwise => Statement.listHeads body ++ otherwise.heads
  | .elseDo body => Statement.listHeads body

end

/-! ## Printing -/

namespace Tree

theorem conditionText_toTree (c : Condition) : ∃ t, conditionText c.toTree = .ok t := by
  induction c with
  | test left operator right => exact ⟨_, rfl⟩
  | join left operator right ihl ihr =>
    obtain ⟨l, hl⟩ := ihl
    obtain ⟨r, hr⟩ := ihr
    refine ⟨"(" ++ l ++ ") " ++ connective operator ++ " (" ++ r ++ ")", ?_⟩
    rw [Condition.toTree, conditionText, hl, hr]
    rfl

/-- The text after the body of a branch of a program. -/
def elseText : Otherwise → Except RenderError ElseText
  | .nothing => return .nothing
  | .elseIf condition body otherwise =>
    return .elseIf (← (Statement.branch condition body otherwise).toTree.statementText)
  | .elseDo [] => return .nothing
  | .elseDo (s :: ss) => return .elseDo (← statementsText (Statement.listToTree (s :: ss)))

theorem statementText_branch (c : Condition) (body : List Statement) (o : Otherwise) :
    (Statement.branch c body o).toTree.statementText =
      branchText (conditionText c.toTree) (statementsText (Statement.listToTree body))
        (elseText o) := by
  rcases o with _ | ⟨c', body', o'⟩ | ⟨_ | ⟨s, ss⟩⟩ <;> rfl

variable {F : RenderError → Prop}

theorem branchText_failsOnly (c : Condition) {body : Except RenderError String}
    {otherwise : Except RenderError ElseText} (hb : FailsOnly F body) (ho : FailsOnly F otherwise) :
    FailsOnly F (branchText (conditionText c.toTree) body otherwise) := by
  obtain ⟨t, ht⟩ := conditionText_toTree c
  rw [ht]
  exact (FailsOnly.ok t).bind fun _ _ => hb.bind fun _ _ => ho.bind fun _ _ => True.intro

theorem whileText_failsOnly (c : Condition) {body : Except RenderError String}
    (hb : FailsOnly F body) : FailsOnly F (whileText (conditionText c.toTree) body) := by
  obtain ⟨t, ht⟩ := conditionText_toTree c
  rw [ht]
  exact (FailsOnly.ok t).bind fun _ _ => hb.bind fun _ _ => True.intro

theorem step_failsOnly (s : Step) : FailsOnly F s.toTree.statementText := by
  have hlimit : ¬ 10 ^ numeralLimit ≤ (1 : Int).natAbs :=
    Nat.not_le.2 (Nat.one_lt_pow (by decide) (by decide))
  have hone : FailsOnly F ((Text.writeNumeral 1).mapError .numeral) :=
    ((Text.writeNumeral_failsOnly 1).mono fun _ h => absurd h.2 hlimit).mapError
  obtain ⟨x, d⟩ := s
  cases d <;> exact hone.bind fun _ _ => True.intro

/-- A counting loop is written if its head and its body are. -/
theorem count_failsOnly {first : Option Binding} {condition : Option Condition}
    {update : Option Step} {body : List Statement}
    (hh : FailsOnly F (Head.mk first condition update).rangeHead?)
    (hb : FailsOnly F (statementsText (Statement.listToTree body))) :
    FailsOnly F (Statement.count first condition update body).toTree.statementText := by
  refine hh.bind fun head _ => ?_
  cases head with
  | some h => exact hb.bind fun _ _ => True.intro
  | none =>
    refine FailsOnly.bind ?_ fun _ _ => FailsOnly.bind ?_ fun _ _ => hb.bind fun _ _ =>
      FailsOnly.bind ?_ fun _ _ => True.intro
    · cases first <;> exact True.intro
    · cases condition with
      | none => exact True.intro
      | some c =>
        obtain ⟨t, ht⟩ := conditionText_toTree c
        have hc : c.toTree.isAbsent = false := by cases c <;> rfl
        rw [optionTree, hc, ht]
        exact True.intro
    · cases update with
      | none => exact True.intro
      | some u => exact step_failsOnly u

mutual

/-- A statement is written if the heads of its counting loops are. -/
theorem statementText_failsOnly : ∀ s : Statement,
    (∀ h ∈ s.heads, FailsOnly F h.rangeHead?) → FailsOnly F s.toTree.statementText
  | .print _, _ => True.intro
  | .declare _, _ => True.intro
  | .step s, _ => step_failsOnly s
  | .branch c body o, h => by
    rw [Statement.heads, List.forall_mem_append] at h
    rw [statementText_branch]
    exact branchText_failsOnly c (statementsText_failsOnly body h.1) (elseText_failsOnly o h.2)
  | .repeatWhile c body, h => whileText_failsOnly c (statementsText_failsOnly body h)
  | .count first c update body, h => by
    rw [Statement.heads, List.forall_mem_cons] at h
    exact count_failsOnly h.1 (statementsText_failsOnly body h.2)

/-- Statements are written if the heads of their counting loops are. -/
theorem statementsText_failsOnly : ∀ ss : List Statement,
    (∀ h ∈ Statement.listHeads ss, FailsOnly F h.rangeHead?) →
      FailsOnly F (statementsText (Statement.listToTree ss))
  | [], _ => True.intro
  | s :: ss, h => by
    rw [Statement.listHeads, List.forall_mem_append] at h
    exact (statementText_failsOnly s h.1).bind fun _ _ =>
      (statementsText_failsOnly ss h.2).bind fun _ _ => True.intro

/-- What follows the body of a branch is written if the heads of its counting loops are. -/
theorem elseText_failsOnly : ∀ o : Otherwise,
    (∀ h ∈ o.heads, FailsOnly F h.rangeHead?) → FailsOnly F (elseText o)
  | .nothing, _ => True.intro
  | .elseIf c body o, h => by
    rw [Otherwise.heads, List.forall_mem_append] at h
    rw [elseText, statementText_branch]
    exact (branchText_failsOnly c (statementsText_failsOnly body h.1)
      (elseText_failsOnly o h.2)).bind fun _ _ => True.intro
  | .elseDo [], _ => True.intro
  | .elseDo (s :: ss), h =>
    (statementsText_failsOnly (s :: ss) h).bind fun _ _ => True.intro

end

end Tree

/-- A program is written if the heads of its counting loops are. -/
theorem Program.render_failsOnly {F : Tree.RenderError → Prop} (p : Program)
    (h : ∀ d ∈ Statement.listHeads p.body, FailsOnly F d.rangeHead?) : FailsOnly F p.render := by
  have ht := Tree.statementsText_failsOnly p.body h
  rwa [Statement.listToTree_eq_map] at ht

/-- Of a program, only the numbers can keep it from being written. -/
theorem Program.failure_of_render {p : Program} {e : Tree.RenderError} (h : p.render = .error e) :
    e.failure = .value := by
  have hp : FailsOnly (fun e => e.failure = .value) p.render :=
    p.render_failsOnly fun _ _ => Head.rangeHead?_failsOnly fun l _ =>
      .of_forall (fun _ => rfl) l.head?
  exact hp.elim h

/-! ## Where the texts of a loop come from -/

/-- The numerals of the loop are texts of lexemes in the list. -/
structure Head.Within (ls : List Lexeme) (d : Head) : Prop where
  first : ∀ b, d.first = some b → ∃ l ∈ ls, l.text = b.value
  condition : ∀ x operator v, d.condition = some (.test x operator v) →
    v = "" ∨ ∃ l ∈ ls, l.text = v

theorem Head.Within.mono {ls ms : List Lexeme} {d : Head} (h : d.Within ls) (hs : ls ⊆ ms) :
    d.Within ms where
  first b hb :=
    have ⟨l, hl, ht⟩ := h.first b hb
    ⟨l, hs hl, ht⟩
  condition x operator v hv := (h.condition x operator v hv).imp_right fun ⟨l, hl, ht⟩ =>
    ⟨l, hs hl, ht⟩

mutual

theorem operand_of_spelledTerm {x operator v : String} : ∀ {c : Condition} {us : List Lexeme},
    c.SpelledTerm us → c = .test x operator v → v = "" ∨ ∃ l ∈ us, l.text = v
  | _, _, .name _, h => by
    cases h
    exact .inl rfl
  | _, _, .compare n hk hv, h => by
    cases h
    exact .inr ⟨_, by simp, rfl⟩
  | _, _, .truth _, h => by
    cases h
    exact .inl rfl
  | _, _, .group hc, h => by
    rcases operand_of_spelled hc h with hv | ⟨l, hl, ht⟩
    · exact .inl hv
    · exact .inr ⟨l, by simp [hl], ht⟩

/-- The right side of a comparison is a lexeme of it. -/
theorem operand_of_spelled {x operator v : String} : ∀ {c : Condition} {us : List Lexeme},
    c.Spelled us → c = .test x operator v → v = "" ∨ ∃ l ∈ us, l.text = v
  | _, _, .term ht, h => operand_of_spelledTerm ht h
  | _, _, .join .., h => by cases h

end

variable {G : Dialect}

theorem within_count {first : Option Binding} {condition : Option Condition}
    {update : Option Step} {fs us : List Lexeme} (hf : SpelledFirst G first fs)
    (hc : SpelledCondition condition us) :
    (Head.mk first condition update).Within (fs ++ us) := by
  constructor
  · rintro b rfl
    cases hf with
    | typed hk n hv => exact ⟨_, by simp, rfl⟩
    | untyped n hv => exact ⟨_, by simp, rfl⟩
  · rintro x operator v rfl
    cases hc with
    | present h =>
      rcases operand_of_spelled h rfl with hv | ⟨l, hl, ht⟩
      · exact .inl hv
      · exact .inr ⟨l, by simp [hl], ht⟩

mutual

/-- The numerals of the loops in a statement are among its lexemes. -/
theorem within_statement : ∀ {s : Statement} {us : List Lexeme}, s.Spelled G us →
    ∀ d ∈ s.heads, d.Within us
  | _, _, .print .., _, hd => by cases hd
  | _, _, .declare .., _, hd => by cases hd
  | _, _, .step .., _, hd => by cases hd
  | _, _, .branch hc hb ho, d, hd => by
    rw [Statement.heads, List.mem_append] at hd
    rcases hd with hd | hd
    · exact (within_body hb d hd).mono fun l hl => by simp [guarded, braced, hl]
    · exact (within_otherwise ho d hd).mono fun l hl => by simp [hl]
  | _, _, .repeatWhile hc hb, d, hd =>
    (within_body hb d hd).mono fun l hl => by simp [guarded, braced, hl]
  | _, _, .count hf hc hu hb, d, hd => by
    rw [Statement.heads, List.mem_cons] at hd
    rcases hd with rfl | hd
    · refine (within_count hf hc).mono fun l hl => ?_
      rcases List.mem_append.1 hl with hl | hl <;> simp [hl]
    · exact (within_body hb d hd).mono fun l hl => by simp [braced, hl]

theorem within_otherwise : ∀ {o : Otherwise} {us : List Lexeme}, o.Spelled G us →
    ∀ d ∈ o.heads, d.Within us
  | _, _, .nothing, _, hd => by cases hd
  | _, _, .elseIf hc hb ho, d, hd => by
    rw [Otherwise.heads, List.mem_append] at hd
    rcases hd with hd | hd
    · exact (within_body hb d hd).mono fun l hl => by simp [guarded, braced, hl]
    · exact (within_otherwise ho d hd).mono fun l hl => by simp [hl]
  | _, _, .elseDo hb, d, hd => (within_body hb d hd).mono fun l hl => by simp [braced, hl]

theorem within_body : ∀ {top after behind : Bool} {ss : List Statement} {us : List Lexeme},
    SpelledBody G top after behind ss us → ∀ d ∈ Statement.listHeads ss, d.Within us
  | _, _, _, _, _, .nil, _, hd => by cases hd
  | _, _, _, _, _, .cons hs h, d, hd => by
    rw [Statement.listHeads, List.mem_append] at hd
    rcases hd with hd | hd
    · exact (within_statement hs d hd).mono (by simp)
    · exact (within_body h d hd).mono (by simp)
  | _, _, _, _, _, .unknown hj h, d, hd =>
    (within_body h d hd).mono (by simp)

end

/-! ## Outcomes -/

/-- A token of the list is a number of at least as many digits as can be read. -/
def HasLongNumber (ts : List Token) : Prop :=
  ∃ t ∈ ts, IsDecimalNumber t.lexeme ∧ numeralLimit ≤ t.text.length

/-- The head of a loop that was read is written, unless a number of the text is too long. -/
theorem rangeHead?_within {s : String} {ts : List Token} (hts : tokenize s = .ok ts) {d : Head}
    (hd : d.Within (ts.map Token.lexeme)) :
    FailsOnly (fun e => ∃ n, e = .numeral n ∧ n.isLimit = true ∧ HasLongNumber ts)
      d.rangeHead? := by
  have htoken : ∀ l ∈ ts.map Token.lexeme, isDigitText l.text.toList = true →
      ∃ t ∈ ts, t.lexeme = l ∧ IsDecimalNumber t.lexeme := by
    intro l hl hdigits
    obtain ⟨t, ht, rfl⟩ := List.mem_map.1 hl
    exact ⟨t, ht, rfl, digits_tokenize hts ht hdigits⟩
  refine d.rangeHead?_failsOnly fun c hc => ?_
  obtain ⟨typeName, step, hfirst, hcond, -, -, hds, hdb⟩ := Head.parts_of_counting? hc
  obtain ⟨l, hl, hlt⟩ : ∃ l ∈ ts.map Token.lexeme, l.text = c.start := hd.first _ hfirst
  obtain ⟨t, ht, rfl, hnum⟩ := htoken l hl (hlt ▸ hds)
  rcases hd.condition c.counter c.operator c.bound hcond with hempty | ⟨m, hm, hmt⟩
  · -- a condition that compares nothing has no numeral on its right
    rw [hempty] at hdb
    cases hdb
  obtain ⟨u, hu, rfl, hnum'⟩ := htoken m hm (hmt ▸ hdb)
  refine (Tree.Counting.head?_failsOnly (hlt ▸ hnum.digits) (hmt ▸ hnum'.digits)).mono ?_
  rintro e ⟨he, hlong | hlong⟩
  · rw [← hlt] at hlong
    exact ⟨e, rfl, he, t, ht, hnum, hlong⟩
  · rw [← hmt] at hlong
    exact ⟨e, rfl, he, u, hu, hnum', hlong⟩

/-- What a program that was read is written as, or why it is not. -/
theorem render_failsOnly_limit {s : String} {ts : List Token} (hts : tokenize s = .ok ts)
    {p : Program} (hp : parse ts = .ok p) :
    FailsOnly (fun e => ∃ n, e = .numeral n ∧ n.isLimit = true ∧ HasLongNumber ts) p.render := by
  obtain ⟨behind, us, js, hl, hb, -⟩ := (Grammar.parse_eq_ok_iff (closed_tokenize hts)).1 hp
  refine p.render_failsOnly fun d hd => rangeHead?_within hts ?_
  exact (within_body hb d hd).mono fun l hl' => by simp [hl, hl']

/-- A conversion gives a text, or the source text is at fault, or it ends in the head of a
counting loop, or has a number that is too long. In particular every statement that is read
can be written, and no part of it is missed: only the numbers of a program can keep it from
being written. -/
theorem convert_outcomes (s : String) :
    ((∃ q, convert s = .ok q) ∨
      (∃ e, convert s = .error e ∧ e.failure = .source) ∨
      (convert s = .error (.grammar .outOfTokens) ∧
        ∃ ts us vs, tokenize s = .ok ts ∧ ts.map Token.lexeme = us ++ vs ∧ OpenCount vs) ∨
      (∃ n, convert s = .error (.render (.numeral n)) ∧ n.isLimit = true ∧
        ∃ ts, tokenize s = .ok ts ∧ HasLongNumber ts)) ∧
    (∀ e, convert s = .error e → e.failure ≠ .unsupported ∧ e.failure ≠ .missing) ∧
    ∀ (p : Program) (e : Tree.RenderError), p.render = .error e → e.failure = .value := by
  refine ⟨?_, fun e he => ?_, fun p e he => Program.failure_of_render he⟩
  · cases hc : convert s with
    | ok q => exact .inl ⟨q, rfl⟩
    | error e =>
      right
      rcases convert_eq_error hc with
        ⟨x, -, rfl⟩ | ⟨ts, x, ht, hp, rfl⟩ | ⟨ts, p, x, ht, hp, hr, rfl⟩
      · exact .inl ⟨_, rfl, rfl⟩
      · rcases Grammar.parse_error (closed_tokenize ht) hp with hx | ⟨rfl, us, vs, hl, ho⟩
        · exact .inl ⟨_, rfl, GrammarError.failure_of_isSyntax hx⟩
        · exact .inr (.inl ⟨rfl, ts, us, vs, ht, hl, ho⟩)
      · obtain ⟨n, rfl, hn, hlong⟩ := (render_failsOnly_limit ht hp).elim hr
        exact .inr (.inr ⟨n, rfl, hn, ts, ht, hlong⟩)
  · rcases convert_eq_error he with ⟨x, -, rfl⟩ | ⟨ts, x, -, -, rfl⟩ | ⟨ts, p, x, -, -, hr, rfl⟩
    · exact ⟨nofun, nofun⟩
    · cases x <;> exact ⟨nofun, nofun⟩
    · have hvalue : (ConvertError.render x).failure = .value := Program.failure_of_render hr
      rw [hvalue]
      exact ⟨nofun, nofun⟩

end Offside
