import Offside.Proofs.Scanning

/-!
# The order of the rules

The scanner tries types and control words, then gaps, then everything else. No two of the
reserved words and gaps match at the same place (`eq_of_early`), so among these the order does
not matter. Hence the gaps may come in any order, and all rules may as well be tried in a single
pass in which gaps stand first, truth literals between types and control words, and every sign
of one character once more at the end (`scan_rule_order`).

Reserved words and gaps are told apart by how the texts they match start, but for the two
headers, which start alike and differ in the word after `public`.
-/

namespace Offside

open Gap (Piece munchPieces? classPieces mainPieces headerStart)

namespace Rule

/-! ## Orders -/

/-- The rules in three phases, with the gaps in a given order. -/
def inPhases (gaps : List Gap) : List Rule :=
  (Kind.types ++ Kind.controls).map token ++ gaps.map gap ++ lexemes.map token

/-- The kinds of tokens in the order in which their patterns are listed. -/
def listed : List Kind :=
  [.intType, .stringType, .charType, .floatType, .doubleType, .booleanType,
   .trueLiteral, .falseLiteral, .ifKeyword, .elseKeyword, .whileKeyword, .forKeyword,
   .string, .charLiteral, .identifier, .floatNumber, .number,
   .increment, .plus, .decrement, .minus, .times, .divide, .modulo, .and, .or,
   .eq, .neq, .leq, .geq, .lt, .gt, .assign,
   .leftBrace, .rightBrace, .leftParen, .rightParen, .leftBracket, .rightBracket,
   .semicolon, .comma, .dot]

/-- The kinds that are told by a single character where no pattern matches. -/
def symbols : List Kind :=
  [.leftParen, .rightParen, .semicolon, .dot, .leftBracket, .rightBracket, .singleQuote,
   .leftBrace, .rightBrace, .comma]

/-- All rules in one pass: gaps, then tokens as listed, then symbols. -/
def inOnePass : List Rule := Gap.all.map gap ++ listed.map token ++ symbols.map token

/-- The rules that no other of them can take the place of. -/
def early : List Rule := Kind.reserved.map token ++ Gap.all.map gap

/-- The literals, names and signs, which are tried when nothing else matches. -/
def late : List Kind := listed.drop Kind.reserved.length

theorem inPhases_eq (gaps : List Gap) : inPhases gaps =
    ((Kind.types ++ Kind.controls).map token ++ gaps.map gap ++ Kind.truths.map token) ++
      (late.map token ++ [token .singleQuote]) := by
  rw [inPhases, show lexemes.map token =
    Kind.truths.map token ++ (late.map token ++ [token .singleQuote]) from rfl,
    List.append_assoc _ (Kind.truths.map token)]

theorem inOnePass_eq : inOnePass =
    (Gap.all.map gap ++ (Kind.types ++ Kind.truths ++ Kind.controls).map token) ++
      (late.map token ++ symbols.map token) := rfl

/-! ## Rules that do not match together -/

theorem first?_append (rules rules' : List Rule) (b : Option Char) (t : List Char) :
    first? (rules ++ rules') b t = (first? rules b t).or (first? rules' b t) :=
  List.findSome?_append

theorem first?_mem {rules : List Rule} {b : Option Char} {t : List Char} {r : Rule} {n : Nat}
    (h : first? rules b t = some (r, n)) : r ∈ rules := by
  obtain ⟨r', hr', h'⟩ := List.exists_of_findSome?_eq_some h
  obtain ⟨m, -, he⟩ := Option.map_eq_some_iff.1 h'
  cases he
  exact hr'

theorem exists_first? {rules : List Rule} {b : Option Char} {t : List Char} {r : Rule} {n : Nat}
    (hr : r ∈ rules) (hn : r.munch? b t = some n) : ∃ r' m, first? rules b t = some (r', m) := by
  cases hf : first? rules b t with
  | some rn => exact ⟨rn.1, rn.2, rfl⟩
  | none =>
    have hnone := List.findSome?_eq_none_iff.1 hf r hr
    rw [hn] at hnone
    cases hnone

/-- Where at most one rule matches, it is found in any list that has it. -/
theorem first?_congr {rules rules' : List Rule} {b : Option Char} {t : List Char}
    (hsub : ∀ r ∈ rules, ∀ n, r.munch? b t = some n → r ∈ rules')
    (hsup : ∀ r ∈ rules', ∀ n, r.munch? b t = some n → r ∈ rules)
    (hone : ∀ r ∈ rules, ∀ r' ∈ rules, ∀ n m, r.munch? b t = some n → r'.munch? b t = some m →
      r = r') :
    first? rules b t = first? rules' b t := by
  cases hf : first? rules b t with
  | none =>
    cases hf' : first? rules' b t with
    | none => rfl
    | some rn =>
      have hn := first?_munch hf'
      obtain ⟨r', m, h⟩ := exists_first? (hsup _ (first?_mem hf') _ hn) hn
      rw [hf] at h
      cases h
  | some rn =>
    obtain ⟨r, n⟩ := rn
    have hn := first?_munch hf
    obtain ⟨r', m, hf'⟩ := exists_first? (hsub r (first?_mem hf) n hn) hn
    have hm := first?_munch hf'
    obtain rfl := hone r (first?_mem hf) r' (hsup r' (first?_mem hf') m hm) n m hn hm
    rw [hn] at hm
    cases hm
    exact hf'.symm

/-! ## How matches start -/

/-- What the texts start with that a reserved word or a gap matches. -/
def openings : Rule → List (List Char)
  | token k => k.spelling?.toList.map String.toList
  | gap .layout => [[' '], ['\t'], ['\r'], ['\n']]
  | gap .lineComment => [['/', '/']]
  | gap .blockComment => [['/', '*']]
  | gap .classHeader => [headerStart]
  | gap .mainHeader => [headerStart]

theorem opening_layout {t : List Char} {n : Nat} (h : Gap.munchLayout? t = some n) :
    ∃ p ∈ openings (gap .layout), p <+: t := by
  cases t with
  | nil => cases h
  | cons c t =>
    have hc : Gap.isLayout c = true := by
      cases hc : Gap.isLayout c with
      | true => rfl
      | false => simp [Gap.munchLayout?, hc] at h
    refine ⟨[c], ?_, ⟨t, rfl⟩⟩
    exact Gap.isLayout_elim hc (by decide)

theorem opening_header {ps : List Piece} {b : Option Char} {t : List Char} {n : Nat}
    (h : Gap.munchHeader? ps b t = some n) : headerStart <+: t := by
  unfold Gap.munchHeader? at h
  split at h
  · next hp => exact List.isPrefixOf_iff_prefix.1 (Bool.and_eq_true_iff.1 hp).1
  · cases h

theorem exists_opening {r : Rule} (hr : r ∈ early) {b : Option Char} {t : List Char} {n : Nat}
    (h : r.munch? b t = some n) : ∃ p ∈ r.openings, p <+: t := by
  cases r with
  | token k =>
    have hk : k ∈ Kind.reserved := by simpa [early] using hr
    have hwords : ∀ k ∈ Kind.reserved, k.spelling?.isSome = true := by decide
    obtain ⟨w, hw⟩ := Option.isSome_iff_exists.1 (hwords k hk)
    have htake := Kind.take_munch? hw h
    exact ⟨w.toList, by simp [openings, hw], htake ▸ List.take_prefix n t⟩
  | gap g =>
    cases g with
    | layout => exact opening_layout h
    | lineComment =>
      refine ⟨['/', '/'], .head _, ?_⟩
      simp only [munch?, Gap.munch?] at h
      unfold Gap.munchLineComment? at h
      split at h
      · next cs => exact ⟨cs, rfl⟩
      · cases h
    | blockComment =>
      refine ⟨['/', '*'], .head _, ?_⟩
      simp only [munch?, Gap.munch?] at h
      unfold Gap.munchBlockComment? at h
      split at h
      · next cs => exact ⟨cs, rfl⟩
      · cases h
    | classHeader => exact ⟨headerStart, .head _, opening_header h⟩
    | mainHeader => exact ⟨headerStart, .head _, opening_header h⟩

/-! ## The two headers -/

theorem word_after_spaces {w : String} {ps : List Piece} {t : List Char} {n : Nat}
    (h : munchPieces? t (.spaces :: .exactly w :: ps) = some n) :
    w.toList <+: t.drop (t.takeWhile Text.isBlank).length := by
  simp only [munchPieces?, Piece.munch?] at h
  split at h
  · cases h
  · next m hm =>
    split at hm
    · cases hm
    · cases hm
      obtain ⟨l, hl, -⟩ := Option.map_eq_some_iff.1 h
      split at hl
      · cases hl
      · next k hk => exact take_munchExactly? hk ▸ List.take_prefix k _

theorem header_word {w : String} {ps : List Piece} {b : Option Char} {t : List Char} {n : Nat}
    (h : Gap.munchHeader? (.spaces :: .exactly w :: ps) b t = some n) :
    w.toList <+: (t.drop headerStart.length).drop
      ((t.drop headerStart.length).takeWhile Text.isBlank).length := by
  unfold Gap.munchHeader? at h
  split at h
  · obtain ⟨m, hm, -⟩ := Option.map_eq_some_iff.1 h
    exact word_after_spaces hm
  · cases h

/-- A class and its main method have different headers. -/
theorem headers_apart {b : Option Char} {t : List Char} {n m : Nat}
    (hn : (gap .classHeader).munch? b t = some n) (hm : (gap .mainHeader).munch? b t = some m) :
    False := by
  obtain h | h := List.prefix_or_prefix_of_prefix (header_word hn) (header_word hm)
  · exact absurd h (by decide)
  · exact absurd h (by decide)

/-! ## Reserved words and gaps -/

/-- The two rules are the two headers. -/
def areHeaders (r r' : Rule) : Bool :=
  (r == gap .classHeader && r' == gap .mainHeader) ||
    (r == gap .mainHeader && r' == gap .classHeader)

/-- Of the reserved words and gaps, at most one matches at a place. -/
theorem eq_of_early {r r' : Rule} (hr : r ∈ early) (hr' : r' ∈ early) {b : Option Char}
    {t : List Char} {n m : Nat} (hn : r.munch? b t = some n) (hm : r'.munch? b t = some m) :
    r = r' := by
  -- all pairs are compared by their openings
  have hpairs : ∀ r ∈ early, ∀ r' ∈ early, r = r' ∨ areHeaders r r' = true ∨
      ∀ p ∈ r.openings, ∀ q ∈ r'.openings, p.isPrefixOf q = false ∧ q.isPrefixOf p = false := by
    decide
  obtain h | h | h := hpairs r hr r' hr'
  · exact h
  · simp only [areHeaders, Bool.or_eq_true, Bool.and_eq_true, beq_iff_eq] at h
    obtain ⟨rfl, rfl⟩ | ⟨rfl, rfl⟩ := h
    · exact (headers_apart hn hm).elim
    · exact (headers_apart hm hn).elim
  · obtain ⟨p, hp, hpt⟩ := exists_opening hr hn
    obtain ⟨q, hq, hqt⟩ := exists_opening hr' hm
    have hapart := h p hp q hq
    obtain hpq | hqp := List.prefix_or_prefix_of_prefix hpt hqt
    · rw [List.isPrefixOf_iff_prefix.2 hpq] at hapart
      cases hapart.1
    · rw [List.isPrefixOf_iff_prefix.2 hqp] at hapart
      cases hapart.2

/-- Reserved words and gaps may be tried in any order. -/
theorem first?_early {rules : List Rule} (h : ∀ r, r ∈ rules ↔ r ∈ early) (b : Option Char)
    (t : List Char) : first? rules b t = first? early b t := by
  apply first?_congr
  · intro r hr n _
    exact (h r).1 hr
  · intro r hr n _
    exact (h r).2 hr
  · intro r hr r' hr' n m hn hm
    exact eq_of_early ((h r).1 hr) ((h r').1 hr') hn hm

/-- Behind all other patterns, the only new symbol is the single quote. -/
theorem first?_symbols (b : Option Char) (t : List Char) :
    first? (late.map token ++ symbols.map token) b t =
      first? (late.map token ++ [token .singleQuote]) b t := by
  rw [first?_append, first?_append]
  cases hlate : first? (late.map token) b t with
  | some rn => rfl
  | none =>
    have hnone : ∀ k ∈ late, k.munch? b t = none := by
      intro k hk
      have hk' := List.findSome?_eq_none_iff.1 hlate (token k) (List.mem_map_of_mem hk)
      exact Option.map_eq_none_iff.1 hk'
    have hsymbols : ∀ k ∈ symbols, k = .singleQuote ∨ k ∈ late := by decide
    have honly : ∀ r ∈ symbols.map token, ∀ n, r.munch? b t = some n → r = token .singleQuote := by
      intro r hr n hn
      obtain ⟨k, hk, rfl⟩ := List.mem_map.1 hr
      obtain rfl | hk := hsymbols k hk
      · rfl
      · have hn' : k.munch? b t = some n := hn
        rw [hnone k hk] at hn'
        cases hn'
    rw [Option.none_or, Option.none_or]
    apply first?_congr
    · intro r hr n hn
      rw [honly r hr n hn]
      exact .head _
    · intro r hr n _
      obtain rfl : r = token .singleQuote := by simpa using hr
      decide
    · intro r hr r' hr' n m hn hm
      rw [honly r hr n hn, honly r' hr' m hm]

/-- The order of the gaps does not matter at any place. -/
theorem first?_inPhases {gaps : List Gap} (hg : gaps.Perm Gap.all) (b : Option Char)
    (t : List Char) : first? (inPhases gaps) b t =
      (first? early b t).or (first? (late.map token ++ [token .singleQuote]) b t) := by
  rw [inPhases_eq, first?_append, first?_early]
  intro r
  simp only [early, Kind.reserved, List.map_append, List.mem_append, List.mem_map, hg.mem_iff,
    or_comm, or_left_comm]

/-- One pass finds the same rule as three phases. -/
theorem first?_inOnePass (b : Option Char) (t : List Char) : first? inOnePass b t =
    (first? early b t).or (first? (late.map token ++ [token .singleQuote]) b t) := by
  rw [inOnePass_eq, first?_append, first?_symbols, first?_early]
  intro r
  simp only [early, Kind.reserved, List.map_append, List.mem_append, or_comm, or_left_comm]

end Rule

/-! ## Whole texts -/

/-- Scan a text by the given rules. -/
def scanBy (rules : List Rule) (source : String) : Scan :=
  scanFrom rules source.toList none 0 source.toList

/-- Rules that agree at every place scan alike. -/
theorem scanFrom_congr {rules rules' : List Rule}
    (h : ∀ b t, Rule.first? rules b t = Rule.first? rules' b t) (source : List Char)
    (b : Option Char) (offset : Nat) (text : List Char) :
    scanFrom rules source b offset text = scanFrom rules' source b offset text := by
  induction hn : text.length using Nat.strongRecOn generalizing b offset text with
  | ind m ih =>
    subst hn
    cases text with
    | nil => rw [scanFrom, scanFrom]
    | cons c cs =>
      cases hf : Rule.first? rules b (c :: cs) with
      | none => rw [scanFrom_stop hf, scanFrom_stop (h b _ ▸ hf)]
      | some rn =>
        obtain ⟨r, n⟩ := rn
        have hf' := h b _ ▸ hf
        have hrest := ih _ (length_drop_first? (by simp) hf) ((c :: cs).take n).getLast?
          (offset + n) _ rfl
        cases r with
        | token k =>
          rw [scanFrom_token (by simp) hf, scanFrom_token (by simp) hf', hrest]
        | gap g =>
          rw [scanFrom_gap (by simp) hf, scanFrom_gap (by simp) hf', hrest]

/-- Scanning gives the same tokens and the same error for every order of the gaps, and also if
all rules are tried in one pass. -/
theorem scan_rule_order (s : String) :
    (∀ gaps : List Gap, gaps.Perm Gap.all → scanBy (Rule.inPhases gaps) s = scan s) ∧
    scanBy Rule.inOnePass s = scan s := by
  have hall : ∀ b t, Rule.first? Rule.all b t = (Rule.first? Rule.early b t).or
      (Rule.first? (Rule.late.map .token ++ [.token .singleQuote]) b t) :=
    Rule.first?_inPhases (.refl Gap.all)
  constructor
  · intro gaps hg
    apply scanFrom_congr
    intro b t
    rw [Rule.first?_inPhases hg, hall]
  · apply scanFrom_congr
    intro b t
    rw [Rule.first?_inOnePass, hall]

/-- Headers before comments and layout, on a text that has all of them. -/
theorem scan_rule_order_reversed :
    Gap.all.reverse.Perm Gap.all ∧
    scanBy (Rule.inPhases Gap.all.reverse) "public class A \x7b // main\n/* in */ int" =
      scan "public class A \x7b // main\n/* in */ int" :=
  ⟨List.reverse_perm _, (scan_rule_order _).1 _ (List.reverse_perm _)⟩

end Offside
