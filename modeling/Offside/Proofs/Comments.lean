import Offside.Proofs.LongestMatch

/-!
# Comments between marks

A comment between marks is passed over whole if it stands on one line: what follows is scanned as
if it stood alone, only further to the right (`Scan.shift`). A comment with a line feed in it is no
comment: its first mark is read as two signs, and its text as code (`scan_commented`).
-/

namespace Offside

/-! ## Scans further to the right -/

/-- The token, so many characters further on. -/
def Token.shift (d : Nat) (t : Token) : Token := { t with pos := t.pos + d }

/-- The error, so many characters further on in the same line. A later line has its own columns. -/
def ScanError.shift (d : Nat) (e : ScanError) : ScanError :=
  { e with column := if e.line = 1 then e.column + d else e.column, offset := e.offset + d }

/-- The scan of a text that stands so many characters further on in its first line. -/
def Scan.shift (d : Nat) (s : Scan) : Scan :=
  ⟨s.tokens.map (Token.shift d), s.error.map (ScanError.shift d)⟩

theorem Scan.shift_cons (d : Nat) (t : Token) (s : Scan) :
    (s.cons t).shift d = (s.shift d).cons (t.shift d) := rfl

theorem ne_feed_of_mem_reverse {u : List Char} (h : '\n' ∉ u) :
    ∀ c ∈ u.reverse, (c != '\n') = true := by
  intro c hc
  rw [bne_iff_ne]
  intro he
  rw [he, List.mem_reverse] at hc
  exact h hc

section Shift

variable {lead : List Char} (hlead : '\n' ∉ lead) (source : List Char)

include hlead

theorem lineAt_append (n : Nat) : lineAt (lead ++ source) (n + lead.length) = lineAt source n := by
  rw [lineAt, lineAt, Nat.add_comm n, List.take_length_add_append, List.count_append,
    List.count_eq_zero_of_not_mem hlead, Nat.zero_add]

theorem columnAt_append (n : Nat) : columnAt (lead ++ source) (n + lead.length) =
    if lineAt source n = 1 then columnAt source n + lead.length else columnAt source n := by
  rw [columnAt, columnAt, lineAt, Nat.add_comm n, List.take_length_add_append, List.reverse_append]
  by_cases hfeed : '\n' ∈ source.take n
  · have hcount := List.count_pos_iff.2 hfeed
    obtain ⟨as, row, hsplit, -⟩ := List.eq_append_cons_of_mem (List.mem_reverse.2 hfeed)
    rw [if_neg (by omega), hsplit, List.append_assoc, List.cons_append, takeWhile_seam (by decide),
      takeWhile_seam (by decide)]
  · have hcount := List.count_eq_zero_of_not_mem hfeed
    rw [if_pos (by omega), List.takeWhile_append_of_pos (ne_feed_of_mem_reverse hfeed),
      List.takeWhile_eq_self_iff.2 (ne_feed_of_mem_reverse hlead),
      List.takeWhile_eq_self_iff.2 (ne_feed_of_mem_reverse hfeed), List.length_append,
      List.length_reverse, List.length_reverse]
    omega

/-- Behind a text without a line feed everything is found as far to the right as that text is
long. -/
theorem scanFrom_shift (rules : List Rule) (b : Option Char) (n : Nat) (text : List Char) :
    scanFrom rules (lead ++ source) b (n + lead.length) text =
      (scanFrom rules source b n text).shift lead.length := by
  induction hm : text.length using Nat.strongRecOn generalizing b n text with
  | ind m ih =>
    subst hm
    cases text with
    | nil => simp [scanFrom, Scan.shift, Token.shift, Token.eof]
    | cons c cs =>
      cases hf : Rule.first? rules b (c :: cs) with
      | none =>
        rw [scanFrom_stop hf, scanFrom_stop hf, lineAt_append hlead, columnAt_append hlead]
        rfl
      | some rn =>
        obtain ⟨r, k⟩ := rn
        have hrest := ih _ (length_drop_first? (by simp) hf) ((c :: cs).take k).getLast? (n + k) _
          rfl
        rw [Nat.add_right_comm] at hrest
        cases r with
        | token kind =>
          rw [scanFrom_token (by simp) hf, scanFrom_token (by simp) hf, hrest, Scan.shift_cons]
          simp [Token.shift]
        | gap g => rw [scanFrom_gap (by simp) hf, scanFrom_gap (by simp) hf, hrest]

end Shift

/-! ## Comments over several lines -/

/-- A comment that has a line feed before its closing mark is not matched. -/
theorem munchBlockRest?_feed {cs : List Char} (hfeed : '\n' ∈ cs) (hm : ¬ ['*', '/'] <:+: cs)
    (t : List Char) : Gap.munchBlockRest? (cs ++ t) = none := by
  induction cs with
  | nil => cases hfeed
  | cons c cs ih =>
    have hopen : ¬ ['*', '/'] <:+: cs := fun h => hm (List.infix_cons h)
    rw [List.cons_append, Gap.munchBlockRest?]
    by_cases hc : c = '\n'
    · simp [hc]
    · have hrest : '\n' ∈ cs := (List.mem_cons.1 hfeed).resolve_left (Ne.symm hc)
      obtain ⟨d, ds, rfl⟩ := List.exists_cons_of_ne_nil (List.ne_nil_of_mem hrest)
      have hclosed : ¬ (c = '*' ∧ d = '/') := by
        intro h
        obtain ⟨rfl, rfl⟩ := h
        exact hm ⟨[], ds, rfl⟩
      rw [if_neg (by simpa using hclosed), if_neg hc, ih hrest hopen]
      rfl

/-- A slash that starts no comment is a sign. -/
theorem first?_divide {t : List Char} (hline : t.head? ≠ some '/')
    (hblock : Gap.munchBlockComment? ('/' :: t) = none) (b : Option Char) :
    Rule.first? Rule.all b ('/' :: t) = some (.token .divide, 1) := by
  refine Rule.first?_of_opens (munch?_reserved_foreign (by decide) b t) (fun g => ?_)
    (by decide) (by decide) rfl
  cases g with
  | layout => rfl
  | lineComment =>
    refine munchLineComment?_none ?_
    cases t with
    | nil => rfl
    | cons d t =>
      have hd : d ≠ '/' := by simpa using hline
      simp [List.isPrefixOf, Ne.symm hd]
  | blockComment => exact hblock
  | classHeader => rfl
  | mainHeader => rfl

/-- A star is a sign, whatever follows it. -/
theorem first?_times (b : Option Char) (t : List Char) :
    Rule.first? Rule.all b ('*' :: t) = some (.token .times, 1) := by
  refine Rule.first?_of_opens (munch?_reserved_foreign (by decide) b t) (fun g => ?_)
    (by decide) (by decide) rfl
  cases g <;> rfl

/-- A comment with a line feed in it is read as code, its first mark as two signs. -/
theorem scanFrom_blockComment_feed {cs : List Char} (hfeed : '\n' ∈ cs) (hc : ¬ ['*', '/'] <:+: cs)
    (source : List Char) (b : Option Char) (n : Nat) (t : List Char) :
    scanFrom Rule.all source b n ('/' :: '*' :: (cs ++ '*' :: '/' :: t)) =
      ((scanFrom Rule.all source (some '*') (n + 2) (cs ++ '*' :: '/' :: t)).cons
        ⟨.times, "*", (n + 1 : Nat)⟩).cons ⟨.divide, "/", n⟩ := by
  have hblock : Gap.munchBlockComment? ('/' :: '*' :: (cs ++ '*' :: '/' :: t)) = none := by
    simp [Gap.munchBlockComment?, munchBlockRest?_feed hfeed hc]
  rw [scanFrom_token (List.cons_ne_nil _ _) (first?_divide (by simp) hblock b), List.drop_one,
    List.tail_cons, scanFrom_token (List.cons_ne_nil _ _) (first?_times _ _)]
  rfl

/-! ## Texts behind comments -/

/-- The text `s` behind a comment between marks. -/
def commented (c s : String) : String := "/*" ++ c ++ "*/" ++ s

theorem toList_commented (c s : String) :
    (commented c s).toList = '/' :: '*' :: (c.toList ++ '*' :: '/' :: s.toList) := by
  simp [commented]

/-- A comment on one line is passed over, and what follows is found further to the right. -/
theorem scan_commented_line {c : String} (hn : '\n' ∉ c.toList)
    (hc : ¬ ['*', '/'] <:+: c.toList) (s : String) :
    scan (commented c s) = (scan s).shift (c.length + 4) := by
  have hlead : '\n' ∉ '/' :: '*' :: (c.toList ++ ['*', '/']) := by simp [hn]
  have hlength : ('/' :: '*' :: (c.toList ++ ['*', '/'])).length = c.length + 4 := by
    simp [← String.length_toList]
  have hshift := scanFrom_shift hlead s.toList Rule.all none 0 s.toList
  have hsplit : ('/' :: '*' :: (c.toList ++ ['*', '/'])) ++ s.toList = (commented c s).toList := by
    simp [toList_commented]
  rw [hlength, hsplit] at hshift
  have hword : Text.endsWord (some '/') = Text.endsWord none := by decide +kernel
  have hskip := scanFrom_blockComment (commented c s).toList none 0 hn hc s.toList
  rw [← toList_commented, scanFrom_before hword, String.length_toList, Nat.add_assoc] at hskip
  rw [scan, scan, ← hshift, hskip]

theorem scan_commented_lines {c : String} (hfeed : '\n' ∈ c.toList)
    (hc : ¬ ['*', '/'] <:+: c.toList) (s : String) :
    scan (commented c s) = ((scanFrom Rule.all (commented c s).toList (some '*') 2
      (c.toList ++ '*' :: '/' :: s.toList)).cons ⟨.times, "*", 1⟩).cons ⟨.divide, "/", 0⟩ := by
  have hcode := scanFrom_blockComment_feed hfeed hc (commented c s).toList none 0 s.toList
  rw [← toList_commented] at hcode
  exact hcode

/-- A comment between marks is passed over whole if it has no line feed, and only then. On one
line, all that follows is scanned as if it stood alone: the same tokens, so much further on, and
the same error, if there is one. A comment over several lines is read as code, and its first token
is the slash that starts it. -/
theorem scan_commented (c s : String) (hc : ¬ ['*', '/'] <:+: c.toList) :
    ('\n' ∉ c.toList → scan (commented c s) = (scan s).shift (c.length + 4)) ∧
    ('\n' ∈ c.toList → scan (commented c s) = ((scanFrom Rule.all (commented c s).toList
      (some '*') 2 (c.toList ++ '*' :: '/' :: s.toList)).cons ⟨.times, "*", 1⟩).cons
        ⟨.divide, "/", 0⟩) ∧
    ((scan (commented c s)).tokens = (scan s).tokens.map (Token.shift (c.length + 4)) ∧
      ((scan (commented c s)).error.isSome = true ↔ (scan s).error.isSome = true) ↔
        '\n' ∉ c.toList) := by
  refine ⟨fun hn => scan_commented_line hn hc s, fun hfeed => scan_commented_lines hfeed hc s,
    ?_, ?_⟩
  · intro h hfeed
    have hmem : (⟨.divide, "/", 0⟩ : Token) ∈ (scan (commented c s)).tokens := by
      rw [scan_commented_lines hfeed hc]
      exact .head _
    -- no token of `s` stands before its start
    rw [h.1] at hmem
    obtain ⟨t, ht, he⟩ := List.mem_map.1 hmem
    have hkind : t.kind ≠ .eof := by
      rw [show t.kind = .divide from congrArg Token.kind he]
      decide
    have hpos := (made_of_mem_scanFrom s.toList (Nat.zero_le _) t ht hkind).pos_eq
    have hzero : t.pos + ((c.length + 4 : Nat) : Int) = 0 := congrArg Token.pos he
    omega
  · intro hn
    rw [scan_commented_line hn hc]
    exact ⟨rfl, by simp [Scan.shift]⟩

/-- The statement behind a comment over two lines: the comment's words are tokens too. -/
theorem scan_commented_two_lines :
    ¬ ['*', '/'] <:+: "a\nb".toList ∧
    ¬ ((scan (commented "a\nb" "c;")).tokens = (scan "c;").tokens.map (Token.shift 7) ∧
      ((scan (commented "a\nb" "c;")).error.isSome = true ↔ (scan "c;").error.isSome = true)) :=
  have hc : ¬ ['*', '/'] <:+: "a\nb".toList := by decide
  ⟨hc, fun h => (scan_commented "a\nb" "c;" hc).2.2.1 h (by decide)⟩

end Offside
