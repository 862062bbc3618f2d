import Offside.Proofs.MatchedTexts

/-!
# Tokens and gaps cover a text

The scanner goes through a text in rounds, each of which finds a token or passes over a gap, and
takes at least one character. `Rounds` is a record of such rounds between two positions. Every
scan leaves one (`rounds_scanFrom`), from the start of the text to its end or to the character
that stopped it. From the record everything is read off: the tokens stand at their places, in
order and apart from each other, and only gaps stand before, between and behind them
(`scan_coverage`).
-/

namespace Offside

/-! ## Places in a text -/

/-- The characters of a text from one position up to another. -/
def between (source : List Char) (a b : Nat) : List Char := (source.drop a).take (b - a)

/-- The character before a position. -/
def charBefore (source : List Char) (a : Nat) : Option Char := (source.take a).getLast?

/-- The position at which a token starts. -/
def Token.start (t : Token) : Nat := t.pos.toNat

/-- The position behind a token. -/
def Token.stop (t : Token) : Nat := t.start + t.text.length

/-- The token is a nonempty part of the text at its place, and of its kind there. -/
structure Token.Stands (source : List Char) (t : Token) : Prop where
  pos_eq : t.pos = t.start
  text_ne : t.text ≠ ""
  stop_le : t.stop ≤ source.length
  text_eq : between source t.start t.stop = t.text.toList
  stands : t.kind.Stands (charBefore source t.start) t.text.toList source[t.stop]?

/-- Gaps, one after the other, from one position to another. -/
inductive Gaps (source : List Char) : Nat → Nat → Prop
  | refl (a : Nat) : Gaps source a a
  | cons {a b c : Nat} (g : Gap) (hab : a < b) (hb : b ≤ source.length)
      (hg : g.Stands (charBefore source a) (between source a b) source[b]?)
      (h : Gaps source b c) : Gaps source a c

/-- The position behind the last of some tokens that come after the position `a`. -/
def stopOf (a : Nat) (ts : List Token) : Nat := (ts.getLast?.map Token.stop).getD a

/-- The position of the first of some tokens that come before the position `b`. -/
def startOf (ts : List Token) (b : Nat) : Nat := (ts.head?.map Token.start).getD b

/-- The tokens and gaps between them make up the text up to a position. -/
structure Covered (source : List Char) (ts : List Token) (stop : Nat) : Prop where
  stop_le : stop ≤ source.length
  stands : ∀ t ∈ ts, t.Stands source
  apart : ts.Pairwise fun t u => t.stop ≤ u.start
  gaps : ∀ us vs, ts = us ++ vs → Gaps source (stopOf 0 us) (startOf vs stop)

/-! ## Rounds -/

/-- A record of rounds from one position to another, with the tokens found on the way. -/
inductive Rounds (source : List Char) : Nat → List Token → Nat → Prop
  | last {a b : Nat} (h : Gaps source a b) : Rounds source a [] b
  | token {a b : Nat} {t : Token} {ts : List Token} (hg : Gaps source a t.start)
      (ht : t.Stands source) (h : Rounds source t.stop ts b) : Rounds source a (t :: ts) b

section Rounds

variable {source : List Char} {a b c : Nat} {ts : List Token}

theorem Gaps.le (h : Gaps source a b) : a ≤ b := by
  induction h with
  | refl a => exact Nat.le_refl a
  | cons g hab _ _ _ ih => exact Nat.le_trans (Nat.le_of_lt hab) ih

/-- One more gap in front. -/
theorem Rounds.gap (g : Gap) (hab : a < b) (hb : b ≤ source.length)
    (hg : g.Stands (charBefore source a) (between source a b) source[b]?)
    (h : Rounds source b ts c) : Rounds source a ts c := by
  cases h with
  | last h => exact .last (.cons g hab hb hg h)
  | token h ht hr => exact .token (.cons g hab hb hg h) ht hr

theorem Token.start_le_stop (t : Token) : t.start ≤ t.stop := Nat.le_add_right _ _

theorem Rounds.le_start (h : Rounds source a ts b) : ∀ t ∈ ts, a ≤ t.start := by
  induction h with
  | last h => simp
  | @token a b t ts hg ht h ih =>
    intro u hu
    obtain rfl | hu := List.mem_cons.1 hu
    · exact hg.le
    · have hle := ih u hu
      have := hg.le
      have := t.start_le_stop
      omega

theorem Rounds.stands (h : Rounds source a ts b) : ∀ t ∈ ts, t.Stands source := by
  induction h with
  | last h => simp
  | token hg ht h ih => exact List.forall_mem_cons.2 ⟨ht, ih⟩

/-- No two tokens of a record overlap, and they come in order. -/
theorem Rounds.apart (h : Rounds source a ts b) : ts.Pairwise fun t u => t.stop ≤ u.start := by
  induction h with
  | last h => exact .nil
  | token hg ht h ih => exact .cons h.le_start ih

theorem stopOf_cons (a : Nat) (t : Token) (ts : List Token) :
    stopOf a (t :: ts) = stopOf t.stop ts := by
  cases ts with
  | nil => rfl
  | cons u us =>
    rw [stopOf, stopOf, List.getLast?_cons_cons, List.getLast?_eq_some_getLast (by simp)]
    rfl

/-- Between neighbouring tokens of a record there are gaps only. -/
theorem Rounds.gaps (h : Rounds source a ts b) :
    ∀ us vs, ts = us ++ vs → Gaps source (stopOf a us) (startOf vs b) := by
  induction h with
  | last h =>
    intro us vs he
    obtain ⟨rfl, rfl⟩ := List.append_eq_nil_iff.1 he.symm
    exact h
  | @token a b t ts hg ht h ih =>
    intro us vs he
    cases us with
    | nil =>
      obtain rfl : t :: ts = vs := he
      exact hg
    | cons u us =>
      obtain ⟨rfl, hts⟩ := List.cons.inj he
      rw [stopOf_cons]
      exact ih us vs hts

theorem Rounds.covered (h : Rounds source 0 ts b) (hb : b ≤ source.length) :
    Covered source ts b :=
  ⟨hb, h.stands, h.apart, h.gaps⟩

end Rounds

/-! ## One round -/

section Round

variable {source : List Char} {a n : Nat}

theorem between_add (source : List Char) (a n : Nat) :
    between source a (a + n) = (source.drop a).take n := by
  rw [between, Nat.add_sub_cancel_left]

theorem head?_drop_drop (source : List Char) (a n : Nat) :
    ((source.drop a).drop n).head? = source[a + n]? := by
  rw [List.drop_drop, List.head?_drop]

/-- The character before the next position is the last one of the match. -/
theorem charBefore_add (hn : 0 < n) (ha : a < source.length) :
    charBefore source (a + n) = ((source.drop a).take n).getLast? := by
  have hne : (source.drop a).take n ≠ [] := by
    rw [← List.length_pos_iff, List.length_take, List.length_drop]
    omega
  rw [charBefore, List.take_add, List.getLast?_append]
  obtain ⟨c, hc⟩ := Option.ne_none_iff_exists'.1 (mt List.getLast?_eq_none_iff.1 hne)
  rw [hc, Option.some_or]

/-- A round that passes over a gap. -/
theorem gap_stands {g : Gap}
    (h : g.munch? (charBefore source a) (source.drop a) = some n) :
    g.Stands (charBefore source a) (between source a (a + n)) source[a + n]? := by
  rw [between_add, ← head?_drop_drop]
  exact Gap.stands_of_munch? h

/-- A round that finds a token. -/
theorem token_stands {k : Kind} (ha : a < source.length)
    (h : k.munch? (charBefore source a) (source.drop a) = some n) :
    Token.Stands source ⟨k, String.ofList ((source.drop a).take n), a⟩ ∧
      Token.stop ⟨k, String.ofList ((source.drop a).take n), a⟩ = a + n := by
  have hle := Kind.munch?_le h
  have hpos := Kind.munch?_pos h
  have hlength : ((source.drop a).take n).length = n := List.length_take_of_le hle
  have hstop : Token.stop ⟨k, String.ofList ((source.drop a).take n), a⟩ = a + n := by
    simp only [Token.stop, Token.start, Int.toNat_natCast, String.length_ofList, hlength]
  refine ⟨⟨rfl, ?_, ?_, ?_, ?_⟩, hstop⟩
  · intro he
    have hempty := congrArg String.length he
    rw [String.length_ofList, hlength] at hempty
    exact Nat.ne_of_gt hpos hempty
  · rw [hstop]
    rw [List.length_drop] at hle
    omega
  · rw [hstop, String.toList_ofList]
    exact between_add source a n
  · rw [hstop, String.toList_ofList, ← head?_drop_drop]
    exact Kind.stands_of_munch? h

end Round

/-! ## Whole scans -/

/-- The position at which a scan of a text of the given length ended. -/
def Scan.stop (s : Scan) (length : Nat) : Nat :=
  match s.error with
  | none => length
  | some e => e.offset

/-- The tokens behind those that were found: the end of the text, if it was reached. -/
def Scan.closing (s : Scan) (length : Nat) : List Token :=
  match s.error with
  | none => [Token.eof length]
  | some _ => []

/-- Every scan leaves a record of its rounds. -/
theorem rounds_scanFrom (source : List Char) {a : Nat} (ha : a ≤ source.length) :
    let s := scanFrom Rule.all source (charBefore source a) a (source.drop a)
    ∃ found, s.tokens = found ++ s.closing source.length ∧ s.stop source.length ≤ source.length ∧
      Rounds source a found (s.stop source.length) := by
  intro s
  induction hm : source.length - a using Nat.strongRecOn generalizing a with
  | ind m ih =>
    subst hm
    by_cases hend : a = source.length
    · have hs : s = ⟨[Token.eof a], none⟩ := by
        simp [s, hend, scanFrom]
      rw [hs, hend]
      exact ⟨[], rfl, Nat.le_refl _, .last (.refl _)⟩
    have hlt : a < source.length := by omega
    obtain ⟨c, cs, htext⟩ : ∃ c cs, source.drop a = c :: cs :=
      List.exists_cons_of_ne_nil (by simpa using hlt)
    have hne : source.drop a ≠ [] := by simp [htext]
    cases hf : Rule.first? Rule.all (charBefore source a) (source.drop a) with
    | none =>
      have hs : s = ⟨[], some ⟨c, lineAt source a, columnAt source a, a⟩⟩ := by
        rw [htext] at hf
        simp only [s, htext, scanFrom_stop hf]
      rw [hs]
      exact ⟨[], rfl, ha, .last (.refl _)⟩
    | some rn =>
      obtain ⟨r, n⟩ := rn
      have hmunch := Rule.first?_munch hf
      have hpos := Rule.munch?_pos hmunch
      have hle := Rule.munch?_le hmunch
      rw [List.length_drop] at hle
      obtain ⟨found, htokens, hstop, hrounds⟩ :=
        ih (source.length - (a + n)) (by omega) (a := a + n) (by omega) rfl
      rw [charBefore_add hpos hlt, ← List.drop_drop] at htokens hstop hrounds
      cases r with
      | gap g =>
        have hs := scanFrom_gap hne hf source a
        simp only [s, hs]
        exact ⟨found, htokens, hstop, .gap g (by omega) (by omega) (gap_stands hmunch) hrounds⟩
      | token k =>
        have hs := scanFrom_token hne hf source a
        obtain ⟨hstands, hend'⟩ := token_stands hlt hmunch
        simp only [s, hs]
        refine ⟨_ :: found, by simp only [Scan.cons, htokens]; rfl, hstop, ?_⟩
        exact .token (.refl a) hstands (hend' ▸ hrounds)

/-! ## Every scan -/

/-- The tokens that a scan finds, and gaps between them, cover the text to its end or up to the
character that stops the scan. If nothing stops it, the end of the text is the last token, and
there is no other such token. A scan ends after at most as many rounds as the text has
characters, since each takes one at least. -/
theorem scan_coverage (s : String) :
    (∃ found, (scan s).tokens = found ++ (scan s).closing s.length ∧
      (∀ t ∈ found, t.kind ≠ .eof) ∧
      Covered s.toList found ((scan s).stop s.length)) ∧
    scanWithin Rule.all s.toList s.length none 0 s.toList = some (scan s) ∧
    ∀ (before : Option Char) (text : List Char) (r : Rule) (n : Nat),
      Rule.first? Rule.all before text = some (r, n) → 0 < n ∧ n ≤ text.length := by
  have hlength : s.toList.length = s.length := String.length_toList
  obtain ⟨found, htokens, hstop, hrounds⟩ := rounds_scanFrom s.toList (Nat.zero_le _)
  rw [hlength] at htokens hstop hrounds
  refine ⟨⟨found, htokens, ?_, hrounds.covered (hlength ▸ hstop)⟩, ?_, ?_⟩
  · intro t ht
    exact (hrounds.stands t ht).stands.language.ne_eof
  · exact scanWithin_eq _ _ (Nat.le_of_eq hlength) none 0
  · intro before text r n h
    exact ⟨Rule.first?_pos h, Rule.munch?_le (Rule.first?_munch h)⟩

end Offside
