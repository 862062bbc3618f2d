import Offside.Proofs.RuleOrder
import Offside.Proofs.Seam
import Offside.Proofs.Stages

/-!
# Reserved words that are read as identifiers

A reserved word is recognised only where no word character touches it. Where one does, the same
letters are read as an identifier. If it is a character before the word, it belongs to a number:
what other matches end with is no word character, or no identifier goes on behind it (`Severed`).
If it is one behind the word, it is none that an identifier can have, and all that can start with
it is a number. So such an identifier stands beside a number, or the scan is stopped right behind
it (`reserved_beside_numeral`).
-/

namespace Offside

open Gap (Piece munchPieces? classPieces mainPieces)

/-- The kinds of numbers. -/
def Kind.numerals : List Kind := [.number, .floatNumber]

/-- No identifier goes on over the place between the character before it and the text behind it:
where the text starts like part of an identifier, no word character stands before it. -/
def Severed (b : Option Char) (t : List Char) : Prop :=
  ∀ c ∈ t.head?, isIdentifierPart c = true → Text.endsWord b = true

theorem severed_of_endsWord {b : Option Char} (h : Text.endsWord b = true) (t : List Char) :
    Severed b t := fun _ _ _ => h

/-! ## Gaps -/

/-- Whether a header is severed behind a piece, given whether it is before that piece. A piece that
may be empty changes nothing then. -/
def Gap.Piece.seals (sealed : Bool) : Piece → Bool
  | .exactly word => word.toList.getLast?.any fun c => !Text.isWord c
  | .spaces => true
  | .identifier => true
  | .optionalSpaces => sealed
  | .optionalBrace => sealed

theorem endsWord_of_isBlank {c : Char} (h : Text.isBlank c = true) :
    Text.endsWord (some c) = true := by
  have hapart : ∀ i ∈ Text.blanks.intervals, ∀ j ∈ Text.wordChars.intervals,
      i.2 < j.1 ∨ j.2 < i.1 := by decide +kernel
  obtain ⟨i, hi, hle⟩ := Text.CharSet.contains_iff.1 h
  have hnot : Text.isWord c = false := by
    rw [← Bool.not_eq_true, Text.isWord, Text.CharSet.contains_iff]
    intro hmem
    obtain ⟨j, hj, hle'⟩ := hmem
    have := hapart i hi j hj
    omega
  simp [Text.endsWord, hnot]

/-- The word characters of ASCII are those that identifiers have. -/
theorem isIdentifierPart_of_isWord {c : Char} (hc : c.toNat < 0x80) (h : Text.isWord c = true) :
    isIdentifierPart c = true := by
  have hascii : ∀ j ∈ Text.wordChars.intervals.drop 4, 0x80 ≤ j.1 := by decide +kernel
  obtain ⟨i, hi, hle⟩ := Text.CharSet.contains_iff.1 h
  rw [← List.take_append_drop 4 Text.wordChars.intervals, List.mem_append] at hi
  obtain hi | hi := hi
  · have hranges : Text.wordChars.intervals.take 4 =
        [(0x30, 0x39), (0x41, 0x5A), (0x5F, 0x5F), (0x61, 0x7A)] := rfl
    rw [hranges] at hi
    unfold isIdentifierPart Char.isAlphanum Char.isAlpha Char.isUpper Char.isLower Char.isDigit
    simp only [Bool.or_eq_true, Bool.and_eq_true, decide_eq_true_eq, beq_iff_eq,
      UInt32.le_iff_toNat_le]
    simp only [List.mem_cons, List.not_mem_nil, or_false] at hi
    obtain rfl | rfl | rfl | rfl := hi
    · exact .inl (.inr hle)
    · exact .inl (.inl (.inl hle))
    · exact .inr (Char.toNat_inj.1 (by rw [← Nat.le_antisymm hle.1 hle.2]; rfl))
    · exact .inl (.inl (.inr hle))
  · have := hascii i hi
    omega

theorem endsWord_ascii {c : Char} (hc : c.toNat < 0x80) (hp : isIdentifierPart c = false) :
    Text.endsWord (some c) = true := by
  by_contra hword
  have hpart := isIdentifierPart_of_isWord hc (by simpa [Text.endsWord] using hword)
  rw [hp] at hpart
  cases hpart

/-- The last character of some that were taken, or the one before them if none were. -/
def lastOr (u : List Char) (b : Option Char) : Option Char := u.getLast?.or b

theorem lastOr_append (u v : List Char) (b : Option Char) :
    lastOr (u ++ v) b = lastOr v (lastOr u b) := by
  rw [lastOr, lastOr, lastOr, List.getLast?_append, Option.or_assoc]

theorem lastOr_of_ne {u : List Char} (hu : u ≠ []) (b : Option Char) :
    lastOr u b = u.getLast? := by
  obtain ⟨c, hc⟩ := Option.ne_none_iff_exists'.1 (mt List.getLast?_eq_none_iff.1 hu)
  rw [lastOr, hc, Option.some_or]

/-- A run of blank characters is severed from what is behind it, and if it is empty, so is what
stands before it. -/
theorem severed_blanks {b : Option Char} {t : List Char}
    (h : t.takeWhile Text.isBlank = [] → Severed b t) :
    Severed (lastOr (t.take (t.takeWhile Text.isBlank).length) b)
      (t.drop (t.takeWhile Text.isBlank).length) := by
  rw [take_length_takeWhile]
  by_cases hne : t.takeWhile Text.isBlank = []
  · rw [hne]
    exact h hne
  · rw [lastOr_of_ne hne]
    apply severed_of_endsWord
    obtain ⟨c, hc⟩ := Option.ne_none_iff_exists'.1 (mt List.getLast?_eq_none_iff.1 hne)
    rw [hc]
    exact endsWord_of_isBlank (List.mem_takeWhile_imp (List.mem_of_getLast? hc))

theorem severed_identifier {t : List Char} {n : Nat} (h : munchIdentifier? t = some n)
    (b : Option Char) : Severed b (t.drop n) := by
  intro c hc hpart
  cases t with
  | nil => cases h
  | cons d ds =>
    simp only [munchIdentifier?] at h
    split at h
    · cases h
      rw [Nat.add_comm, List.drop_succ_cons] at hc
      rw [head?_behind_takeWhile hc] at hpart
      cases hpart
    · cases h

theorem Gap.Piece.severed {p : Piece} {b : Option Char} {t : List Char} {n : Nat}
    (h : p.munch? t = some n) {sealed : Bool} (hs : sealed = true → Severed b t)
    (hp : p.seals sealed = true) : Severed (lastOr (t.take n) b) (t.drop n) := by
  cases p with
  | exactly word =>
    obtain ⟨c, hc, hword⟩ := (Option.any_eq_true _ _).1 hp
    rw [take_munchExactly? h, lastOr, hc, Option.some_or]
    exact severed_of_endsWord (b := some c) hword _
  | spaces =>
    simp only [Piece.munch?] at h
    split at h
    · cases h
    · next hne =>
      cases h
      exact severed_blanks fun he => absurd (by simp [he]) hne
  | optionalSpaces =>
    cases h
    exact severed_blanks fun _ => hs hp
  | identifier => exact severed_identifier h _
  | optionalBrace =>
    cases h
    split
    · next hbrace =>
      obtain ⟨ds, rfl⟩ := List.head?_eq_some_iff.1 hbrace
      exact severed_of_endsWord (endsWord_ascii (c := '\x7b') (by decide) (by decide)) _
    · exact hs hp

theorem Gap.severed_pieces {ps : List Piece} {b : Option Char} {t : List Char} {n : Nat}
    (h : munchPieces? t ps = some n) {sealed : Bool} (hs : sealed = true → Severed b t)
    (hp : ps.foldl Piece.seals sealed = true) : Severed (lastOr (t.take n) b) (t.drop n) := by
  induction ps generalizing b t n sealed with
  | nil =>
    cases h
    exact hs hp
  | cons p ps ih =>
    simp only [munchPieces?] at h
    split at h
    · cases h
    · next m hm =>
      obtain ⟨l, hl, rfl⟩ := Option.map_eq_some_iff.1 h
      have hrest := ih hl (fun hseal => Piece.severed hm hs hseal) hp
      rwa [← lastOr_append, ← List.take_add, List.drop_drop] at hrest

theorem Gap.severed_header {ps : List Piece} {b : Option Char} {t : List Char} {n : Nat}
    (h : Gap.munchHeader? ps b t = some n) (hp : ps.foldl Piece.seals false = true) :
    Severed (t.take n).getLast? (t.drop n) := by
  have hpos := munchHeader?_pos h
  have hle := munchHeader?_le h
  unfold Gap.munchHeader? at h
  split at h
  · obtain ⟨m, hm, rfl⟩ := Option.map_eq_some_iff.1 h
    have hpieces := severed_pieces (b := lastOr (t.take Gap.headerStart.length) none) hm
      Bool.false_ne_true.elim hp
    rw [← lastOr_append, ← List.take_add, List.drop_drop, lastOr_of_ne] at hpieces
    · exact hpieces
    · rw [← List.length_pos_iff, List.length_take]
      omega
  · cases h

/-- No identifier goes on over the end of a gap. -/
theorem Gap.severed_of_munch? {g : Gap} {b : Option Char} {t : List Char} {n : Nat}
    (h : g.munch? b t = some n) : Severed (t.take n).getLast? (t.drop n) := by
  have hstands := Gap.stands_of_munch? h
  cases g with
  | layout =>
    obtain ⟨hne, hall, -⟩ := hstands
    obtain ⟨c, hc⟩ := Option.ne_none_iff_exists'.1 (mt List.getLast?_eq_none_iff.1 hne)
    rw [hc]
    exact severed_of_endsWord (endsWord_layout (hall c (List.mem_of_getLast? hc))) _
  | lineComment =>
    -- a line feed is behind the comment, if anything is
    obtain ⟨-, -, -, hfeed⟩ := hstands
    intro c hc hpart
    rw [hfeed c hc] at hpart
    exact absurd hpart (by decide)
  | blockComment =>
    obtain ⟨cs, hcs, -, -⟩ := hstands
    rw [hcs]
    rw [← List.cons_append, ← List.cons_append, List.getLast?_append]
    exact severed_of_endsWord (endsWord_ascii (c := '/') (by decide) (by decide)) _
  | classHeader => exact severed_header h (by decide)
  | mainHeader => exact severed_header h (by decide +kernel)

/-! ## Tokens -/

/-- A sign or a literal between quotes ends with no word character. -/
theorem endsWord_of_language {k : Kind} {u : List Char} (h : k.Language u)
    (hk : k ∉ Kind.reserved) (hi : k ≠ .identifier) (hn : k ∉ Kind.numerals) :
    Text.endsWord u.getLast? = true := by
  have hsigns : ∀ k ∈ Kind.all, k ∉ Kind.reserved → k.spelling?.all (fun w =>
      w.toList.getLast?.any fun c => c.toNat < 0x80 && !isIdentifierPart c) = true := by
    decide
  unfold Kind.Language at h
  split at h
  · obtain ⟨body, -, rfl⟩ := h
    rw [← List.cons_append, List.getLast?_concat]
    exact endsWord_ascii (by decide) (by decide)
  · obtain ⟨body, -, rfl⟩ := h
    rw [← List.cons_append, List.getLast?_concat]
    exact endsWord_ascii (by decide) (by decide)
  · exact absurd rfl hi
  · exact absurd (by decide) hn
  · exact absurd (by decide) hn
  · have hlast := hsigns k (Kind.mem_all_of_spelling? h) hk
    rw [h, Option.all_some, String.toList_ofList] at hlast
    obtain ⟨c, hc, hsign⟩ := (Option.any_eq_true _ _).1 hlast
    simp only [Bool.and_eq_true, decide_eq_true_eq, Bool.not_eq_true'] at hsign
    rw [hc]
    exact endsWord_ascii hsign.1 hsign.2

/-- No identifier goes on over the end of a token, unless it is a number. -/
theorem Kind.severed_of_munch? {k : Kind} {b : Option Char} {t : List Char} {n : Nat}
    (h : k.munch? b t = some n) (hn : k ∉ Kind.numerals) :
    Severed (t.take n).getLast? (t.drop n) := by
  have hstands := Kind.stands_of_munch? h
  by_cases hi : k = .identifier
  · subst hi
    exact severed_identifier h _
  by_cases hk : k ∈ Kind.reserved
  · intro c hc hpart
    have hend := (hstands.alone hk).2
    rw [hc, Text.endsWord, isWord_of_isIdentifierPart hpart] at hend
    cases hend
  · exact severed_of_endsWord (endsWord_of_language hstands.language hk hi hn) _

/-! ## What starts with a word character -/

/-- Of the word characters that no identifier has, only numbers start with some. -/
theorem Kind.numeral_of_language {k : Kind} {c : Char} {u : List Char}
    (h : k.Language (c :: u)) (hc : Text.isWord c = true) (hp : isIdentifierPart c = false) :
    k ∈ Kind.numerals := by
  have hforeign : ¬ c.toNat < 0x80 := by
    intro hlt
    rw [isIdentifierPart_of_isWord hlt hc] at hp
    cases hp
  have hsigns : ∀ k ∈ Kind.all, k.spelling?.all (fun w => w.toList.head?.all fun d =>
      d.toNat < 0x80) = true := by decide
  unfold Kind.Language at h
  split at h
  · obtain ⟨body, -, he⟩ := h
    cases he
    exact absurd (by decide) hforeign
  · obtain ⟨body, -, he⟩ := h
    cases he
    exact absurd (by decide) hforeign
  · have hpart := isIdentifierPart_of_mem h c (.head _)
    rw [hp] at hpart
    cases hpart
  · decide
  · decide
  · have hfirst := hsigns _ (Kind.mem_all_of_spelling? h)
    simp [h, hforeign] at hfirst

theorem Gap.Stands.not_isWord {g : Gap} {b e : Option Char} {c : Char} {u : List Char}
    (h : g.Stands b (c :: u) e) (hp : isIdentifierPart c = false) : Text.isWord c = false := by
  have hheader : ∀ ps, ¬ PiecesLanguage (.exactly "public" :: ps) (c :: u) := by
    intro ps hpieces
    generalize hw : c :: u = w at hpieces
    cases hpieces with
    | cons hword _ =>
      rw [show _ = "public".toList from hword] at hw
      cases hw
      exact absurd hp (by decide)
  cases g with
  | layout =>
    have hend := endsWord_layout (h.2.1 c (.head _))
    simpa [Text.endsWord] using hend
  | lineComment =>
    obtain ⟨cs, he, -⟩ := h
    cases he
    simpa [Text.endsWord] using endsWord_ascii (c := '/') (by decide) hp
  | blockComment =>
    obtain ⟨cs, he, -⟩ := h
    cases he
    simpa [Text.endsWord] using endsWord_ascii (c := '/') (by decide) hp
  | classHeader => exact (hheader _ h.2).elim
  | mainHeader => exact (hheader _ h.2).elim

/-- Where a word character stands that no identifier has, only a number can match. -/
theorem Rule.numeral_of_munch? {r : Rule} {b : Option Char} {c : Char} {cs : List Char} {n : Nat}
    (h : r.munch? b (c :: cs) = some n) (hc : Text.isWord c = true)
    (hp : isIdentifierPart c = false) : ∃ k ∈ Kind.numerals, r = .token k := by
  obtain ⟨m, rfl⟩ := Nat.exists_eq_succ_of_ne_zero (Nat.ne_of_gt (Rule.munch?_pos h))
  cases r with
  | token k => exact ⟨k, Kind.numeral_of_language (Kind.stands_of_munch? h).language hc hp, rfl⟩
  | gap g =>
    have hnot := (Gap.stands_of_munch? h).not_isWord hp
    rw [hc] at hnot
    cases hnot

/-! ## Reserved words -/

/-- The text is spelled like a reserved word. -/
def Lexeme.LooksReserved (l : Lexeme) : Prop := ∃ k ∈ Kind.reserved, k.spelling? = some l.text

/-- A reserved word matches wherever no word character touches its letters. -/
theorem Kind.munch?_alone {k : Kind} (hk : k ∈ Kind.reserved) {w : String}
    (hw : k.spelling? = some w) {b : Option Char} {t : List Char} (ht : w.toList <+: t)
    (hb : Text.endsWord b = true) (he : Text.endsWord (t.drop w.toList.length).head? = true) :
    k.munch? b t = some w.toList.length := by
  unfold Kind.munch?
  split
  iterate 5 cases hw
  rw [hw]
  simp only [hk, if_true]
  rw [munchAlone?, List.isPrefixOf_iff_prefix.2 ht, hb, he]
  rfl

/-- Where an identifier is spelled like a reserved word, a word character touches it. -/
theorem Rule.touched_of_first? {b : Option Char} {t : List Char} {n : Nat}
    (h : Rule.first? Rule.all b t = some (.token .identifier, n)) {k : Kind}
    (hk : k ∈ Kind.reserved) (hw : k.spelling? = some (String.ofList (t.take n))) :
    Text.endsWord b = false ∨ Text.endsWord (t.drop n).head? = false := by
  by_contra hnot
  rw [not_or, Bool.not_eq_false, Bool.not_eq_false] at hnot
  obtain ⟨hb, he⟩ := hnot
  have hlen : (t.take n).length = n := List.length_take_of_le (Rule.munch?_le (first?_munch h))
  have hmunch : (Rule.token k).munch? b t = some n := by
    have halone := Kind.munch?_alone hk hw (b := b) (t := t)
    rw [String.toList_ofList, hlen] at halone
    exact halone (List.take_prefix n t) hb he
  -- the reserved words are tried before the identifiers
  rw [show Rule.all = Rule.inPhases Gap.all from rfl, first?_inPhases (.refl _)] at h
  have hearly : Rule.token k ∈ Rule.early := List.mem_append_left _ (List.mem_map_of_mem hk)
  obtain ⟨r, m, hr⟩ := exists_first? hearly hmunch
  rw [hr] at h
  cases h
  exact absurd (first?_mem hr) (by decide)

theorem severed_start {b : Option Char} {t : List Char} {n : Nat}
    (hn : munchIdentifier? t = some n) (h : Severed b t) : Text.endsWord b = true := by
  cases t with
  | nil => cases hn
  | cons c cs =>
    have hpos := munchIdentifier?_pos hn
    obtain ⟨m, rfl⟩ := Nat.exists_eq_succ_of_ne_zero (Nat.ne_of_gt hpos)
    exact h c rfl (isIdentifierPart_of_mem (isIdentifier_of_munch? hn) c (by simp))

/-- A word character behind an identifier is one that no identifier has. -/
theorem not_isIdentifierPart_behind {t : List Char} {n : Nat} (hn : munchIdentifier? t = some n)
    {c : Char} (hc : (t.drop n).head? = some c) (hword : Text.isWord c = true) :
    isIdentifierPart c = false := by
  by_contra hpart
  have hend := severed_identifier hn (some c) c hc (by simpa using hpart)
  simp [Text.endsWord, hword] at hend

/-- A number starts with a digit. -/
theorem Kind.isDecimal_of_numeral {k : Kind} (hk : k ∈ Kind.numerals) {c : Char} {u : List Char}
    (h : k.Language (c :: u)) : Text.isDecimal c = true := by
  simp only [Kind.numerals, List.mem_cons, List.not_mem_nil, or_false] at hk
  obtain rfl | rfl := hk
  · exact Numeral.isDecimal_head h
  · obtain ⟨ds, suffix, hds, -, he⟩ := h
    obtain ⟨d, ds, rfl, hd⟩ := hds.exists_cons
    cases he
    exact hd

/-! ## Stages -/

section Stages

variable {source : List Char} {a : Nat} {ts us vs : List Token} {t : Token}

/-- At every stage of a scan, no identifier goes on over the place, or a number ends there. -/
theorem Reaches.severed (h : Reaches source 0 ts a) :
    Severed (charBefore source a) (source.drop a) ∨
      ∃ u ∈ ts.getLast?, u.kind ∈ Kind.numerals ∧ u.stop = a := by
  induction h with
  | start => exact .inl (severed_of_endsWord rfl _)
  | gap h hf ih =>
    left
    rw [charBefore_firstAt hf, ← List.drop_drop]
    exact Gap.severed_of_munch? (Rule.first?_munch hf)
  | @token ts a n k h hf ih =>
    by_cases hk : k ∈ Kind.numerals
    · right
      exact ⟨Token.cut source k a n, by simp, hk, Token.stop_cut hf⟩
    · left
      rw [charBefore_firstAt hf, ← List.drop_drop]
      exact Kind.severed_of_munch? (Rule.first?_munch hf) hk

/-- Where a word character stands that no identifier has, a scan goes on with a number or is
stopped. -/
theorem numeral_or_error {c : Char} (hc : source[a]? = some c) (hword : Text.isWord c = true)
    (hpart : isIdentifierPart c = false) :
    (Text.isDecimal c = true ∧ ∃ v ∈ (scanAt source a).tokens.head?, v.kind ∈ Kind.numerals ∧
      v.start = a ∧ v.text.toList.head? = some c) ∨
    ∃ e ∈ (scanAt source a).error, e.offset = a := by
  cases hf : firstAt source a with
  | none =>
    right
    rw [scanAt_stop hc hf]
    exact ⟨_, rfl, rfl⟩
  | some rn =>
    left
    obtain ⟨r, n⟩ := rn
    have hmunch := Rule.first?_munch hf
    rw [drop_eq_cons hc] at hmunch
    obtain ⟨k, hk, rfl⟩ := Rule.numeral_of_munch? hmunch hword hpart
    obtain ⟨m, rfl⟩ := Nat.exists_eq_succ_of_ne_zero (Nat.ne_of_gt (firstAt_bounds hf).1)
    have hdecimal := Kind.isDecimal_of_numeral hk (Kind.language_of_munch? hmunch)
    rw [scanAt_token hf]
    exact ⟨hdecimal, _, rfl, hk, rfl, by simp [Token.cut, drop_eq_cons hc]⟩

/-- An identifier that is spelled like a reserved word stands right behind a number, or a word
character that no identifier has stands right behind it. -/
theorem beside_reserved (h : (scanAt source 0).tokens = us ++ t :: vs) (hk : t.kind = .identifier)
    (hw : t.lexeme.LooksReserved) :
    (∃ u ∈ us.getLast?, u.kind ∈ Kind.numerals ∧ u.stop = t.start) ∨
    ∃ c, source[t.stop]? = some c ∧ Text.isWord c = true ∧ isIdentifierPart c = false := by
  have heof : t.kind ≠ .eof := by simp [hk]
  obtain ⟨hstage, hmade⟩ := stage_of_tokens (Nat.zero_le _) h heof
  have hfirst := hmade.first
  rw [hk] at hfirst
  have hmunch : munchIdentifier? (source.drop t.start) = some t.text.length :=
    Rule.first?_munch hfirst
  obtain ⟨k, hreserved, hspelled⟩ := hw
  have htext : String.ofList ((source.drop t.start).take t.text.length) = t.text := by
    rw [hmade.text_eq, String.ofList_toList]
  rw [Token.lexeme_text, ← htext] at hspelled
  obtain hbefore | hbehind := Rule.touched_of_first? hfirst hreserved hspelled
  · left
    obtain hsevered | hnumeral := hstage.severed
    · -- an identifier starts here, so nothing touches it from before
      have hend := severed_start hmunch hsevered
      rw [hbefore] at hend
      cases hend
    · exact hnumeral
  · right
    cases hc : ((source.drop t.start).drop t.text.length).head? with
    | none =>
      rw [hc] at hbehind
      cases hbehind
    | some c =>
      have hword : Text.isWord c = true := by
        rw [hc] at hbehind
        simpa [Text.endsWord] using hbehind
      have hpart := not_isIdentifierPart_behind hmunch hc hword
      rw [head?_drop_drop] at hc
      exact ⟨c, hc, hword, hpart⟩

end Stages

/-- Between two lexemes that are no numbers, an identifier is not spelled like a reserved word. -/
theorem not_looksReserved {s : String} {ls : List Lexeme}
    (h : lexemesOf? none s.toList = some ls) {x l y : Lexeme} (hin : [x, l, y] <:+: ls)
    (hx : x.kind ∉ Kind.numerals) (hy : y.kind ∉ Kind.numerals) (hl : l.kind = .identifier) :
    ¬ l.LooksReserved := by
  intro hw
  have hscan : (scanAt s.toList 0).lexemes? = some ls :=
    (lexemes?_scanFrom s.toList none 0 s.toList).trans h
  obtain ⟨herror, rfl⟩ := Scan.lexemes?_eq_some_iff.1 hscan
  -- the three lexemes are those of three tokens
  obtain ⟨as, bs, hsplit⟩ := hin
  rw [List.append_assoc, eq_comm] at hsplit
  obtain ⟨ts, us, htokens, -, hus⟩ := List.map_eq_append_iff.1 hsplit
  obtain ⟨t, vs, rfl, rfl, hvs⟩ := List.map_eq_cons_iff.1 hus
  obtain ⟨u, ws, rfl, rfl, hws⟩ := List.map_eq_cons_iff.1 hvs
  obtain ⟨v, xs, rfl, rfl, -⟩ := List.map_eq_cons_iff.1 hws
  rw [List.append_cons] at htokens
  have hkind : u.kind ≠ .eof := by
    rw [show u.kind = .identifier from hl]
    decide
  obtain ⟨hbehind, herror'⟩ := tokens_behind (Nat.zero_le _) htokens hkind
  obtain ⟨t', ht', hnumeral, -⟩ | ⟨c, hc, hword, hpart⟩ := beside_reserved htokens hl hw
  · rw [List.getLast?_concat] at ht'
    cases ht'
    exact hx hnumeral
  · obtain ⟨-, v', hv', hnumeral, -⟩ | ⟨e, he, -⟩ := numeral_or_error hc hword hpart
    · rw [← hbehind] at hv'
      cases hv'
      exact hy hnumeral
    · rw [← herror', herror] at he
      cases he

/-- An identifier that is spelled like a reserved word stands right behind a number, or right
before a word character outside ASCII. With that character the scan goes on with a number whose
first digit it is, or is stopped by it. -/
theorem reserved_beside_numeral {s : String} {t : Token} (ht : t ∈ (scan s).tokens)
    (hk : t.kind = .identifier) (hw : t.lexeme.LooksReserved) :
    (∃ u ∈ (scan s).tokens, u.kind ∈ Kind.numerals ∧ u.stop = t.start) ∨
    ∃ c, s.toList[t.stop]? = some c ∧ Text.isWord c = true ∧ 0x80 ≤ c.toNat ∧
      ((Text.isDecimal c = true ∧ ∃ v ∈ (scan s).tokens, v.kind ∈ Kind.numerals ∧
          v.start = t.stop ∧ v.text.toList.head? = some c) ∨
        ∃ e, (scan s).error = some e ∧ e.offset = t.stop) := by
  obtain ⟨us, vs, hsplit⟩ := List.append_of_mem ht
  obtain ⟨u, hu, hnumeral, hstop⟩ | ⟨c, hc, hword, hpart⟩ := beside_reserved hsplit hk hw
  · left
    rw [hsplit]
    exact ⟨u, List.mem_append_left _ (List.mem_of_getLast? hu), hnumeral, hstop⟩
  · right
    have hforeign : 0x80 ≤ c.toNat := by
      by_contra hlt
      rw [isIdentifierPart_of_isWord (by omega) hword] at hpart
      cases hpart
    obtain ⟨hbehind, herror⟩ := tokens_behind (Nat.zero_le _) hsplit (by simp [hk])
    refine ⟨c, hc, hword, hforeign, ?_⟩
    obtain ⟨hdecimal, v, hv, hnumeral, hstart, hhead⟩ | ⟨e, he, hoffset⟩ :=
      numeral_or_error hc hword hpart
    · left
      rw [← hbehind] at hv
      have hmem : v ∈ us ++ t :: vs :=
        List.mem_append_right _ (.tail _ (List.mem_of_mem_head? hv))
      exact ⟨hdecimal, v, hsplit ▸ hmem, hnumeral, hstart, hhead⟩
    · right
      exact ⟨e, herror.trans he, hoffset⟩

/-- A reserved word that an Arabic digit touches from behind. -/
theorem reserved_beside_numeral_digit : ∃ t : Token, t = ⟨.identifier, "int", 0⟩ ∧
    t ∈ (scan "int\u0663").tokens ∧ t.lexeme.LooksReserved ∧
    ∃ c, "int\u0663".toList[t.stop]? = some c ∧ Text.isWord c = true ∧ 0x80 ≤ c.toNat ∧
      ((Text.isDecimal c = true ∧ ∃ v ∈ (scan "int\u0663").tokens, v.kind ∈ Kind.numerals ∧
          v.start = t.stop ∧ v.text.toList.head? = some c) ∨
        ∃ e, (scan "int\u0663").error = some e ∧ e.offset = t.stop) := by
  have hscan : scan "int\u0663" =
      ⟨[⟨.identifier, "int", 0⟩, ⟨.number, "\u0663", 3⟩, Token.eof 4], none⟩ := by
    have hwithin : scanWithin Rule.all "int\u0663".toList 4 none 0 "int\u0663".toList =
        some (scan "int\u0663") := scanWithin_eq _ _ (by decide) none 0
    exact Option.some.inj (hwithin.symm.trans (by decide))
  have hmem : (⟨.identifier, "int", 0⟩ : Token) ∈ (scan "int\u0663").tokens := by simp [hscan]
  have hw : (Token.lexeme ⟨.identifier, "int", 0⟩).LooksReserved := ⟨.intType, by decide, rfl⟩
  refine ⟨_, rfl, hmem, hw, (reserved_beside_numeral hmem rfl hw).resolve_left ?_⟩
  -- no token ends before the word
  rw [hscan]
  decide

end Offside
