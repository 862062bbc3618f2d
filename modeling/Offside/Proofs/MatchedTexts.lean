import Mathlib.Data.List.TakeWhile
import Offside.Proofs.Languages

/-!
# What a match looks like

The converse of `Offside.Proofs.Languages`: whatever a rule matches is a text of its language,
between a character before it and one behind it that fit. The languages of the kinds are there;
those of the gaps are here. Each kind and each gap has its lemma; `Kind.stands_of_munch?` and
`Gap.stands_of_munch?` put them together.
-/

namespace Offside

open Gap (Piece isLayout munchPieces? classPieces mainPieces headerStart)

/-! ## Languages of gaps -/

/-- The texts of a piece of a header. -/
def Gap.Piece.Language : Piece → List Char → Prop
  | .exactly word, u => u = word.toList
  | .spaces, u => u ≠ [] ∧ ∀ c ∈ u, Text.isBlank c = true
  | .optionalSpaces, u => ∀ c ∈ u, Text.isBlank c = true
  | .identifier, u => isIdentifier u = true
  | .optionalBrace, u => u = [] ∨ u = ['\x7b']

/-- The texts of several pieces, one after the other. -/
inductive Gap.PiecesLanguage : List Piece → List Char → Prop
  | nil : PiecesLanguage [] []
  | cons {p : Piece} {ps : List Piece} {u v : List Char} (hp : p.Language u)
      (h : PiecesLanguage ps v) : PiecesLanguage (p :: ps) (u ++ v)

/-- The text is a gap between the characters before and behind it. Layout is taken as a whole, a
comment goes to the end of its line or to the first mark that closes it, and a header starts where
a word may start. -/
def Gap.Stands (before : Option Char) (u : List Char) (behind : Option Char) : Gap → Prop
  | .layout => u ≠ [] ∧ (∀ c ∈ u, isLayout c = true) ∧ ∀ c ∈ behind, isLayout c = false
  | .lineComment =>
    ∃ cs, u = '/' :: '/' :: cs ∧ '\n' ∉ cs ∧ ∀ c ∈ behind, c = '\n'
  | .blockComment =>
    ∃ cs, u = '/' :: '*' :: (cs ++ ['*', '/']) ∧ '\n' ∉ cs ∧ ¬ ['*', '/'] <:+: cs
  | .classHeader =>
    Text.endsWord before = true ∧ PiecesLanguage (.exactly "public" :: classPieces) u
  | .mainHeader =>
    Text.endsWord before = true ∧ PiecesLanguage (.exactly "public" :: mainPieces) u

/-- The text is of the kind, between the characters before and behind it: no word character touches
a reserved word. -/
structure Kind.Stands (k : Kind) (before : Option Char) (u : List Char) (behind : Option Char) :
    Prop where
  language : k.Language u
  alone : k ∈ Kind.reserved → Text.endsWord before = true ∧ Text.endsWord behind = true

/-! ## Runs of characters -/

theorem take_length_takeWhile (p : Char → Bool) (t : List Char) :
    t.take (t.takeWhile p).length = t.takeWhile p :=
  (List.prefix_iff_eq_take.1 (List.takeWhile_prefix p)).symm

/-- A run ends before a character that is not of it. -/
theorem head?_behind_takeWhile {p : Char → Bool} {t : List Char} {c : Char}
    (h : c ∈ (t.drop (t.takeWhile p).length).head?) : p c = false := by
  induction t with
  | nil => cases h
  | cons d t ih =>
    cases hd : p d with
    | true =>
      rw [List.takeWhile_cons_of_pos hd, List.length_cons, List.drop_succ_cons] at h
      exact ih h
    | false =>
      rw [List.takeWhile_cons_of_neg (by simp [hd])] at h
      cases h
      exact hd

/-! ## Kinds -/

theorem isIdentifier_of_munch? {t : List Char} {n : Nat} (h : munchIdentifier? t = some n) :
    isIdentifier (t.take n) = true := by
  cases t with
  | nil => cases h
  | cons c cs =>
    simp only [munchIdentifier?] at h
    split at h
    · next hc =>
      cases h
      rw [Nat.add_comm, List.take_succ_cons, take_length_takeWhile]
      simp [isIdentifier, hc, List.all_takeWhile]
    · cases h

theorem stringBody_of_munch? {t : List Char} {n : Nat} (h : munchStringRest? t = some n) :
    ∃ body, StringBody body ∧ t.take n = body ++ ['\x22'] := by
  fun_induction munchStringRest? t generalizing n with
  | case1 => cases h
  | case2 =>
    cases h
    exact ⟨[], .nil, rfl⟩
  | case3 => cases h
  | case4 => cases h
  | case5 _ _ hfeed _ ih =>
    obtain ⟨m, hm, rfl⟩ := Option.map_eq_some_iff.1 h
    obtain ⟨body, hbody, htake⟩ := ih hm
    exact ⟨_, .escape hfeed hbody, by simp [htake]⟩
  | case6 _ _ hquote hslash ih =>
    obtain ⟨m, hm, rfl⟩ := Option.map_eq_some_iff.1 h
    obtain ⟨body, hbody, htake⟩ := ih hm
    exact ⟨_, .plain hquote hslash hbody, by simp [htake]⟩

theorem string_of_munch? {t : List Char} {n : Nat} (h : munchString? t = some n) :
    Kind.string.Language (t.take n) := by
  cases t with
  | nil => cases h
  | cons c cs =>
    simp only [munchString?] at h
    split at h
    · next hc =>
      obtain ⟨m, hm, rfl⟩ := Option.map_eq_some_iff.1 h
      obtain ⟨body, hbody, htake⟩ := stringBody_of_munch? hm
      exact ⟨body, hbody, by rw [List.take_succ_cons, htake, hc]⟩
    · cases h

theorem char_of_munch? {t : List Char} {n : Nat} (h : munchChar? t = some n) :
    Kind.charLiteral.Language (t.take n) := by
  unfold munchChar? at h
  split at h
  · next c rest =>
    split at h
    · cases h
    · next hc =>
      cases h
      exact ⟨['\\', c], .escape hc, rfl⟩
  · next c rest _ =>
    split at h
    · cases h
    · next hc =>
      cases h
      simp only [Bool.or_eq_true, decide_eq_true_eq, not_or] at hc
      exact ⟨[c], .plain hc.1 hc.2, rfl⟩
  · cases h

theorem digits_takeWhile {t : List Char} (h : (t.takeWhile Text.isDecimal).length ≠ 0) :
    Digits (t.takeWhile Text.isDecimal) :=
  ⟨fun he => h (by simp [he]), fun _ hd => List.mem_takeWhile_imp hd⟩

theorem numeral_of_munch? {t : List Char} {n : Nat} (h : munchNumber? t = some n) :
    Numeral (t.take n) := by
  simp only [munchNumber?] at h
  split at h
  · cases h
  · next hwhole =>
    have hdigits := digits_takeWhile hwhole
    split at h
    · next rest hrest =>
      split at h
      · cases h
        rw [take_length_takeWhile]
        exact .whole hdigits
      · next hfraction =>
        cases h
        rw [Nat.add_assoc, List.take_add, hrest, take_length_takeWhile, Nat.add_comm 1,
          List.take_succ_cons, take_length_takeWhile]
        exact .fraction hdigits (digits_takeWhile hfraction)
    · cases h
      rw [take_length_takeWhile]
      exact .whole hdigits

theorem float_of_munch? {t : List Char} {n : Nat} (h : munchFloat? t = some n) :
    Kind.floatNumber.Language (t.take n) := by
  simp only [munchFloat?] at h
  split at h
  · cases h
  · next m hm =>
    split at h
    · next c rest hrest =>
      split at h
      · next hc =>
        cases h
        simp only [Bool.or_eq_true, decide_eq_true_eq] at hc
        exact ⟨t.take m, c, numeral_of_munch? hm, hc, by rw [List.take_add, hrest]; rfl⟩
      · cases h
    · cases h

/-- A match is a text of its kind. -/
theorem Kind.language_of_munch? {k : Kind} {b : Option Char} {t : List Char} {n : Nat}
    (h : k.munch? b t = some n) : k.Language (t.take n) := by
  cases hw : k.spelling? with
  | some w =>
    rw [Kind.take_munch? hw h]
    exact Kind.language_of_spelling? hw
  | none =>
    unfold Kind.munch? at h
    split at h
    · exact string_of_munch? h
    · exact char_of_munch? h
    · exact isIdentifier_of_munch? h
    · exact float_of_munch? h
    · exact numeral_of_munch? h
    · rw [hw] at h
      cases h

theorem alone_of_munchAlone? {word t : List Char} {b : Option Char} {n : Nat}
    (h : munchAlone? word b t = some n) :
    Text.endsWord b = true ∧ Text.endsWord (t.drop n).head? = true := by
  have hn := munchAlone?_eq h
  subst hn
  unfold munchAlone? at h
  split at h
  · next hc =>
    simp only [Bool.and_eq_true] at hc
    exact ⟨hc.1.2, hc.2⟩
  · cases h

theorem Kind.stands_of_munch? {k : Kind} {b : Option Char} {t : List Char} {n : Nat}
    (h : k.munch? b t = some n) : k.Stands b (t.take n) (t.drop n).head? := by
  refine ⟨Kind.language_of_munch? h, fun hk => ?_⟩
  have hwords : ∀ k ∈ Kind.reserved, k.spelling?.isSome = true := by decide
  obtain ⟨w, hw⟩ := Option.isSome_iff_exists.1 (hwords k hk)
  unfold Kind.munch? at h
  split at h
  iterate 5 cases hw
  rw [hw] at h
  simp only [hk, if_true] at h
  exact alone_of_munchAlone? h

/-- The end of a text is no token of it. -/
theorem Kind.Language.ne_eof {k : Kind} {u : List Char} (h : k.Language u) : k ≠ .eof := by
  intro he
  rw [he] at h
  cases h

/-! ## Layout and comments -/

theorem layout_of_munch? {t : List Char} {n : Nat} (h : Gap.munchLayout? t = some n)
    (b : Option Char) : Gap.layout.Stands b (t.take n) (t.drop n).head? := by
  simp only [Gap.munchLayout?] at h
  split at h
  · cases h
  · next hne =>
    cases h
    rw [take_length_takeWhile]
    refine ⟨fun he => hne (by simp [he]), fun c hc => List.mem_takeWhile_imp hc, fun c hc => ?_⟩
    exact head?_behind_takeWhile hc

theorem lineComment_of_munch? {t : List Char} {n : Nat} (h : Gap.munchLineComment? t = some n)
    (b : Option Char) : Gap.lineComment.Stands b (t.take n) (t.drop n).head? := by
  unfold Gap.munchLineComment? at h
  split at h
  · next cs =>
    cases h
    rw [Nat.add_comm]
    refine ⟨cs.takeWhile (· != '\n'), ?_, fun hm => ?_, fun c hc => ?_⟩
    · simp only [List.take_succ_cons, take_length_takeWhile]
    · simpa using List.mem_takeWhile_imp hm
    · have hstop := head?_behind_takeWhile hc
      simpa using hstop
  · cases h

theorem blockRest_of_munch? {t : List Char} {n : Nat} (h : Gap.munchBlockRest? t = some n) :
    ∃ cs, t.take n = cs ++ ['*', '/'] ∧ '\n' ∉ cs ∧ ¬ ['*', '/'] <:+: cs := by
  fun_induction Gap.munchBlockRest? t generalizing n with
  | case1 => cases h
  | case2 c cs hc =>
    simp only [Bool.and_eq_true, decide_eq_true_eq] at hc
    obtain ⟨rfl, hhead⟩ := hc
    obtain ⟨ds, rfl⟩ := List.head?_eq_some_iff.1 hhead
    cases h
    exact ⟨[], rfl, by simp, by simp⟩
  | case3 => cases h
  | case4 c cs hc hfeed ih =>
    obtain ⟨m, hm, rfl⟩ := Option.map_eq_some_iff.1 h
    obtain ⟨ds, htake, hflat, hopen⟩ := ih hm
    refine ⟨c :: ds, by simp [htake], by simp [hflat, Ne.symm hfeed], fun hinfix => ?_⟩
    obtain hprefix | hinfix := List.infix_cons_iff.1 hinfix
    · -- the comment would have been closed by its first two characters
      obtain ⟨es, he⟩ := hprefix
      obtain ⟨rfl, rfl⟩ : '*' = c ∧ '/' :: es = ds := by simpa using he
      have hhead : cs.head? = some '/' := by
        rw [← List.take_append_drop m cs, htake]
        rfl
      simp [hhead] at hc
    · exact hopen hinfix

theorem blockComment_of_munch? {t : List Char} {n : Nat} (h : Gap.munchBlockComment? t = some n)
    (b e : Option Char) : Gap.blockComment.Stands b (t.take n) e := by
  unfold Gap.munchBlockComment? at h
  split at h
  · obtain ⟨m, hm, rfl⟩ := Option.map_eq_some_iff.1 h
    obtain ⟨cs, htake, hflat, hopen⟩ := blockRest_of_munch? hm
    exact ⟨cs, by simp [htake], hflat, hopen⟩
  · cases h

/-! ## Headers -/

theorem Gap.Piece.language_of_munch? {p : Piece} {t : List Char} {n : Nat}
    (h : p.munch? t = some n) : p.Language (t.take n) := by
  cases p with
  | exactly word => exact take_munchExactly? h
  | spaces =>
    simp only [Piece.munch?] at h
    split at h
    · cases h
    · next hne =>
      cases h
      rw [take_length_takeWhile]
      exact ⟨fun he => hne (by simp [he]), fun c hc => List.mem_takeWhile_imp hc⟩
  | optionalSpaces =>
    cases h
    rw [take_length_takeWhile]
    exact fun c hc => List.mem_takeWhile_imp hc
  | identifier => exact isIdentifier_of_munch? h
  | optionalBrace =>
    cases h
    split
    · next hbrace =>
      obtain ⟨ds, rfl⟩ := List.head?_eq_some_iff.1 hbrace
      exact .inr rfl
    · exact .inl rfl

theorem Gap.piecesLanguage_of_munch? {ps : List Piece} {t : List Char} {n : Nat}
    (h : munchPieces? t ps = some n) : PiecesLanguage ps (t.take n) := by
  induction ps generalizing t n with
  | nil =>
    cases h
    exact .nil
  | cons p ps ih =>
    simp only [munchPieces?] at h
    split at h
    · cases h
    · next m hm =>
      obtain ⟨l, hl, rfl⟩ := Option.map_eq_some_iff.1 h
      rw [List.take_add]
      exact .cons (Piece.language_of_munch? hm) (ih hl)

theorem header_of_munch? {ps : List Piece} {b : Option Char} {t : List Char} {n : Nat}
    (h : Gap.munchHeader? ps b t = some n) :
    Text.endsWord b = true ∧ Gap.PiecesLanguage (.exactly "public" :: ps) (t.take n) := by
  unfold Gap.munchHeader? at h
  split at h
  · next hc =>
    obtain ⟨hword, hbefore⟩ := Bool.and_eq_true_iff.1 hc
    obtain ⟨m, hm, rfl⟩ := Option.map_eq_some_iff.1 h
    rw [List.take_add, take_of_isPrefixOf hword]
    exact ⟨hbefore, .cons rfl (Gap.piecesLanguage_of_munch? hm)⟩
  · cases h

/-! ## All gaps -/

theorem Gap.stands_of_munch? {g : Gap} {b : Option Char} {t : List Char} {n : Nat}
    (h : g.munch? b t = some n) : g.Stands b (t.take n) (t.drop n).head? := by
  cases g with
  | layout => exact layout_of_munch? h b
  | lineComment => exact lineComment_of_munch? h b
  | blockComment => exact blockComment_of_munch? h b _
  | classHeader => exact header_of_munch? h
  | mainHeader => exact header_of_munch? h

end Offside
