import Offside.Proofs.Scanning

/-!
# Where one text ends and another begins

Two texts with a line end between them are scanned as if each stood alone. That is not
so for all texts: a string literal runs over line ends, a header may be spread over
lines, and layout is taken in one piece. It is so if the first text can be scanned
by itself and ends with a semicolon, or if the second starts with a closing
brace (`lexemesOf?_seam`).

Rule by rule, the match at a place in the first text is the same with and without what
follows, but for layout and headers that reach the end of the first text: these may
take the line end with them, and nothing more (`Grows`).
-/

namespace Offside

open Lexeme (eof)
open Gap (Piece)

/-- The first text ends with a semicolon, or the second starts with a closing brace. -/
def Seam (u w : List Char) : Prop := u.getLast? = some ';' ∨ w.head? = some '\x7d'

/-- The second length is the first, or one more than the first where that is all of `m`. -/
def Grows (m : Nat) (x y : Option Nat) : Prop := y = x ∨ x = some m ∧ y = some (m + 1)

theorem seam_drop {u w : List Char} (h : Seam u w) {n : Nat} (hs : ';' ∉ u.take n) :
    Seam (u.drop n) w := by
  rcases h with h | h
  · left
    rw [List.getLast?_drop, if_neg, h]
    intro hle
    rw [List.take_of_length_le hle] at hs
    exact hs (List.mem_of_getLast? h)
  · exact .inr h

theorem Grows.map {m n : Nat} {x y : Option Nat} (h : Grows m x y) :
    Grows (n + m) (x.map (n + ·)) (y.map (n + ·)) := by
  rcases h with rfl | ⟨rfl, rfl⟩
  · exact .inl rfl
  · exact .inr ⟨rfl, rfl⟩

/-! ## Tokens -/

section Layout

variable {c : Char}

theorem takeWhile_seam {p : Char → Bool} (hp : p c = false) (u w : List Char) :
    (u ++ c :: w).takeWhile p = u.takeWhile p := by
  induction u with
  | nil => simp [hp]
  | cons d ds ih => simp only [List.cons_append, List.takeWhile_cons, ih]

theorem isPrefixOf_seam {word : List Char} (h : c ∉ word) (u w : List Char) :
    word.isPrefixOf (u ++ c :: w) = word.isPrefixOf u := by
  induction word generalizing u with
  | nil => simp
  | cons d ds ih =>
    simp only [List.mem_cons, not_or] at h
    cases u with
    | nil => simp [List.isPrefixOf, Ne.symm h.1]
    | cons e es => simp only [List.cons_append, List.isPrefixOf, ih h.2]

theorem munchExactly?_seam {word : List Char} (h : c ∉ word) (u w : List Char) :
    munchExactly? word (u ++ c :: w) = munchExactly? word u := by
  unfold munchExactly?
  rw [isPrefixOf_seam h]

theorem endsWord_layout (hc : Gap.isLayout c = true) : Text.endsWord (some c) = true :=
  Gap.isLayout_elim hc (by decide +kernel)

variable (hc : Gap.isLayout c = true)
include hc

theorem munchAlone?_seam {word : List Char} (h : c ∉ word) (b : Option Char)
    (u w : List Char) : munchAlone? word b (u ++ c :: w) = munchAlone? word b u := by
  unfold munchAlone?
  rw [isPrefixOf_seam h]
  by_cases hp : word.isPrefixOf u = true
  · have hle := length_le_of_take (take_of_isPrefixOf hp)
    have hend : Text.endsWord ((u ++ c :: w).drop word.length).head? =
        Text.endsWord (u.drop word.length).head? := by
      rw [List.drop_append_of_le_length hle]
      cases u.drop word.length with
      | nil => exact endsWord_layout hc
      | cons d ds => rfl
    rw [hend]
  · simp [hp]

theorem munchIdentifier?_seam (u w : List Char) :
    munchIdentifier? (u ++ c :: w) = munchIdentifier? u := by
  have hpart : isIdentifierPart c = false := Gap.isLayout_elim hc (by decide)
  have hstart : isIdentifierStart c = false := Gap.isLayout_elim hc (by decide)
  cases u with
  | nil => simp [munchIdentifier?, hstart]
  | cons d ds => simp only [List.cons_append, munchIdentifier?, takeWhile_seam hpart]

theorem munchNumber?_seam (u w : List Char) :
    munchNumber? (u ++ c :: w) = munchNumber? u := by
  have hd : Text.isDecimal c = false := Gap.isLayout_elim hc (by decide)
  have hdot : c ≠ '.' := Gap.isLayout_elim hc (by decide)
  simp only [munchNumber?, takeWhile_seam hd]
  rw [List.drop_append_of_le_length (length_takeWhile_le _ _)]
  cases u.drop (u.takeWhile Text.isDecimal).length with
  | nil => simp [hdot]
  | cons e es =>
    by_cases he : e = '.'
    · subst he
      simp only [List.cons_append, takeWhile_seam hd]
    · simp [he]

theorem munchFloat?_seam (u w : List Char) :
    munchFloat? (u ++ c :: w) = munchFloat? u := by
  have hsuffix : (c = 'f' || c = 'F') = false := Gap.isLayout_elim hc (by decide)
  simp only [munchFloat?, munchNumber?_seam hc]
  cases hn : munchNumber? u with
  | none => rfl
  | some n =>
    simp only
    rw [List.drop_append_of_le_length (munchNumber?_le hn)]
    cases u.drop n with
    | nil => simp [hsuffix]
    | cons d ds => rfl

end Layout

/-- A character literal is decided by the three characters after its quote. -/
theorem munchChar?_quote (d e : Char) (t : List Char) :
    munchChar? ('\x27' :: d :: e :: t) =
      if d = '\\' ∧ t.head? = some '\x27' then (if e = '\n' then none else some 4)
      else if e = '\x27' ∧ d ≠ '\x27' ∧ d ≠ '\\' then some 3 else none := by
  unfold munchChar?
  split
  · next h => cases h; simp
  · next hne h =>
    cases h
    by_cases hd : d = '\\'
    · have ht : t.head? ≠ some '\x27' := by
        intro ht
        obtain ⟨t', rfl⟩ := List.head?_eq_some_iff.1 ht
        subst hd
        exact hne _ rfl rfl
      simp [hd, ht]
    · by_cases hq : d = '\x27' <;> simp [hd, hq]
  · next hne hne' =>
    have he : e ≠ '\x27' := by rintro rfl; exact hne' _ _ rfl
    have hdt : ¬ (d = '\\' ∧ t.head? = some '\x27') := by
      rintro ⟨rfl, ht⟩
      obtain ⟨t', rfl⟩ := List.head?_eq_some_iff.1 ht
      exact hne _ _ rfl
    simp [he, hdt]

theorem munchChar?_seam {u w : List Char} (h : Seam u w) :
    munchChar? (u ++ '\n' :: w) = munchChar? u := by
  match u, h with
  | [], _ => exact munchChar?_ne (by decide) w
  | [c], h =>
    by_cases hc : c = '\x27'
    · subst hc
      obtain ⟨w, rfl⟩ := List.head?_eq_some_iff.1 (h.resolve_left (by simp))
      exact munchChar?_quote '\n' '\x7d' w
    · rw [munchChar?_ne hc, List.singleton_append, munchChar?_ne hc]
  | [c, d], h =>
    by_cases hc : c = '\x27'
    · subst hc
      rw [List.cons_append, List.singleton_append, munchChar?_quote]
      by_cases hd : d = '\\'
      · subst hd
        rw [h.resolve_left (by simp)]
        simp [munchChar?]
      · simp [hd, munchChar?]
    · rw [List.cons_append, munchChar?_ne hc, munchChar?_ne hc]
  | c :: d :: e :: t, h =>
    by_cases hc : c = '\x27'
    · subst hc
      simp only [List.cons_append, munchChar?_quote]
      cases t <;> simp
    · rw [List.cons_append, munchChar?_ne hc, munchChar?_ne hc]
/-- No token but a string literal depends on what follows the line end. -/
theorem Kind.munch?_seam {k : Kind} (hk : k ≠ .string) (b : Option Char) {u w : List Char}
    (h : Seam u w) : k.munch? b (u ++ '\n' :: w) = k.munch? b u := by
  unfold Kind.munch?
  split
  · exact absurd rfl hk
  · exact munchChar?_seam h
  · exact munchIdentifier?_seam rfl u w
  · exact munchFloat?_seam rfl u w
  · exact munchNumber?_seam rfl u w
  · split
    · rfl
    · next v hv =>
      have hn : '\n' ∉ v.toList := Kind.layout_not_mem rfl hv
      rw [munchAlone?_seam rfl hn, munchExactly?_seam hn]

theorem munchStringRest?_append {u : List Char} {n : Nat} (h : munchStringRest? u = some n)
    (w : List Char) : munchStringRest? (u ++ w) = some n := by
  fun_induction munchStringRest? u generalizing n with
  | case1 => cases h
  | case2 cs =>
    rw [List.cons_append]
    unfold munchStringRest?
    exact h
  | case3 => cases h
  | case4 => cases h
  | case5 e rest he hq ih =>
    obtain ⟨m, hm, rfl⟩ := Option.map_eq_some_iff.1 h
    simp [munchStringRest?, he, ih hm]
  | case6 c cs hq hb ih =>
    obtain ⟨m, hm, rfl⟩ := Option.map_eq_some_iff.1 h
    rw [List.cons_append]
    unfold munchStringRest?
    simp [hq, hb, ih hm]

/-- A string literal that has an end keeps it. -/
theorem munchString?_append {u : List Char} {n : Nat} (h : munchString? u = some n)
    (w : List Char) : munchString? (u ++ w) = some n := by
  cases u with
  | nil => cases h
  | cons c cs =>
    simp only [munchString?] at h
    split at h
    · next hc =>
      obtain ⟨m, hm, rfl⟩ := Option.map_eq_some_iff.1 h
      simp [munchString?, hc, munchStringRest?_append hm]
    · cases h

/-! ## Comments and layout -/

namespace Gap

theorem munchLineComment?_ne {c d : Char} (h : ¬ (c = '/' ∧ d = '/')) (t : List Char) :
    munchLineComment? (c :: d :: t) = none := by
  unfold munchLineComment?
  split
  · next h' => cases h'; exact absurd ⟨rfl, rfl⟩ h
  · rfl

theorem munchBlockComment?_ne {c d : Char} (h : ¬ (c = '/' ∧ d = '*')) (t : List Char) :
    munchBlockComment? (c :: d :: t) = none := by
  unfold munchBlockComment?
  split
  · next h' => cases h'; exact absurd ⟨rfl, rfl⟩ h
  · rfl

theorem munchLineComment?_seam (u w : List Char) :
    munchLineComment? (u ++ '\n' :: w) = munchLineComment? u := by
  match u with
  | [] => rfl
  | [c] => simp [munchLineComment?]
  | c :: d :: cs =>
    have hcs : (cs ++ '\n' :: w).takeWhile (· != '\n') = cs.takeWhile (· != '\n') :=
      takeWhile_seam (by decide) cs w
    by_cases hcd : c = '/' ∧ d = '/'
    · obtain ⟨rfl, rfl⟩ := hcd
      simp only [List.cons_append, munchLineComment?, hcs]
    · rw [List.cons_append, List.cons_append, munchLineComment?_ne hcd, munchLineComment?_ne hcd]

theorem munchBlockRest?_seam (u w : List Char) :
    munchBlockRest? (u ++ '\n' :: w) = munchBlockRest? u := by
  induction u with
  | nil => simp [munchBlockRest?]
  | cons c cs ih =>
    have hhead : (cs ++ '\n' :: w).head? = some '/' ↔ cs.head? = some '/' := by
      cases cs <;> simp
    simp only [List.cons_append, munchBlockRest?, hhead, ih]

theorem munchBlockComment?_seam (u w : List Char) :
    munchBlockComment? (u ++ '\n' :: w) = munchBlockComment? u := by
  match u with
  | [] => rfl
  | [c] => simp [munchBlockComment?]
  | c :: d :: cs =>
    by_cases hcd : c = '/' ∧ d = '*'
    · obtain ⟨rfl, rfl⟩ := hcd
      simp only [List.cons_append, munchBlockComment?, munchBlockRest?_seam]
    · rw [List.cons_append, List.cons_append, munchBlockComment?_ne hcd,
        munchBlockComment?_ne hcd]

theorem not_mem_takeWhile {p : Char → Bool} {c : Char} (h : p c = false) (u : List Char) :
    c ∉ u.takeWhile p := by
  intro hm
  have hp := List.all_eq_true.1 (List.all_takeWhile (p := p) (l := u)) c hm
  rw [h] at hp
  cases hp

theorem take_takeWhile (p : Char → Bool) (u : List Char) :
    u.take (u.takeWhile p).length = u.takeWhile p :=
  (List.prefix_iff_eq_take.1 (List.takeWhile_prefix p)).symm

/-- A run of characters that may hold line ends, but neither a semicolon nor a closing
brace, ends inside the first text or takes all of it and the line end. -/
theorem takeWhile_across {p : Char → Bool} (hs : p ';' = false) (hb : p '\x7d' = false)
    (hn : p '\n' = true) {u w : List Char} (h : Seam u w) :
    (u ++ '\n' :: w).takeWhile p = u.takeWhile p ∨
      u.takeWhile p = u ∧ (u ++ '\n' :: w).takeWhile p = u ++ ['\n'] ∧ w.head? = some '\x7d' := by
  rw [List.takeWhile_append]
  split
  · next hall =>
    have hu : u.takeWhile p = u := (List.takeWhile_prefix p).eq_of_length hall
    rcases h with h | h
    · have hmem : ';' ∈ u.takeWhile p := by
        rw [hu]
        exact List.mem_of_getLast? h
      exact absurd hmem (not_mem_takeWhile hs u)
    · obtain ⟨w, rfl⟩ := List.head?_eq_some_iff.1 h
      exact .inr ⟨hu, by simp [hn, hb], rfl⟩
  · exact .inl rfl

theorem munchLayout?_seam {u w : List Char} (h : Seam u w) (hu : u ≠ []) :
    Grows u.length (munchLayout? u) (munchLayout? (u ++ '\n' :: w)) := by
  have hpos := List.length_pos_iff.2 hu
  rcases takeWhile_across (p := isLayout) rfl rfl rfl h with ht | ⟨ht, ht', _⟩
  · simp only [munchLayout?, ht]
    exact .inl rfl
  · simp only [munchLayout?, ht, ht']
    refine .inr ⟨if_neg (by omega), ?_⟩
    simp

/-! ## Headers -/

/-- The fixed words of a header hold no semicolon, brace or line end. -/
def Piece.plain : Piece → Bool
  | .exactly word =>
    !word.toList.isEmpty && word.toList.all fun c => c != '\n' && c != ';' && c != '\x7d'
  | _ => true

/-- A piece that cannot match white space or nothing. -/
def Piece.firm : Piece → Bool
  | .exactly _ | .identifier => true
  | _ => false

/-- White space that must be there is followed by a word. -/
def wellSpaced : List Piece → Bool
  | .spaces :: p :: ps => p.firm && wellSpaced (p :: ps)
  | [.spaces] => false
  | _ :: ps => wellSpaced ps
  | [] => true

theorem Piece.plain_exactly {word : String} (h : (Piece.exactly word).plain = true) :
    word.toList ≠ [] ∧ '\n' ∉ word.toList ∧ ';' ∉ word.toList ∧ '\x7d' ∉ word.toList := by
  simp only [plain, Bool.and_eq_true, Bool.not_eq_true', List.isEmpty_eq_false_iff,
    List.all_eq_true, bne_iff_ne, ne_eq] at h
  exact ⟨h.1, fun hm => (h.2 _ hm).1.1 rfl, fun hm => (h.2 _ hm).1.2 rfl,
    fun hm => (h.2 _ hm).2 rfl⟩

/-- Before a closing brace a piece matches what it matches at the end of the text. -/
theorem Piece.munch?_brace {p : Piece} (hp : p.plain = true) (t : List Char) :
    p.munch? ('\x7d' :: t) = p.munch? [] := by
  cases p with
  | exactly word =>
    obtain ⟨hne, -, -, hb⟩ := Piece.plain_exactly hp
    have hnil : word.toList.isPrefixOf [] = false := by
      cases hw : word.toList with
      | nil => exact absurd hw hne
      | cons c cs => rfl
    simp [munch?, munchExactly?, isPrefixOf_of_not_mem hne hb t, hnil]
  | spaces => rfl
  | optionalSpaces => rfl
  | identifier => rfl
  | optionalBrace => rfl

theorem Piece.munch?_nil {p : Piece} {n : Nat} (h : p.munch? [] = some n) : n = 0 :=
  Nat.le_zero.1 (Piece.munch?_le h)

theorem munchPieces?_brace {ps : List Piece} (hp : ps.all Piece.plain = true) (t : List Char) :
    munchPieces? ('\x7d' :: t) ps = munchPieces? [] ps := by
  induction ps with
  | nil => rfl
  | cons p ps ih =>
    simp only [List.all_cons, Bool.and_eq_true] at hp
    simp only [munchPieces?, Piece.munch?_brace hp.1 t]
    cases hm : p.munch? [] with
    | none => rfl
    | some n =>
      obtain rfl := Piece.munch?_nil hm
      simp only [List.drop_zero, ih hp.2]

theorem Piece.munch?_firm {p : Piece} (hp : p.plain = true) (hf : p.firm = true) :
    p.munch? [] = none := by
  cases p with
  | exactly word =>
    obtain ⟨hne, -⟩ := Piece.plain_exactly hp
    cases hw : word.toList with
    | nil => exact absurd hw hne
    | cons c cs => simp [munch?, munchExactly?, hw]
  | identifier => rfl
  | spaces => cases hf
  | optionalSpaces => cases hf
  | optionalBrace => cases hf

/-- Before a line end and a closing brace, pieces match what they match at the end of the
text, but optional white space takes the line end. -/
theorem munchPieces?_newline {ps : List Piece} (hp : ps.all Piece.plain = true)
    (hw : wellSpaced ps = true) (t : List Char) :
    Grows 0 (munchPieces? [] ps) (munchPieces? ('\n' :: '\x7d' :: t) ps) := by
  induction ps with
  | nil => exact .inl rfl
  | cons p ps ih =>
    simp only [List.all_cons, Bool.and_eq_true] at hp
    have hblank : ('\n' :: '\x7d' :: t).takeWhile Text.isBlank = ['\n'] := by
      simp [show Text.isBlank '\n' = true from rfl, show Text.isBlank '\x7d' = false from rfl]
    cases p with
    | exactly word =>
      obtain ⟨hne, hn, -⟩ := Piece.plain_exactly hp.1
      have hnil := Piece.munch?_firm hp.1 rfl
      have hline : (Piece.exactly word).munch? ('\n' :: '\x7d' :: t) = none := by
        simp [Piece.munch?, munchExactly?, isPrefixOf_of_not_mem hne hn]
      simp only [munchPieces?, hnil, hline]
      exact .inl rfl
    | identifier => exact .inl rfl
    | spaces =>
      -- the word that must follow is not there
      cases ps with
      | nil => cases hw
      | cons q qs =>
        simp only [wellSpaced, Bool.and_eq_true] at hw
        simp only [List.all_cons, Bool.and_eq_true] at hp
        have hq : munchPieces? [] (q :: qs) = none := by
          simp only [munchPieces?, Piece.munch?_firm hp.2.1 hw.1]
        have hall : (q :: qs).all Piece.plain = true := by simp [hp.2]
        have hbrace := munchPieces?_brace hall t
        rw [hq] at hbrace
        left
        simp only [munchPieces?.eq_def _ (_ :: _ :: _), Piece.munch?, hblank]
        simp [hbrace]
    | optionalSpaces =>
      have hleft : munchPieces? [] (.optionalSpaces :: ps) = munchPieces? [] ps := by
        simp [munchPieces?, Piece.munch?]
      have hright : munchPieces? ('\n' :: '\x7d' :: t) (.optionalSpaces :: ps) =
          (munchPieces? [] ps).map (1 + ·) := by
        simp [munchPieces?, Piece.munch?, hblank, munchPieces?_brace hp.2 t]
      rw [hleft, hright]
      cases hm : munchPieces? [] ps with
      | none => exact .inl rfl
      | some m =>
        obtain rfl : m = 0 := Nat.le_zero.1 (munchPieces?_le hm)
        exact .inr ⟨rfl, rfl⟩
    | optionalBrace =>
      have hw : wellSpaced ps = true := by simpa [wellSpaced] using hw
      have hi := ih hp.2 hw
      simpa [munchPieces?, Piece.munch?] using hi

/-- A piece that ends inside the first text is the same with and without what follows, and
takes no semicolon; white space may take all of the first text and the line end. -/
theorem Piece.munch?_seam {p : Piece} (hp : p.plain = true) {u w : List Char} (h : Seam u w)
    (hu : u ≠ []) :
    (p.munch? (u ++ '\n' :: w) = p.munch? u ∧ ∀ n, p.munch? u = some n → ';' ∉ u.take n) ∨
      (p.munch? u = some u.length ∧ p.munch? (u ++ '\n' :: w) = some (u.length + 1) ∧
        w.head? = some '\x7d') := by
  have hpos := List.length_pos_iff.2 hu
  have hclear : ';' ∉ u.take (u.takeWhile Text.isBlank).length := by
    rw [take_takeWhile]
    exact not_mem_takeWhile rfl u
  cases p with
  | exactly word =>
    obtain ⟨-, hn, hs, -⟩ := Piece.plain_exactly hp
    refine .inl ⟨munchExactly?_seam hn u w, fun n hm => ?_⟩
    rw [take_munchExactly? hm]
    exact hs
  | spaces =>
    rcases takeWhile_across (p := Text.isBlank) rfl rfl rfl h with ht | ⟨ht, ht', hw⟩
    · simp only [munch?, ht]
      refine .inl ⟨trivial, fun n hm => ?_⟩
      split at hm <;> cases hm
      exact hclear
    · simp only [munch?, ht, ht']
      exact .inr ⟨if_neg (by omega), by simp, hw⟩
  | optionalSpaces =>
    rcases takeWhile_across (p := Text.isBlank) rfl rfl rfl h with ht | ⟨ht, ht', hw⟩
    · simp only [munch?, ht]
      refine .inl ⟨trivial, fun n hm => ?_⟩
      cases hm
      exact hclear
    · simp only [munch?, ht, ht']
      exact .inr ⟨trivial, by simp, hw⟩
  | identifier =>
    refine .inl ⟨munchIdentifier?_seam rfl u w, fun n hm => ?_⟩
    obtain ⟨c, cs, rfl⟩ := List.exists_cons_of_ne_nil hu
    simp only [munch?, munchIdentifier?] at hm
    split at hm
    · next hc =>
      cases hm
      rw [Nat.add_comm, List.take_succ_cons, take_takeWhile, List.mem_cons, not_or]
      refine ⟨?_, not_mem_takeWhile rfl cs⟩
      rintro rfl
      cases hc
    · cases hm
  | optionalBrace =>
    obtain ⟨c, cs, rfl⟩ := List.exists_cons_of_ne_nil hu
    refine .inl ⟨rfl, fun n hm => ?_⟩
    simp only [munch?, List.head?_cons, Option.some.injEq] at hm
    split at hm
    · next hc => subst hm; simp [hc]
    · subst hm; simp

/-- The pieces of a header match what they match without what follows, or take all of the
first text and the line end. -/
theorem munchPieces?_seam {ps : List Piece} (hp : ps.all Piece.plain = true)
    (hw : wellSpaced ps = true) {u w : List Char} (h : Seam u w) :
    Grows u.length (munchPieces? u ps) (munchPieces? (u ++ '\n' :: w) ps) := by
  induction ps generalizing u with
  | nil => exact .inl rfl
  | cons p ps ih =>
    by_cases hu : u = []
    · subst hu
      obtain ⟨w, rfl⟩ := List.head?_eq_some_iff.1 (h.resolve_left (by simp))
      exact munchPieces?_newline hp hw w
    simp only [List.all_cons, Bool.and_eq_true] at hp
    have hws : wellSpaced ps = true := by
      cases p <;> cases ps <;> simp_all [wellSpaced]
    rcases Piece.munch?_seam hp.1 h hu with ⟨hm, hs⟩ | ⟨hm, hm', hb⟩
    · simp only [munchPieces?, hm]
      cases hn : p.munch? u with
      | none => exact .inl rfl
      | some n =>
        have hle := Piece.munch?_le hn
        have hi := Grows.map (n := n) (ih hp.2 hws (seam_drop h (hs n hn)))
        rw [List.length_drop, Nat.add_sub_cancel' hle] at hi
        simp only [List.drop_append_of_le_length hle]
        exact hi
    · obtain ⟨w, rfl⟩ := List.head?_eq_some_iff.1 hb
      simp only [munchPieces?, hm, hm', List.drop_length]
      have hd : (u ++ '\n' :: '\x7d' :: w).drop (u.length + 1) = '\x7d' :: w := by simp
      rw [hd, munchPieces?_brace hp.2]
      cases hr : munchPieces? [] ps with
      | none => exact .inl rfl
      | some m =>
        obtain rfl : m = 0 := Nat.le_zero.1 (munchPieces?_le hr)
        exact .inr ⟨rfl, rfl⟩

theorem munchHeader?_seam {ps : List Piece} (hp : ps.all Piece.plain = true)
    (hw : wellSpaced ps = true) (b : Option Char) {u w : List Char} (h : Seam u w) :
    Grows u.length (munchHeader? ps b u) (munchHeader? ps b (u ++ '\n' :: w)) := by
  have hn : '\n' ∉ headerStart := by decide
  simp only [munchHeader?, isPrefixOf_seam hn]
  split
  · next hc =>
    simp only [Bool.and_eq_true] at hc
    have ht := take_of_isPrefixOf hc.1
    have hle := length_le_of_take ht
    have hs : ';' ∉ u.take headerStart.length := by
      rw [ht]
      decide
    have hi := Grows.map (n := headerStart.length) (munchPieces?_seam hp hw (seam_drop h hs))
    rw [List.length_drop, Nat.add_sub_cancel' hle] at hi
    rw [List.drop_append_of_le_length hle]
    exact hi
  · exact .inl rfl

theorem munch?_seam (g : Gap) (b : Option Char) {u w : List Char} (h : Seam u w) (hu : u ≠ []) :
    Grows u.length (g.munch? b u) (g.munch? b (u ++ '\n' :: w)) := by
  cases g with
  | layout => exact munchLayout?_seam h hu
  | lineComment => exact .inl (munchLineComment?_seam u w)
  | blockComment => exact .inl (munchBlockComment?_seam u w)
  | classHeader => exact munchHeader?_seam rfl rfl b h
  | mainHeader => exact munchHeader?_seam rfl rfl b h

end Gap

/-! ## Rules -/

/-- A rule matches what it matches without what follows, or it is a gap that takes all of
the first text and the line end. -/
theorem Rule.munch?_seam {r : Rule} {b : Option Char} {u w : List Char} (h : Seam u w)
    (hu : u ≠ [])
    (hr : r = .token .string → u.head? = some '\x22' → (r.munch? b u).isSome = true) :
    r.munch? b (u ++ '\n' :: w) = r.munch? b u ∨
      ∃ g, r = .gap g ∧ r.munch? b u = some u.length ∧
        r.munch? b (u ++ '\n' :: w) = some (u.length + 1) := by
  cases r with
  | token k =>
    by_cases hk : k = .string
    · subst hk
      obtain ⟨c, cs, rfl⟩ := List.exists_cons_of_ne_nil hu
      by_cases hc : c = '\x22'
      · obtain ⟨n, hn⟩ := Option.isSome_iff_exists.1 (hr rfl (by simp [hc]))
        have hs : munchString? (c :: cs) = some n := hn
        rw [hn]
        exact .inl (munchString?_append hs _)
      · left
        simp [munch?, Kind.munch?, munchString?, hc]
    · exact .inl (Kind.munch?_seam hk b h)
  | gap g =>
    rcases Gap.munch?_seam g b h hu with hg | ⟨hg, hg'⟩
    · exact .inl hg
    · exact .inr ⟨g, rfl, hg, hg'⟩

theorem Rule.first?_grows {rules : List Rule} {b : Option Char} {u v : List Char} {r : Rule}
    {n : Nat} (hall : ∀ r ∈ rules, r.munch? b v = r.munch? b u ∨
      ∃ g, r = .gap g ∧ r.munch? b u = some u.length ∧ r.munch? b v = some (u.length + 1))
    (hf : first? rules b u = some (r, n)) :
    first? rules b v = some (r, n) ∨
      ∃ g, r = .gap g ∧ n = u.length ∧ first? rules b v = some (r, u.length + 1) := by
  induction rules with
  | nil => cases hf
  | cons r₀ rules ih =>
    simp only [first?, List.findSome?_cons] at hf ⊢
    cases hm : r₀.munch? b u with
    | none =>
      rw [hm] at hf
      have hv : r₀.munch? b v = none := by
        rcases hall r₀ (by simp) with he | ⟨g, -, he, -⟩
        · rw [he, hm]
        · rw [hm] at he
          cases he
      rw [hv]
      exact ih (fun r hr => hall r (by simp [hr])) hf
    | some m =>
      rw [hm] at hf
      obtain ⟨rfl, rfl⟩ : r₀ = r ∧ m = n := by simpa using hf
      rcases hall r₀ (by simp) with he | ⟨g, hg, he, he'⟩
      · rw [he, hm]
        exact .inl rfl
      · rw [hm] at he
        cases he
        rw [he']
        exact .inr ⟨g, hg, rfl, rfl⟩

/-- Where some rule matches in the first text, the same rule matches with and without what
follows. -/
theorem Rule.first?_seam {b : Option Char} {u w : List Char} (h : Seam u w) (hu : u ≠ [])
    {r : Rule} {n : Nat} (hf : first? Rule.all b u = some (r, n)) :
    first? Rule.all b (u ++ '\n' :: w) = some (r, n) ∨
      ∃ g, r = .gap g ∧ n = u.length ∧
        first? Rule.all b (u ++ '\n' :: w) = some (r, u.length + 1) := by
  refine first?_grows (fun r' _ => munch?_seam h hu ?_) hf
  rintro rfl hq
  -- a quote is matched by the rule for string literals or not at all
  obtain ⟨cs, rfl⟩ := List.head?_eq_some_iff.1 hq
  have hm := first?_munch hf
  by_cases hr : r = .token .string
  · subst hr
    rw [hm]
    rfl
  · rw [munch?_quote hr] at hm
    cases hm

/-! ## Texts -/

theorem lexemesOf?_before {b b' : Option Char} (h : Text.endsWord b = Text.endsWord b')
    (t : List Char) : lexemesOf? b t = lexemesOf? b' t :=
  congrArg Scan.lexemes? (scanFrom_before h Rule.all [] 0 t)

/-- A line end leaves nothing and separates what stands on its sides. -/
theorem lexemesOf?_newline (b : Option Char) (t : List Char) :
    lexemesOf? b ('\n' :: t) = lexemesOf? none t := by
  rw [lexemesOf?_some (by simp) (Rule.first?_layout rfl b t), List.take_succ_cons,
    List.drop_succ_cons]
  simp only [Rule.lexemesOf, List.nil_append, Option.map_id']
  cases t with
  | nil => simp
  | cons c cs =>
    by_cases hc : Gap.isLayout c = true
    · rw [lexemesOf?_some (by simp) (Rule.first?_layout hc none cs)]
      simp [Rule.lexemesOf, hc, List.getLast?_cons_cons]
    · simp only [List.takeWhile_cons, hc]
      exact lexemesOf?_before (endsWord_layout rfl) _

theorem exists_eof {b : Option Char} {t : List Char} {ls : List Lexeme}
    (h : lexemesOf? b t = some ls) : ∃ ms, ls = ms ++ [eof] := by
  rw [← lexemes?_scanFrom t b 0 t] at h
  unfold Scan.lexemes? at h
  split at h
  · next he =>
    cases h
    obtain ⟨us, m, hus, -⟩ := scanFrom_induction (P := fun _ => True) (fun _ _ _ _ _ => trivial)
      b 0 List.drop_zero he
    exact ⟨us.map Token.lexeme, by rw [hus]; simp⟩
  · cases h

/-- The lexemes of two texts with a line end between them. -/
theorem lexemesOf?_seam {b : Option Char} {u w : List Char} {ls : List Lexeme}
    (hu : lexemesOf? b u = some (ls ++ [eof])) (h : u = [] ∨ Seam u w) :
    lexemesOf? b (u ++ '\n' :: w) = (lexemesOf? none w).map (ls ++ ·) := by
  induction hn : u.length using Nat.strongRecOn generalizing b u ls with
  | ind m ih =>
    subst hn
    by_cases hne : u = []
    · subst hne
      obtain rfl : ls = [] := by simpa using hu
      rw [List.nil_append, lexemesOf?_newline]
      simp
    have hseam := h.resolve_left hne
    cases hf : Rule.first? Rule.all b u with
    | none =>
      rw [lexemesOf?_none hne hf] at hu
      cases hu
    | some rn =>
      obtain ⟨r, n⟩ := rn
      have hle := Rule.munch?_le (Rule.first?_munch hf)
      rw [lexemesOf?_some hne hf] at hu
      obtain ⟨ms, hms, hl⟩ := Option.map_eq_some_iff.1 hu
      obtain ⟨ms, rfl⟩ := exists_eof hms
      rw [← List.append_assoc, List.append_left_inj] at hl
      subst hl
      rcases Rule.first?_seam hseam hne hf with hf' | ⟨g, rfl, rfl, hf'⟩
      · have hrest : u.drop n = [] ∨ Seam (u.drop n) w := by
          rcases hseam with hs | hs
          · by_cases hall : u.length ≤ n
            · exact .inl (List.drop_of_length_le hall)
            · exact .inr (.inl (by rw [List.getLast?_drop, if_neg hall, hs]))
          · exact .inr (.inr hs)
        rw [lexemesOf?_some (by simp) hf', List.take_append_of_le_length hle,
          List.drop_append_of_le_length hle,
          ih _ (length_drop_first? hne hf) hms hrest rfl]
        simp [Function.comp_def]
      · rw [List.drop_length, lexemesOf?_nil] at hms
        obtain rfl : ms = [] := by simpa using hms
        have htake : (u ++ '\n' :: w).take (u.length + 1) = u ++ ['\n'] :=
          List.take_length_add_append 1
        have hdrop : (u ++ '\n' :: w).drop (u.length + 1) = w := by simp
        have hnonempty : u ++ '\n' :: w ≠ [] := by simp
        have hw : lexemesOf? (some '\n') w = lexemesOf? none w :=
          lexemesOf?_before (endsWord_layout rfl) w
        rw [lexemesOf?_some hnonempty hf', htake, hdrop, List.getLast?_concat, hw]
        rfl

end Offside
