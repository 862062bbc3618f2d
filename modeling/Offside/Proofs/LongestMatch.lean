import Offside.Proofs.Layout
import Offside.Proofs.Neighbours

/-!
# The first match is the longest

The scanner takes the first rule that matches and does not compare lengths. Where that rule makes
a token, no other rule would have taken more: a rule behind it that matches too takes at most as
much (`Kind.Tops`). The rules are told apart by the first character of what they match
(`Kind.opens`), except that a number may have a suffix, a character literal starts with a single
quote, and some signs start alike; of these the longer ones come first.

A rule also takes the longest text of its own language that stands at a place, so that nothing
longer of any language stands where a token was found (`scan_longest_match`).
-/

namespace Offside

open Gap (Piece munchPieces? classPieces mainPieces headerStart)

/-! ## First characters -/

/-- The character may be the first of a text of the kind. -/
def Kind.opens (k : Kind) (c : Char) : Bool :=
  match k with
  | .string => c == '\x22'
  | .charLiteral => c == '\x27'
  | .identifier => isIdentifierStart c
  | .floatNumber => Text.isDecimal c
  | .number => Text.isDecimal c
  | k => (k.spelling?.bind fun w => w.toList.head?) == some c

theorem Kind.opens_of_language {k : Kind} {c : Char} {u : List Char} (h : k.Language (c :: u)) :
    k.opens c = true := by
  unfold Kind.Language at h
  split at h
  · obtain ⟨body, -, he⟩ := h
    cases he
    rfl
  · obtain ⟨body, -, he⟩ := h
    cases he
    rfl
  · exact (Bool.and_eq_true_iff.1 h).1
  · exact Numeral.isDecimal_head h
  · obtain ⟨ds, suffix, hds, -, he⟩ := h
    obtain ⟨d, ds, rfl, hd⟩ := hds.exists_cons
    cases he
    exact hd
  · unfold Kind.opens
    split
    iterate 5 cases h
    simp [h]

theorem Kind.opens_of_munch? {k : Kind} {b : Option Char} {c : Char} {t : List Char} {n : Nat}
    (h : k.munch? b (c :: t) = some n) : k.opens c = true := by
  obtain ⟨m, rfl⟩ := Nat.exists_eq_succ_of_ne_zero (Nat.ne_of_gt (Kind.munch?_pos h))
  exact opens_of_language (language_of_munch? h)

theorem not_isDecimal_of_isIdentifierStart {c : Char} (h : isIdentifierStart c = true) :
    Text.isDecimal c = false := by
  rw [← Bool.not_eq_true]
  intro hd
  have hdigit : Text.isDigit c = true := by simp [Text.isDigit, hd]
  rw [isIdentifierStart_of_isDigit hdigit] at h
  cases h

/-! ## Literals, names and signs -/

namespace Rule

/-- The kinds of the rules that are tried last, in order. -/
def lateKinds : List Kind := late ++ [.singleQuote]

/-- The kinds among them that have one spelling. -/
def signs : List Kind := lateKinds.drop 5

theorem lateKinds_eq : lateKinds =
    .string :: .charLiteral :: .identifier :: .floatNumber :: .number :: signs := rfl

/-- No sign starts like a name or a number. -/
theorem opens_sign {k : Kind} (hk : k ∈ signs) {c : Char} (h : k.opens c = true) :
    isIdentifierStart c = false ∧ Text.isDecimal c = false := by
  have hheads : signs.all (fun k => (k.spelling?.bind fun w => w.toList.head?).all
      fun c => !isIdentifierStart c && !Text.isDecimal c) = true := by
    decide
  have hhead : (k.spelling?.bind fun w => w.toList.head?) = some c := by
    unfold Kind.opens at h
    split at h
    iterate 5 exact absurd hk (by decide)
    simpa using h
  have hc := List.all_eq_true.1 hheads k hk
  rw [hhead, Option.all_some] at hc
  simpa using hc

/-- Of these kinds, only identifiers start like one. -/
theorem eq_identifier_of_opens {k : Kind} (hk : k ∈ lateKinds) {c : Char}
    (hc : isIdentifierStart c = true) (h : k.opens c = true) : k = .identifier := by
  have hquote : isIdentifierStart '\x22' = false ∧ isIdentifierStart '\x27' = false := by decide
  rw [lateKinds_eq] at hk
  simp only [List.mem_cons] at hk
  obtain rfl | rfl | rfl | rfl | rfl | hk := hk
  · rw [beq_iff_eq.1 h, hquote.1] at hc
    cases hc
  · rw [beq_iff_eq.1 h, hquote.2] at hc
    cases hc
  · rfl
  · have hd : Text.isDecimal c = true := h
    rw [not_isDecimal_of_isIdentifierStart hc] at hd
    cases hd
  · have hd : Text.isDecimal c = true := h
    rw [not_isDecimal_of_isIdentifierStart hc] at hd
    cases hd
  · rw [(opens_sign hk h).1] at hc
    cases hc

end Rule

/-- Where both kinds match, the second takes no more than the first. -/
def Kind.Tops (k k' : Kind) : Prop :=
  ∀ (b : Option Char) (t : List Char) (n m : Nat),
    k.munch? b t = some n → k'.munch? b t = some m → m ≤ n

/-- Kinds that start differently never match together. -/
theorem Kind.tops_of_opens {k k' : Kind}
    (h : ∀ c, k.opens c = true → k'.opens c = true → False) : k.Tops k' := by
  intro b t n m hn hm
  cases t with
  | nil =>
    have := Kind.munch?_le hm
    simp only [List.length_nil] at this
    omega
  | cons c t => exact (h c (opens_of_munch? hn) (opens_of_munch? hm)).elim

theorem Kind.floatNumber_tops : Kind.floatNumber.Tops .number := by
  intro b t n m hn hm
  have hfloat : munchFloat? t = some n := hn
  have hnumber : munchNumber? t = some m := hm
  simp only [munchFloat?, hnumber] at hfloat
  split at hfloat
  · split at hfloat
    · cases hfloat
      omega
    · cases hfloat
  · cases hfloat

/-- A kind with one spelling matches a text that starts with it. -/
theorem Kind.prefix_of_munch? {k : Kind} {w : String} (hw : k.spelling? = some w)
    {b : Option Char} {t : List Char} {n : Nat} (h : k.munch? b t = some n) :
    w.toList <+: t ∧ n = w.toList.length := by
  have htake := Kind.take_munch? hw h
  constructor
  · rw [← htake]
    exact List.take_prefix n t
  · rw [← htake, List.length_take_of_le (Kind.munch?_le h)]

/-- Of two signs that start alike, the longer comes first. -/
theorem Rule.pairwise_signs : signs.Pairwise Kind.Tops := by
  have hspelled : ∀ k ∈ signs, k.spelling?.isSome = true := by decide
  have horder : signs.Pairwise fun k k' => k.spelling?.all (fun w => k'.spelling?.all fun w' =>
      !(w.toList.isPrefixOf w'.toList)) = true := by
    decide
  rw [List.pairwise_iff_forall_sublist] at horder ⊢
  intro k k' hsub b t n m hn hm
  obtain ⟨w, hw⟩ := Option.isSome_iff_exists.1 (hspelled k (hsub.subset (by simp)))
  obtain ⟨w', hw'⟩ := Option.isSome_iff_exists.1 (hspelled k' (hsub.subset (by simp)))
  obtain ⟨hp, rfl⟩ := Kind.prefix_of_munch? hw hn
  obtain ⟨hp', rfl⟩ := Kind.prefix_of_munch? hw' hm
  obtain hle | hle := List.prefix_or_prefix_of_prefix hp hp'
  · have hnot := horder hsub
    simp [hw, hw', List.isPrefixOf_iff_prefix.2 hle] at hnot
  · exact hle.length_le

/-- The kinds that are tried last: none of them takes more than one before it. -/
theorem Rule.pairwise_lateKinds : lateKinds.Pairwise Kind.Tops := by
  have hstring : ∀ k ∈ lateKinds, k.opens '\x22' = true → k = .string := by decide
  have hquote : ∀ k ∈ lateKinds, k.opens '\x27' = true → k = .charLiteral ∨ k = .singleQuote := by
    decide
  rw [lateKinds_eq]
  refine .cons ?_ (.cons ?_ (.cons ?_ (.cons ?_ (.cons ?_ pairwise_signs))))
  · intro k hk
    refine Kind.tops_of_opens fun c hc hc' => ?_
    rw [beq_iff_eq.1 hc] at hc'
    obtain rfl := hstring k (List.mem_cons_of_mem _ hk) hc'
    exact absurd hk (by decide)
  · intro k hk
    by_cases hq : k = .singleQuote
    · intro b t n m hn hm
      rw [hq] at hm
      obtain ⟨-, rfl⟩ := Kind.prefix_of_munch? (w := "'") rfl hm
      exact Kind.munch?_pos hn
    · refine Kind.tops_of_opens fun c hc hc' => ?_
      rw [beq_iff_eq.1 hc] at hc'
      obtain rfl | hk' := hquote k (List.mem_cons_of_mem _ (List.mem_cons_of_mem _ hk)) hc'
      · exact absurd hk (by decide)
      · exact hq hk'
  · intro k hk
    refine Kind.tops_of_opens fun c hc hc' => ?_
    obtain rfl := eq_identifier_of_opens
      (List.mem_cons_of_mem _ (List.mem_cons_of_mem _ (List.mem_cons_of_mem _ hk))) hc hc'
    exact absurd hk (by decide)
  · intro k hk
    obtain rfl | hk := List.mem_cons.1 hk
    · exact Kind.floatNumber_tops
    · refine Kind.tops_of_opens fun c hc hc' => ?_
      rw [show Kind.floatNumber.opens c = Text.isDecimal c from rfl, (opens_sign hk hc').2] at hc
      cases hc
  · intro k hk
    refine Kind.tops_of_opens fun c hc hc' => ?_
    rw [show Kind.number.opens c = Text.isDecimal c from rfl, (opens_sign hk hc').2] at hc
    cases hc

/-! ## Reserved words -/

/-- An identifier ends before a character that is no part of a word. -/
theorem munchIdentifier?_le_of_endsWord {t : List Char} {m n : Nat}
    (hm : munchIdentifier? t = some m) (hn : Text.endsWord (t.drop n).head? = true) : m ≤ n := by
  have hle := munchIdentifier?_le hm
  by_contra hlt
  have hlength : n < t.length := by omega
  have hpart : isIdentifierPart t[n] = true := by
    refine isIdentifierPart_of_mem (isIdentifier_of_munch? hm) _ ?_
    exact List.mem_take_iff_getElem.2 ⟨n, by omega, rfl⟩
  rw [List.head?_drop, List.getElem?_eq_getElem hlength, Text.endsWord,
    isWord_of_isIdentifierPart hpart] at hn
  cases hn

/-- Where a reserved word matches, the same letters are all that an identifier takes, and nothing
else that is tried later starts with a letter. -/
theorem Rule.reserved_tops {k k' : Kind} (hk : k ∈ Kind.reserved) (hk' : k' ∈ lateKinds) :
    k.Tops k' := by
  have hletters : Kind.reserved.all (fun k => k.spelling?.any fun w =>
      w.toList.head?.any isIdentifierStart) = true := by
    decide
  intro b t n m hn hm
  obtain ⟨w, hw, hletter⟩ := (Option.any_eq_true _ _).1 (List.all_eq_true.1 hletters k hk)
  obtain ⟨c, hc, hstart⟩ := (Option.any_eq_true _ _).1 hletter
  obtain ⟨cs, hcs⟩ := List.head?_eq_some_iff.1 hc
  obtain ⟨⟨rest, rfl⟩, -⟩ := Kind.prefix_of_munch? hw hn
  rw [hcs, List.cons_append] at hm
  obtain rfl := eq_identifier_of_opens hk' hstart (Kind.opens_of_munch? hm)
  refine munchIdentifier?_le_of_endsWord (t := w.toList ++ rest) ?_
    ((Kind.stands_of_munch? hn).alone hk).2
  rw [hcs]
  exact hm

/-! ## The first match -/

/-- In a list of kinds none of which takes more than one before it, the first that matches takes
the most. -/
theorem Rule.munch?_le_of_pairwise {ks : List Kind} (hks : ks.Pairwise Kind.Tops)
    {b : Option Char} {t : List Char} {r : Rule} {n : Nat}
    (h : first? (ks.map token) b t = some (r, n)) {k : Kind} (hk : k ∈ ks) {m : Nat}
    (hm : k.munch? b t = some m) : m ≤ n := by
  induction hks with
  | nil => cases hk
  | @cons k₀ ks htops _ ih =>
    cases hn : k₀.munch? b t with
    | some n₀ =>
      rw [List.map_cons, first?_cons_some (r := token k₀) hn] at h
      cases h
      obtain rfl | hk := List.mem_cons.1 hk
      · rw [hn] at hm
        cases hm
        exact Nat.le_refl n
      · exact htops k hk b t n m hn hm
    | none =>
      rw [List.map_cons, first?_cons_none (r := token k₀) hn] at h
      obtain rfl | hk := List.mem_cons.1 hk
      · rw [hn] at hm
        cases hm
      · exact ih h hk

theorem Rule.first?_all (b : Option Char) (t : List Char) :
    first? Rule.all b t = (first? early b t).or (first? (lateKinds.map token) b t) :=
  first?_inPhases (.refl Gap.all) b t

/-- A reserved word or gap that matches is what is taken. -/
theorem Rule.first?_of_early {r : Rule} (hr : r ∈ early) {b : Option Char} {t : List Char} {n : Nat}
    (h : r.munch? b t = some n) : first? Rule.all b t = some (r, n) := by
  obtain ⟨r', m, hf⟩ := exists_first? hr h
  have hm := first?_munch hf
  obtain rfl := eq_of_early hr (first?_mem hf) h hm
  rw [h] at hm
  cases hm
  rw [first?_all, hf, Option.some_or]

/-- Where no reserved word and no gap matches, and only one kind starts like the text, that kind is
taken. -/
theorem Rule.first?_of_opens {b : Option Char} {c : Char} {t : List Char}
    (hwords : ∀ k ∈ Kind.reserved, k.munch? b (c :: t) = none)
    (hgaps : ∀ g : Gap, g.munch? b (c :: t) = none) {k : Kind} (hk : k ∈ lateKinds)
    (honly : ∀ k' ∈ lateKinds, k'.opens c = true → k' = k) {n : Nat}
    (h : k.munch? b (c :: t) = some n) : first? Rule.all b (c :: t) = some (token k, n) := by
  obtain ⟨r, m, hf⟩ := exists_first? (r := token k) (List.mem_map_of_mem hk) h
  have hm := first?_munch hf
  obtain ⟨k', hk', rfl⟩ := List.mem_map.1 (first?_mem hf)
  obtain rfl := honly k' hk' (Kind.opens_of_munch? hm)
  rw [show k'.munch? b (c :: t) = some m from hm] at h
  cases h
  rw [first?_past hwords hgaps]
  exact hf

theorem Rule.mem_early_or_late {r : Rule} (hr : r ∈ Rule.all) :
    r ∈ early ∨ ∃ k ∈ lateKinds, r = token k := by
  have hrules : ∀ r ∈ Rule.all, r ∈ early ∨ r ∈ lateKinds.map token := by decide
  obtain hearly | hlate := hrules r hr
  · exact .inl hearly
  · obtain ⟨k, hk, rfl⟩ := List.mem_map.1 hlate
    exact .inr ⟨k, hk, rfl⟩

/-- Where the first rule that matches makes a token, no rule takes more. -/
theorem Rule.munch?_le_of_first? {b : Option Char} {t : List Char} {k : Kind} {n : Nat}
    (h : first? Rule.all b t = some (token k, n)) {r : Rule} (hr : r ∈ Rule.all) {m : Nat}
    (hm : r.munch? b t = some m) : m ≤ n := by
  obtain hearly | ⟨k', hk', rfl⟩ := mem_early_or_late hr
  · rw [first?_of_early hearly hm] at h
    cases h
    exact Nat.le_refl n
  · rw [first?_all] at h
    cases hf : first? early b t with
    | none =>
      rw [hf, Option.none_or] at h
      exact munch?_le_of_pairwise pairwise_lateKinds h hk' hm
    | some rn =>
      rw [hf, Option.some_or] at h
      cases h
      have hk : k ∈ Kind.reserved := by simpa [early] using first?_mem hf
      exact reserved_tops hk hk' b t n m (first?_munch hf) hm

/-! ## Every rule takes the longest text of its own -/

theorem length_le_takeWhile {p : Char → Bool} {u : List Char} (hu : ∀ c ∈ u, p c = true)
    (t : List Char) : u.length ≤ ((u ++ t).takeWhile p).length := by
  rw [List.takeWhile_append_of_pos hu, List.length_append]
  omega

theorem munchIdentifier?_longest {u : List Char} (hu : isIdentifier u = true) (t : List Char) :
    ∃ m, munchIdentifier? (u ++ t) = some m ∧ u.length ≤ m := by
  cases u with
  | nil => cases hu
  | cons c u =>
    simp only [isIdentifier, Bool.and_eq_true, List.all_eq_true] at hu
    have hle := length_le_takeWhile hu.2 t
    refine ⟨_, by rw [List.cons_append, munchIdentifier?, if_pos hu.1], ?_⟩
    rw [List.length_cons]
    omega

theorem munchNumber?_longest {u : List Char} (hu : Numeral u) (t : List Char) :
    ∃ m, munchNumber? (u ++ t) = some m ∧ u.length ≤ m := by
  cases hu with
  | whole hd =>
    have hpos := List.length_pos_iff.2 hd.ne_nil
    have hle := length_le_takeWhile hd.decimal t
    simp only [munchNumber?]
    rw [if_neg (by omega)]
    split
    · split
      · exact ⟨_, rfl, hle⟩
      · exact ⟨_, rfl, by omega⟩
    · exact ⟨_, rfl, hle⟩
  | @fraction ds es hd he =>
    have hpos := List.length_pos_iff.2 hd.ne_nil
    have hpos' := List.length_pos_iff.2 he.ne_nil
    have hle := length_le_takeWhile he.decimal t
    have hwhole : (ds ++ '.' :: (es ++ t)).takeWhile Text.isDecimal = ds :=
      takeWhile_upTo hd.decimal (by intro c hc; cases hc; decide)
    rw [List.append_assoc, List.cons_append]
    simp only [munchNumber?, hwhole, List.drop_left]
    rw [if_neg (by omega), if_neg (by omega)]
    refine ⟨_, rfl, ?_⟩
    rw [List.length_append, List.length_cons]
    omega

theorem munchFloat?_exact {ds : List Char} (hd : Numeral ds) {suffix : Char}
    (hs : suffix = 'f' ∨ suffix = 'F') (t : List Char) :
    munchFloat? (ds ++ suffix :: t) = some (ds.length + 1) := by
  have hstop : ∀ c ∈ (suffix :: t).head?, Text.isDecimal c = false ∧ c ≠ '.' := by
    intro c hc
    cases hc
    obtain rfl | rfl := hs <;> decide
  simp [munchFloat?, munchNumber?_numeral hd hstop, hs]

/-- A kind matches wherever a text of it stands, and takes no less than that. -/
theorem Kind.munch?_longest {k : Kind} {b : Option Char} {u t : List Char}
    (h : k.Stands b u t.head?) : ∃ m, k.munch? b (u ++ t) = some m ∧ u.length ≤ m := by
  obtain ⟨hlanguage, halone⟩ := h
  cases hw : k.spelling? with
  | some w =>
    have hu : u = w.toList := by
      rw [← String.toList_ofList (l := u)]
      exact congrArg String.toList (Kind.Language.eq_spelling (by simpa using hlanguage) hw)
    subst hu
    refine ⟨_, ?_, Nat.le_refl _⟩
    by_cases hk : k ∈ Kind.reserved
    · refine Kind.munch?_alone hk hw (List.prefix_append _ _) (halone hk).1 ?_
      rw [List.drop_left]
      exact (halone hk).2
    · unfold Kind.munch?
      split
      iterate 5 cases hw
      rw [hw]
      simp only [hk, if_false]
      simp [munchExactly?, List.isPrefixOf_iff_prefix.2 (List.prefix_append w.toList t)]
  | none =>
    unfold Kind.Language at hlanguage
    split at hlanguage
    · obtain ⟨body, hbody, rfl⟩ := hlanguage
      exact ⟨_, Rule.first?_munch (first?_string hbody b t), Nat.le_refl _⟩
    · obtain ⟨body, hbody, rfl⟩ := hlanguage
      exact ⟨_, Rule.first?_munch (first?_char hbody b t), Nat.le_refl _⟩
    · exact munchIdentifier?_longest hlanguage t
    · exact munchNumber?_longest hlanguage t
    · obtain ⟨ds, suffix, hds, hs, rfl⟩ := hlanguage
      refine ⟨ds.length + 1, ?_, by simp⟩
      rw [List.append_assoc, List.singleton_append]
      exact munchFloat?_exact hds hs t
    · rw [hw] at hlanguage
      cases hlanguage

/-! ## Where a gap stands, it is found -/

namespace Gap

/-- A piece that may be missing. -/
def Piece.isOptional : Piece → Bool
  | .optionalSpaces | .optionalBrace => true
  | _ => false

/-- A piece that starts with no white space. -/
def Piece.isSolid : Piece → Bool
  | .exactly word => word.toList.head?.any fun c => !Text.isBlank c
  | .identifier => true
  | _ => false

/-- How long a piece is does not decide whether those behind it are found: white space ends before
a word, or nothing is needed behind it, and nothing is needed behind an identifier. -/
def isRigid : List Piece → Bool
  | [] => true
  | .exactly _ :: ps => isRigid ps
  | .spaces :: ps => ps.head?.any Piece.isSolid && isRigid ps
  | .optionalSpaces :: ps => (ps.head?.any Piece.isSolid && isRigid ps) || ps.all Piece.isOptional
  | .identifier :: ps => ps.all Piece.isOptional
  | .optionalBrace :: ps => ps.all Piece.isOptional

theorem exists_munchPieces?_cons {p : Piece} {ps : List Piece} {t : List Char} {n : Nat}
    (hp : p.munch? t = some n) (h : ∃ m, munchPieces? (t.drop n) ps = some m) :
    ∃ m, munchPieces? t (p :: ps) = some m := by
  obtain ⟨m, hm⟩ := h
  exact ⟨n + m, by simp [munchPieces?, hp, hm]⟩

theorem exists_munchPieces?_optional {ps : List Piece} (h : ps.all Piece.isOptional = true)
    (t : List Char) : ∃ m, munchPieces? t ps = some m := by
  induction ps generalizing t with
  | nil => exact ⟨0, rfl⟩
  | cons p ps ih =>
    simp only [List.all_cons, Bool.and_eq_true] at h
    cases p with
    | optionalSpaces => exact exists_munchPieces?_cons rfl (ih h.2 _)
    | optionalBrace => exact exists_munchPieces?_cons rfl (ih h.2 _)
    | exactly word => cases h.1
    | spaces => cases h.1
    | identifier => cases h.1

/-- White space before a solid piece is taken as a whole. -/
theorem takeWhile_isBlank {ps : List Piece} (hps : ps.head?.any Piece.isSolid = true)
    {u v : List Char} (hu : ∀ c ∈ u, Text.isBlank c = true) (hv : PiecesLanguage ps v)
    (t : List Char) : (u ++ (v ++ t)).takeWhile Text.isBlank = u := by
  refine takeWhile_upTo hu fun c hc => ?_
  cases hv with
  | nil => cases hps
  | @cons p ps v w hp hw =>
    rw [List.head?_cons, Option.any_some] at hps
    cases p with
    | exactly word =>
      obtain rfl : v = word.toList := hp
      obtain ⟨d, hd, hsolid⟩ := (Option.any_eq_true _ _).1 hps
      rw [List.append_assoc, List.head?_append, hd] at hc
      cases hc
      simpa using hsolid
    | identifier =>
      cases v with
      | nil => cases hp
      | cons d v =>
        cases hc
        exact not_isBlank_of_start (Bool.and_eq_true_iff.1 hp).1
    | spaces => cases hps
    | optionalSpaces => cases hps
    | optionalBrace => cases hps

/-- Rigid pieces are found wherever a text of them stands. -/
theorem exists_munchPieces? {ps : List Piece} (hps : isRigid ps = true) {u : List Char}
    (hu : PiecesLanguage ps u) (t : List Char) : ∃ m, munchPieces? (u ++ t) ps = some m := by
  induction hu with
  | nil => exact ⟨0, rfl⟩
  | @cons p ps u v hp hv ih =>
    rw [List.append_assoc]
    cases p with
    | exactly word =>
      obtain rfl : u = word.toList := hp
      refine exists_munchPieces?_cons (n := word.toList.length) ?_ ?_
      · simp [Piece.munch?, munchExactly?, List.isPrefixOf_iff_prefix.2 (List.prefix_append _ _)]
      · rw [List.drop_left]
        exact ih hps
    | spaces =>
      simp only [isRigid, Bool.and_eq_true] at hps
      have hrun := takeWhile_isBlank hps.1 hp.2 hv t
      refine exists_munchPieces?_cons (n := u.length) ?_ ?_
      · simp [Piece.munch?, hrun, hp.1]
      · rw [List.drop_left]
        exact ih hps.2
    | optionalSpaces =>
      simp only [isRigid, Bool.or_eq_true, Bool.and_eq_true] at hps
      obtain hps | hps := hps
      · have hrun := takeWhile_isBlank hps.1 hp hv t
        refine exists_munchPieces?_cons (n := u.length) ?_ ?_
        · simp [Piece.munch?, hrun]
        · rw [List.drop_left]
          exact ih hps.2
      · exact exists_munchPieces?_cons rfl (exists_munchPieces?_optional hps _)
    | identifier =>
      obtain ⟨m, hm, -⟩ := munchIdentifier?_longest hp (v ++ t)
      exact exists_munchPieces?_cons hm (exists_munchPieces?_optional hps _)
    | optionalBrace => exact exists_munchPieces?_cons rfl (exists_munchPieces?_optional hps _)

theorem exists_munchHeader? {ps : List Piece} (hps : isRigid ps = true) {b : Option Char}
    (hb : Text.endsWord b = true) {u : List Char}
    (hu : PiecesLanguage (.exactly "public" :: ps) u) (t : List Char) :
    ∃ m, munchHeader? ps b (u ++ t) = some m := by
  cases hu with
  | @cons _ _ w v hw hv =>
    obtain rfl : w = headerStart := hw
    obtain ⟨m, hm⟩ := exists_munchPieces? hps hv t
    rw [List.append_assoc, munchHeader?_start hb, hm]
    exact ⟨_, rfl⟩

/-- Where a gap stands, its rule matches. -/
theorem exists_munch?_of_stands {g : Gap} {b : Option Char} {u t : List Char}
    (h : g.Stands b u t.head?) : ∃ m, g.munch? b (u ++ t) = some m := by
  cases g with
  | layout =>
    obtain ⟨hne, hlayout, -⟩ := h
    have hle := length_le_takeWhile hlayout t
    have hpos := List.length_pos_iff.2 hne
    exact ⟨_, by rw [munch?, munchLayout?, if_neg (by omega)]⟩
  | lineComment =>
    obtain ⟨cs, rfl, -, -⟩ := h
    exact ⟨_, rfl⟩
  | blockComment =>
    obtain ⟨cs, rfl, hflat, hopen⟩ := h
    have hrest := munchBlockRest?_body hflat hopen t
    exact ⟨cs.length + 2 + 2, by simp [munch?, munchBlockComment?, hrest]⟩
  | classHeader => exact exists_munchHeader? (by decide) h.1 h.2 t
  | mainHeader => exact exists_munchHeader? (by decide) h.1 h.2 t

end Gap

/-! ## Tokens of a scan -/

/-- The text is what the rule is about, between the characters before and behind it. -/
def Rule.Stands (r : Rule) (before : Option Char) (u : List Char) (behind : Option Char) : Prop :=
  match r with
  | token k => k.Stands before u behind
  | gap g => g.Stands before u behind

/-- Where the first rule that matches makes a token, nothing longer stands that any rule is
about. -/
theorem Rule.length_le_of_first? {b : Option Char} {u t : List Char} {k : Kind} {n : Nat}
    (h : first? Rule.all b (u ++ t) = some (token k, n)) {r : Rule} (hr : r ∈ Rule.all)
    (hu : r.Stands b u t.head?) : u.length ≤ n := by
  cases r with
  | token k' =>
    obtain ⟨m, hm, hle⟩ := Kind.munch?_longest hu
    exact Nat.le_trans hle (munch?_le_of_first? h hr hm)
  | gap g =>
    -- the gap would have been found
    obtain ⟨m, hm⟩ := Gap.exists_munch?_of_stands hu
    have hearly : gap g ∈ early := by cases g <;> decide
    rw [first?_of_early hearly hm] at h
    cases h

/-- A token is as long as it can be. Its text is what its own rule matches at its place; no rule,
gaps included, matches more there, and no longer text stands there that any rule is about. Where a
reserved word matches, the token is that word and no identifier. -/
theorem scan_longest_match (s : String) {t : Token} (ht : t ∈ (scan s).tokens)
    (hk : t.kind ≠ .eof) :
    t.pos = t.start ∧ (s.toList.drop t.start).take t.text.length = t.text.toList ∧
    t.kind.munch? (charBefore s.toList t.start) (s.toList.drop t.start) = some t.text.length ∧
    (∀ r ∈ Rule.all, ∀ n,
      r.munch? (charBefore s.toList t.start) (s.toList.drop t.start) = some n →
        n ≤ t.text.length) ∧
    (∀ r ∈ Rule.all, ∀ u v, s.toList.drop t.start = u ++ v →
      r.Stands (charBefore s.toList t.start) u v.head? → u.length ≤ t.text.length) ∧
    ∀ k ∈ Kind.reserved, ∀ n,
      k.munch? (charBefore s.toList t.start) (s.toList.drop t.start) = some n → t.kind = k := by
  obtain ⟨hpos, htext, hfirst⟩ := made_of_mem_scanFrom s.toList (Nat.zero_le _) t ht hk
  refine ⟨hpos, htext, Rule.first?_munch hfirst, ?_, ?_, ?_⟩
  · intro r hr n hn
    exact Rule.munch?_le_of_first? hfirst hr hn
  · intro r hr u v huv hu
    rw [huv] at hfirst
    exact Rule.length_le_of_first? hfirst hr hu
  · intro k hk n hn
    have hearly : Rule.token k ∈ Rule.early := List.mem_append_left _ (List.mem_map_of_mem hk)
    rw [Rule.first?_of_early hearly hn] at hfirst
    cases hfirst
    rfl

/-- A number with a fraction and a suffix, behind a sign of two characters. -/
theorem scan_longest_match_float : ∃ t : Token, t = ⟨.floatNumber, "1.5f", 3⟩ ∧
    t ∈ (scan "x<=1.5f").tokens ∧ t.kind ≠ .eof ∧
    (∀ r ∈ Rule.all, ∀ n, r.munch? (some '=') "1.5f".toList = some n → n ≤ 4) ∧
    (∀ r ∈ Rule.all, ∀ u v, "1.5f".toList = u ++ v → r.Stands (some '=') u v.head? →
      u.length ≤ 4) ∧
    ∀ k ∈ Kind.reserved, ∀ n, k.munch? (some '=') "1.5f".toList = some n →
      Kind.floatNumber = k := by
  have hscan : scan "x<=1.5f" = ⟨[⟨.identifier, "x", 0⟩, ⟨.leq, "<=", 1⟩, ⟨.floatNumber, "1.5f", 3⟩,
      Token.eof 7], none⟩ := by
    have hwithin : scanWithin Rule.all "x<=1.5f".toList 7 none 0 "x<=1.5f".toList =
        some (scan "x<=1.5f") := scanWithin_eq _ _ (by decide) none 0
    exact Option.some.inj (hwithin.symm.trans (by decide))
  have hmem : (⟨.floatNumber, "1.5f", 3⟩ : Token) ∈ (scan "x<=1.5f").tokens := by simp [hscan]
  obtain ⟨-, -, -, hmatch, hstands, hreserved⟩ := scan_longest_match "x<=1.5f" hmem (by decide)
  exact ⟨_, rfl, hmem, by decide, hmatch, hstands, hreserved⟩

end Offside
