import Offside.Proofs.Failures
import Offside.Proofs.Wrapper

/-!
# The languages of the kinds

What the text of a token of each kind may be, said without the scanner, and that the scanner
takes such a text for just that (`first?_proper`). Two words are no tokens of their own: an
identifier that is a reserved word has the kind of that word, and `public` may start a header.

A text is followed by layout or by nothing. Of the rules that come before the one that
should match, the reserved words need a text of their own, and the gaps, string literals and
character literals are told by their first characters. Only the kinds with one
spelling have rules before them that start alike; there are finitely many, and they are tried.
-/

namespace Offside

open Gap (isLayout headerStart)

/-! ## Languages -/

/-- What may stand between the quotes of a string literal. -/
inductive StringBody : List Char → Prop
  | nil : StringBody []
  | plain {c : Char} (hq : c ≠ '\x22') (hb : c ≠ '\\') {cs : List Char} (h : StringBody cs) :
      StringBody (c :: cs)
  | escape {c : Char} (hc : c ≠ '\n') {cs : List Char} (h : StringBody cs) :
      StringBody ('\\' :: c :: cs)

/-- What may stand between the quotes of a character literal. -/
inductive CharBody : List Char → Prop
  | plain {c : Char} (hq : c ≠ '\x27') (hb : c ≠ '\\') : CharBody [c]
  | escape {c : Char} (hc : c ≠ '\n') : CharBody ['\\', c]

/-- Decimal digits, at least one. -/
structure Digits (ds : List Char) : Prop where
  ne_nil : ds ≠ []
  decimal : ∀ d ∈ ds, Text.isDecimal d = true

/-- A number, with or without a fraction. -/
inductive Numeral : List Char → Prop
  | whole {ds : List Char} (hd : Digits ds) : Numeral ds
  | fraction {ds es : List Char} (hd : Digits ds) (he : Digits es) : Numeral (ds ++ '.' :: es)

/-- The texts of a kind. -/
def Kind.Language : Kind → List Char → Prop
  | .string, cs => ∃ body, StringBody body ∧ cs = '\x22' :: (body ++ ['\x22'])
  | .charLiteral, cs => ∃ body, CharBody body ∧ cs = '\x27' :: (body ++ ['\x27'])
  | .identifier, cs => isIdentifier cs = true
  | .number, cs => Numeral cs
  | .floatNumber, cs =>
    ∃ ds suffix, Numeral ds ∧ (suffix = 'f' ∨ suffix = 'F') ∧ cs = ds ++ [suffix]
  | k, cs => k.spelling? = some (String.ofList cs)

theorem Kind.language_of_spelling? {k : Kind} {w : String} (hw : k.spelling? = some w) :
    k.Language w.toList := by
  unfold Kind.Language
  split
  iterate 5 cases hw
  rw [String.ofList_toList]
  exact hw

/-- A kind with one spelling has no other text. -/
theorem Kind.Language.eq_spelling {k : Kind} {t w : String} (h : k.Language t.toList)
    (hw : k.spelling? = some w) : t = w := by
  unfold Kind.Language at h
  split at h
  iterate 5 cases hw
  rw [String.ofList_toList, hw] at h
  exact (Option.some.inj h).symm

/-- The text is one of the kind, and no text of another kind. -/
structure Lexeme.Proper (l : Lexeme) : Prop where
  language : l.kind.Language l.text.toList
  notReserved : l.kind = .identifier → ∀ k ∈ Kind.reserved, k.spelling? ≠ some l.text
  notHeader : l.kind = .identifier → l.text.toList ≠ headerStart
  notQuote : l.kind ≠ .singleQuote

theorem Lexeme.proper_sign {k : Kind} (hk : k.spelling?.isSome = true) (hq : k ≠ .singleQuote) :
    (Lexeme.sign k).Proper := by
  obtain ⟨w, hw⟩ := Option.isSome_iff_exists.1 hk
  have hname : k ≠ .identifier := by
    intro he
    rw [he] at hw
    cases hw
  have htext : (Lexeme.sign k).text = w := by simp [Lexeme.sign, hw]
  refine ⟨?_, fun he => absurd he hname, fun he => absurd he hname, hq⟩
  show k.Language (Lexeme.sign k).text.toList
  rw [htext]
  exact Kind.language_of_spelling? hw

/-! ## What follows a lexeme -/

/-- Layout follows, or nothing. -/
def Ends (t : List Char) : Prop := ∀ c ∈ t.head?, isLayout c = true

theorem takeWhile_upTo {p : Char → Bool} {u t : List Char} (hu : ∀ c ∈ u, p c = true)
    (ht : ∀ c ∈ t.head?, p c = false) : (u ++ t).takeWhile p = u := by
  rw [List.takeWhile_append_of_pos hu]
  cases t with
  | nil => simp
  | cons c t => simp [ht c rfl]

/-- Only literals between quotes reach over layout. -/
theorem Kind.munch?_ends {k : Kind} (hs : k ≠ .string) (hq : k ≠ .charLiteral) (b : Option Char)
    (u : List Char) {t : List Char} (ht : Ends t) : k.munch? b (u ++ t) = k.munch? b u := by
  cases t with
  | nil => rw [List.append_nil]
  | cons c t =>
    have hc : isLayout c = true := ht c rfl
    unfold Kind.munch?
    split
    · exact absurd rfl hs
    · exact absurd rfl hq
    · exact munchIdentifier?_seam hc u t
    · exact munchFloat?_seam hc u t
    · exact munchNumber?_seam hc u t
    · split
      · rfl
      · next w hw =>
        have hmem := Kind.layout_not_mem hc hw
        rw [munchAlone?_seam hc hmem, munchExactly?_seam hmem]

/-- The text starts like no gap and like no literal between quotes, also before layout. -/
structure Plain (u : List Char) : Prop where
  ne_nil : u ≠ []
  start : ∀ c ∈ u.head?, c ≠ '\x22' ∧ c ≠ '\x27' ∧ isLayout c = false
  notLine : ['/', '/'].isPrefixOf u = false
  notBlock : ['/', '*'].isPrefixOf u = false
  notHeader : headerStart.isPrefixOf u = true →
    (u.drop headerStart.length).head?.any (fun c => !Text.isBlank c) = true

theorem plain_iff (u : List Char) : Plain u ↔ u ≠ [] ∧
    u.head?.all (fun c => c ≠ '\x22' ∧ c ≠ '\x27' ∧ isLayout c = false) = true ∧
    ['/', '/'].isPrefixOf u = false ∧ ['/', '*'].isPrefixOf u = false ∧
    (headerStart.isPrefixOf u = true →
      (u.drop headerStart.length).head?.any (fun c => !Text.isBlank c) = true) := by
  simp only [Option.all_eq_true, decide_eq_true_eq]
  constructor
  · intro h
    exact ⟨h.ne_nil, h.start, h.notLine, h.notBlock, h.notHeader⟩
  · intro h
    obtain ⟨hne, hstart, hline, hblock, hheader⟩ := h
    exact ⟨hne, hstart, hline, hblock, hheader⟩

-- Decided at the first character alone, and not by a search through all characters.
instance (u : List Char) : Decidable (Plain u) := decidable_of_iff _ (plain_iff u).symm

theorem munchLineComment?_none {u : List Char} (h : ['/', '/'].isPrefixOf u = false) :
    Gap.munchLineComment? u = none := by
  match u with
  | [] => rfl
  | [c] => simp [Gap.munchLineComment?]
  | c :: d :: cs =>
    refine Gap.munchLineComment?_ne (fun hcd => ?_) cs
    obtain ⟨rfl, rfl⟩ := hcd
    simp at h

theorem munchBlockComment?_none {u : List Char} (h : ['/', '*'].isPrefixOf u = false) :
    Gap.munchBlockComment? u = none := by
  match u with
  | [] => rfl
  | [c] => simp [Gap.munchBlockComment?]
  | c :: d :: cs =>
    refine Gap.munchBlockComment?_ne (fun hcd => ?_) cs
    obtain ⟨rfl, rfl⟩ := hcd
    simp at h

theorem munchHeader?_none {u : List Char} (h : headerStart.isPrefixOf u = true →
      (u.drop headerStart.length).head?.any (fun c => !Text.isBlank c) = true)
    {ps : List Gap.Piece} (b : Option Char) : Gap.munchHeader? (.spaces :: ps) b u = none := by
  by_cases hp : headerStart.isPrefixOf u = true
  · cases hrest : u.drop headerStart.length with
    | nil =>
      have := h hp
      simp [hrest] at this
    | cons c cs =>
      have hc : Text.isBlank c = false := by simpa [hrest] using h hp
      simp [Gap.munchHeader?, hrest, Gap.munchPieces?, Gap.Piece.munch?, hc]
  · simp [Gap.munchHeader?, hp]

/-- No gap starts where a plain text does. -/
theorem Plain.gap_none {u t : List Char} (hu : Plain u) (ht : Ends t) (g : Gap)
    (b : Option Char) : g.munch? b (u ++ t) = none := by
  have hslash : ∀ d, isLayout d = false → ['/', d].isPrefixOf u = false →
      ['/', d].isPrefixOf (u ++ t) = false := by
    intro d hd hprefix
    cases t with
    | nil => rwa [List.append_nil]
    | cons c t =>
      have hc : isLayout c = true := ht c rfl
      have hmem : c ∉ ['/', d] := by
        intro hm
        obtain rfl | rfl : c = '/' ∨ c = d := by simpa using hm
        · cases hc
        · rw [hd] at hc
          cases hc
      rwa [isPrefixOf_seam hmem]
  have hheader : headerStart.isPrefixOf (u ++ t) = true →
      ((u ++ t).drop headerStart.length).head?.any (fun c => !Text.isBlank c) = true := by
    intro hp
    cases t with
    | nil =>
      rw [List.append_nil] at hp ⊢
      exact hu.notHeader hp
    | cons c t =>
      have hc : isLayout c = true := ht c rfl
      have hmem : c ∉ headerStart := Gap.isLayout_elim hc (by decide)
      rw [isPrefixOf_seam hmem] at hp
      have hle := length_le_of_take (take_of_isPrefixOf hp)
      have hblank := hu.notHeader hp
      rw [List.drop_append_of_le_length hle]
      cases hrest : u.drop headerStart.length with
      | nil => simp [hrest] at hblank
      | cons d ds => simpa [hrest] using hblank
  cases g with
  | layout =>
    obtain ⟨c, cs, rfl⟩ := List.exists_cons_of_ne_nil hu.ne_nil
    have hc := (hu.start c rfl).2.2
    simp [Gap.munch?, Gap.munchLayout?, hc]
  | lineComment => exact munchLineComment?_none (hslash '/' rfl hu.notLine)
  | blockComment => exact munchBlockComment?_none (hslash '*' rfl hu.notBlock)
  | classHeader => exact munchHeader?_none hheader b
  | mainHeader => exact munchHeader?_none hheader b

theorem Plain.string_none {u : List Char} (hu : Plain u) (t : List Char) :
    munchString? (u ++ t) = none := by
  obtain ⟨c, cs, rfl⟩ := List.exists_cons_of_ne_nil hu.ne_nil
  simp [munchString?, (hu.start c rfl).1]

theorem Plain.char_none {u : List Char} (hu : Plain u) (t : List Char) :
    munchChar? (u ++ t) = none := by
  obtain ⟨c, cs, rfl⟩ := List.exists_cons_of_ne_nil hu.ne_nil
  exact munchChar?_ne (hu.start c rfl).2.1 _

/-- A plain text is matched before layout as it is by itself. -/
theorem Plain.first?_ends {u t : List Char} (hu : Plain u) (ht : Ends t) (b : Option Char) :
    Rule.first? Rule.all b (u ++ t) = Rule.first? Rule.all b u := by
  have hnil : Ends [] := by simp [Ends]
  have hsame : ∀ r : Rule, r.munch? b (u ++ t) = r.munch? b u := by
    intro r
    cases r with
    | gap g =>
      have hg := hu.gap_none hnil g b
      rw [List.append_nil] at hg
      exact (hu.gap_none ht g b).trans hg.symm
    | token k =>
      by_cases hs : k = .string
      · subst hs
        have hstring := hu.string_none []
        rw [List.append_nil] at hstring
        exact (hu.string_none t).trans hstring.symm
      · by_cases hq : k = .charLiteral
        · subst hq
          have hchar := hu.char_none []
          rw [List.append_nil] at hchar
          exact (hu.char_none t).trans hchar.symm
        · exact Kind.munch?_ends hs hq b u ht
  unfold Rule.first?
  congr 1
  funext r
  rw [hsame]

/-! ## Kinds with one spelling -/

theorem Kind.mem_all_of_spelling? {k : Kind} {w : String} (h : k.spelling? = some w) :
    k ∈ Kind.all := by
  cases k <;> simp [Kind.all, Kind.spelling?] at h ⊢

/-- A kind with one spelling, before layout. All rules are tried on all of them. -/
theorem first?_spelled {k : Kind} {w : String} (hw : k.spelling? = some w)
    (hk : k ≠ .singleQuote) {b : Option Char} (hb : Text.endsWord b = true) {t : List Char}
    (ht : Ends t) :
    Rule.first? Rule.all b (w.toList ++ t) = some (.token k, w.toList.length) := by
  have hall : ∀ k ∈ Kind.all, k ≠ .singleQuote → ∀ w ∈ k.spelling?, Plain w.toList ∧
      Rule.first? Rule.all none w.toList = some (.token k, w.toList.length) := by
    decide
  obtain ⟨hplain, halone⟩ := hall k (Kind.mem_all_of_spelling? hw) hk w hw
  rw [hplain.first?_ends ht, ← halone]
  exact Rule.first?_before hb Rule.all w.toList

/-! ## Past the words and the gaps -/

theorem Rule.first?_none {rules : List Rule} {b : Option Char} {t : List Char}
    (h : ∀ r ∈ rules, r.munch? b t = none) : first? rules b t = none := by
  rw [first?, List.findSome?_eq_none_iff]
  intro r hr
  rw [h r hr]
  rfl

theorem Rule.first?_cons_none {r : Rule} {rules : List Rule} {b : Option Char} {t : List Char}
    (h : r.munch? b t = none) : first? (r :: rules) b t = first? rules b t := by
  simp [first?, h]

theorem Rule.first?_cons_some {r : Rule} {rules : List Rule} {b : Option Char} {t : List Char}
    {n : Nat} (h : r.munch? b t = some n) : first? (r :: rules) b t = some (r, n) := by
  simp [first?, h]

theorem Rule.first?_append_none {before rules : List Rule} {b : Option Char} {t : List Char}
    (h : ∀ r ∈ before, r.munch? b t = none) : first? (before ++ rules) b t = first? rules b t := by
  have hnone := first?_none h
  unfold first? at hnone ⊢
  rw [List.findSome?_append, hnone, Option.none_or]

/-- Where no reserved word matches, gaps come next. -/
theorem Rule.first?_gaps {b : Option Char} {t : List Char}
    (hwords : ∀ k ∈ Kind.reserved, k.munch? b t = none) :
    first? Rule.all b t = first? (Gap.all.map gap ++ lexemes.map token) b t := by
  rw [Rule.all, List.append_assoc]
  refine first?_append_none fun r hr => ?_
  obtain ⟨k, hk, rfl⟩ := List.mem_map.1 hr
  exact hwords k (List.mem_append_left _ hk)

/-- Where no gap matches either, literals, names and signs are left. -/
theorem Rule.first?_past {b : Option Char} {t : List Char}
    (hwords : ∀ k ∈ Kind.reserved, k.munch? b t = none)
    (hgaps : ∀ g : Gap, g.munch? b t = none) :
    first? Rule.all b t = first? ((lexemes.drop Kind.truths.length).map token) b t := by
  have hnone : ∀ r ∈ Gap.all.map gap, r.munch? b t = none := by
    intro r hr
    obtain ⟨g, _, rfl⟩ := List.mem_map.1 hr
    exact hgaps g
  have htruths : ∀ r ∈ Kind.truths.map token, r.munch? b t = none := by
    intro r hr
    obtain ⟨k, hk, rfl⟩ := List.mem_map.1 hr
    exact hwords k (List.mem_append_right _ hk)
  rw [first?_gaps hwords, first?_append_none hnone]
  exact first?_append_none htruths

/-- A reserved word matches only where it stands alone. -/
theorem munch?_reserved_none {k : Kind} (hk : k ∈ Kind.reserved) {b : Option Char} {t : List Char}
    (h : ∀ w, k.spelling? = some w → munchAlone? w.toList b t = none) : k.munch? b t = none := by
  have hkinds : ∀ k ∈ Kind.reserved, k.spelling?.isSome = true := by decide
  obtain ⟨w, hw⟩ := Option.isSome_iff_exists.1 (hkinds k hk)
  unfold Kind.munch?
  split
  iterate 5 cases hw
  rw [hw]
  simp only [hk, if_true]
  exact h w hw

/-- A reserved word does not match at a character that it does not have. -/
theorem munch?_reserved_foreign {c : Char}
    (hc : ∀ k ∈ Kind.reserved, ∀ w ∈ k.spelling?, c ∉ w.toList) (b : Option Char)
    (t : List Char) : ∀ k ∈ Kind.reserved, k.munch? b (c :: t) = none := by
  intro k hk
  refine munch?_reserved_none hk fun w hw => ?_
  have hprefix := isPrefixOf_of_not_mem (Kind.spelling?_ne_nil hw) (hc k hk w hw) t
  simp [munchAlone?, hprefix]

/-- A text is plain if it starts with a character of a class that quotes, slashes and layout
are not in. -/
theorem plain_of_class {p : Char → Bool} {c : Char} (hc : p c = true)
    (hp : ['\x22', '\x27', '/', ' ', '\t', '\r', '\n'].all (fun d => !p d) = true) {cs : List Char}
    (hheader : headerStart.isPrefixOf (c :: cs) = true →
      ((c :: cs).drop headerStart.length).head?.any (fun c => !Text.isBlank c) = true) :
    Plain (c :: cs) := by
  have hne : ∀ d ∈ ['\x22', '\x27', '/', ' ', '\t', '\r', '\n'], c ≠ d := by
    intro d hd he
    have hd' := List.all_eq_true.1 hp d hd
    simp [← he, hc] at hd'
  have hslash : '/' ≠ c := (hne '/' (by decide)).symm
  have hlayout : isLayout c = false := by
    simp [isLayout, hne ' ' (by decide), hne '\t' (by decide), hne '\r' (by decide),
      hne '\n' (by decide)]
  constructor
  · simp
  · intro d hd
    cases hd
    exact ⟨hne _ (by decide), hne _ (by decide), hlayout⟩
  · simp [List.isPrefixOf, hslash]
  · simp [List.isPrefixOf, hslash]
  · exact hheader

/-- A plain text that no reserved word matches: names, numbers and signs are left. -/
theorem Plain.first?_past {u t : List Char} (hu : Plain u) (ht : Ends t) {b : Option Char}
    (hwords : ∀ k ∈ Kind.reserved, k.munch? b u = none) :
    Rule.first? Rule.all b (u ++ t) =
      Rule.first? ((Rule.lexemes.drop (Kind.truths.length + 2)).map .token) b u := by
  have hgaps : ∀ g : Gap, g.munch? b u = none := by
    intro g
    have hg := hu.gap_none (t := []) (by simp [Ends]) g b
    rwa [List.append_nil] at hg
  have hstring := hu.string_none []
  have hchar := hu.char_none []
  rw [List.append_nil] at hstring hchar
  rw [hu.first?_ends ht, Rule.first?_past hwords hgaps]
  exact (Rule.first?_cons_none (r := .token .string) hstring).trans
    (Rule.first?_cons_none (r := .token .charLiteral) hchar)

/-! ## Identifiers -/

theorem toNat_of_isIdentifierPart {c : Char} (h : isIdentifierPart c = true) :
    0x30 ≤ c.toNat ∧ c.toNat ≤ 0x39 ∨ 0x41 ≤ c.toNat ∧ c.toNat ≤ 0x5A ∨
      0x5F ≤ c.toNat ∧ c.toNat ≤ 0x5F ∨ 0x61 ≤ c.toNat ∧ c.toNat ≤ 0x7A := by
  unfold isIdentifierPart Char.isAlphanum Char.isAlpha Char.isUpper Char.isLower Char.isDigit at h
  simp only [Bool.or_eq_true, Bool.and_eq_true, decide_eq_true_eq, beq_iff_eq,
    UInt32.le_iff_toNat_le] at h
  obtain ((h | h) | h) | rfl := h
  · exact .inr (.inl h)
  · exact .inr (.inr (.inr h))
  · exact .inl h
  · exact .inr (.inr (.inl (by decide)))

theorem isWord_of_isIdentifierPart {c : Char} (h : isIdentifierPart c = true) :
    Text.isWord c = true := by
  rw [Text.isWord, Text.CharSet.contains_iff]
  obtain hn | hn | hn | hn := toNat_of_isIdentifierPart h
  · exact ⟨_, .head _, hn⟩
  · exact ⟨_, .tail _ (.head _), hn⟩
  · exact ⟨_, .tail _ (.tail _ (.head _)), hn⟩
  · exact ⟨_, .tail _ (.tail _ (.tail _ (.head _))), hn⟩

theorem not_isBlank_of_isIdentifierPart {c : Char} (h : isIdentifierPart c = true) :
    Text.isBlank c = false := by
  have hblanks : ∀ i ∈ Text.blanks.intervals, i.2 < 0x30 ∨ 0x7A < i.1 := by decide
  have hn := toNat_of_isIdentifierPart h
  rw [← Bool.not_eq_true, Text.isBlank, Text.CharSet.contains_iff]
  intro hmem
  obtain ⟨i, hi, hle⟩ := hmem
  have := hblanks i hi
  omega

theorem isIdentifierPart_of_mem {u : List Char} (hu : isIdentifier u = true) :
    ∀ c ∈ u, isIdentifierPart c = true := by
  cases u with
  | nil => simp
  | cons d ds =>
    simp only [isIdentifier, Bool.and_eq_true, List.all_eq_true] at hu
    obtain ⟨hstart, hparts⟩ := hu
    intro c hc
    obtain rfl | hc := List.mem_cons.1 hc
    · simp only [isIdentifierStart, Bool.or_eq_true] at hstart
      simp only [isIdentifierPart, Char.isAlphanum, Bool.or_eq_true]
      exact hstart.imp_left .inl
    · exact hparts c hc

/-- A word that stands alone is all of an identifier or no part of it. -/
theorem munchAlone?_identifier {word u : List Char} (hu : isIdentifier u = true) (hne : u ≠ word)
    (b : Option Char) : munchAlone? word b u = none := by
  unfold munchAlone?
  by_cases hp : word.isPrefixOf u = true
  · obtain ⟨rest, rfl⟩ := List.isPrefixOf_iff_prefix.1 hp
    cases rest with
    | nil => exact absurd (List.append_nil word) hne
    | cons c cs =>
      have hc : Text.isWord c = true :=
        isWord_of_isIdentifierPart (isIdentifierPart_of_mem hu c (by simp))
      simp [Text.endsWord, hc]
  · simp [hp]

theorem plain_identifier {u : List Char} (hu : isIdentifier u = true) (hne : u ≠ headerStart) :
    Plain u := by
  have hblank : ∀ c ∈ u, Text.isBlank c = false := fun c hc =>
    not_isBlank_of_isIdentifierPart (isIdentifierPart_of_mem hu c hc)
  have hheader : headerStart.isPrefixOf u = true →
      (u.drop headerStart.length).head?.any (fun c => !Text.isBlank c) = true := by
    intro hp
    obtain ⟨rest, rfl⟩ := List.isPrefixOf_iff_prefix.1 hp
    cases rest with
    | nil => exact absurd (List.append_nil _) hne
    | cons c cs => simp [hblank c (by simp)]
  cases u with
  | nil => cases hu
  | cons c cs =>
    have hstart : isIdentifierStart c = true := by
      simp only [isIdentifier, Bool.and_eq_true] at hu
      exact hu.1
    exact plain_of_class hstart (by decide) hheader

/-- An identifier that is no other word, before layout. -/
theorem first?_identifier {u : List Char} (hu : isIdentifier u = true)
    (hreserved : ∀ k ∈ Kind.reserved, k.spelling? ≠ some (String.ofList u))
    (hheader : u ≠ headerStart) (b : Option Char) {t : List Char} (ht : Ends t) :
    Rule.first? Rule.all b (u ++ t) = some (.token .identifier, u.length) := by
  have hplain := plain_identifier hu hheader
  have hwords : ∀ k ∈ Kind.reserved, k.munch? b u = none := by
    intro k hk
    refine munch?_reserved_none hk fun w hw => munchAlone?_identifier hu (fun he => ?_) b
    rw [he, String.ofList_toList] at hreserved
    exact hreserved k hk hw
  have hmunch : munchIdentifier? u = some u.length := by
    cases u with
    | nil => cases hu
    | cons c cs =>
      simp only [isIdentifier, Bool.and_eq_true, List.all_eq_true] at hu
      have hall : cs.takeWhile isIdentifierPart = cs := by
        simpa using takeWhile_upTo (t := []) hu.2 (by simp)
      simp [munchIdentifier?, hu.1, hall, Nat.add_comm]
  rw [hplain.first?_past ht hwords]
  exact Rule.first?_cons_some hmunch

/-! ## Numbers -/

theorem munchNumber?_numeral {u t : List Char} (hu : Numeral u)
    (ht : ∀ c ∈ t.head?, Text.isDecimal c = false ∧ c ≠ '.') :
    munchNumber? (u ++ t) = some u.length := by
  have hstop : ∀ c ∈ t.head?, Text.isDecimal c = false := fun c hc => (ht c hc).1
  cases hu with
  | whole hd =>
    have hpos := List.length_pos_iff.2 hd.ne_nil
    simp only [munchNumber?, takeWhile_upTo hd.decimal hstop, List.drop_left]
    rw [if_neg (by omega)]
    cases t with
    | nil => rfl
    | cons c t => simp [(ht c rfl).2]
  | @fraction ds es hd he =>
    have hpos := List.length_pos_iff.2 hd.ne_nil
    have hpos' := List.length_pos_iff.2 he.ne_nil
    have hwhole : (ds ++ '.' :: (es ++ t)).takeWhile Text.isDecimal = ds :=
      takeWhile_upTo hd.decimal (by intro c hc; cases hc; decide)
    rw [List.append_assoc, List.cons_append]
    simp only [munchNumber?, hwhole, List.drop_left, takeWhile_upTo he.decimal hstop]
    rw [if_neg (by omega), if_neg (by omega)]
    simp
    omega

theorem Numeral.exists_cons {u : List Char} (hu : Numeral u) :
    ∃ c cs, u = c :: cs ∧ Text.isDecimal c = true := by
  cases hu with
  | whole hd =>
    obtain ⟨c, cs, rfl⟩ := List.exists_cons_of_ne_nil hd.ne_nil
    exact ⟨c, cs, rfl, hd.decimal c (by simp)⟩
  | fraction hd he =>
    obtain ⟨c, cs, rfl⟩ := List.exists_cons_of_ne_nil hd.ne_nil
    exact ⟨c, _, rfl, hd.decimal c (by simp)⟩

theorem Numeral.isDecimal_head {c : Char} {u : List Char} (h : Numeral (c :: u)) :
    Text.isDecimal c = true := by
  obtain ⟨d, ds, he, hd⟩ := h.exists_cons
  cases he
  exact hd

/-- Where a digit starts a text, a number is read. -/
theorem first?_digit {c : Char} (hc : Text.isDecimal c = true) (cs : List Char) (b : Option Char)
    {t : List Char} (ht : Ends t) : Rule.first? Rule.all b (c :: cs ++ t) =
      Rule.first? ((Rule.lexemes.drop (Kind.truths.length + 3)).map .token) b (c :: cs) := by
  have hplain : Plain (c :: cs) := by
    refine plain_of_class hc (by decide) fun hp => ?_
    have hne : 'p' ≠ c := by
      intro he
      rw [← he] at hc
      revert hc
      decide
    simp [headerStart, List.isPrefixOf, hne] at hp
  have hletters : ∀ k ∈ Kind.reserved, ∀ w ∈ k.spelling?,
      w.toList.all (fun d => !Text.isDecimal d) = true := by
    decide
  have hwords := munch?_reserved_foreign (fun k hk w hw hm => by
    simpa [hc] using List.all_eq_true.1 (hletters k hk w hw) c hm) b cs
  have hname : munchIdentifier? (c :: cs) = none := by
    have hdigit : Text.isDigit c = true := by simp [Text.isDigit, hc]
    simp [munchIdentifier?, isIdentifierStart_of_isDigit hdigit]
  rw [hplain.first?_past ht hwords]
  exact Rule.first?_cons_none hname

theorem first?_number {u : List Char} (hu : Numeral u) (b : Option Char) {t : List Char}
    (ht : Ends t) : Rule.first? Rule.all b (u ++ t) = some (.token .number, u.length) := by
  have hnumber : munchNumber? u = some u.length := by
    simpa using munchNumber?_numeral (t := []) hu (by simp)
  have hfloat : munchFloat? u = none := by simp [munchFloat?, hnumber]
  obtain ⟨c, cs, rfl, hc⟩ := hu.exists_cons
  rw [first?_digit hc cs b ht]
  exact (Rule.first?_cons_none (r := .token .floatNumber) hfloat).trans
    (Rule.first?_cons_some (r := .token .number) hnumber)

theorem first?_float {u : List Char} (hu : Numeral u) {suffix : Char}
    (hs : suffix = 'f' ∨ suffix = 'F') (b : Option Char) {t : List Char} (ht : Ends t) :
    Rule.first? Rule.all b ((u ++ [suffix]) ++ t) =
      some (.token .floatNumber, (u ++ [suffix]).length) := by
  have hstop : ∀ c ∈ [suffix].head?, Text.isDecimal c = false ∧ c ≠ '.' := by
    intro c hc
    cases hc
    obtain rfl | rfl := hs <;> decide
  have hfloat : munchFloat? (u ++ [suffix]) = some (u ++ [suffix]).length := by
    simp [munchFloat?, munchNumber?_numeral hu hstop, hs]
  obtain ⟨c, cs, rfl, hc⟩ := hu.exists_cons
  rw [List.cons_append, first?_digit hc (cs ++ [suffix]) b ht]
  exact Rule.first?_cons_some hfloat

/-! ## Literals between quotes -/

theorem munchStringRest?_body {body : List Char} (h : StringBody body) (t : List Char) :
    munchStringRest? (body ++ '\x22' :: t) = some (body.length + 1) := by
  induction h with
  | nil =>
    rw [List.nil_append]
    unfold munchStringRest?
    rfl
  | plain hq hb _ ih =>
    rw [List.cons_append]
    unfold munchStringRest?
    simp [hq, hb, ih]
  | escape hc _ ih => simp [munchStringRest?, hc, ih]

/-- A string literal, whatever follows it. -/
theorem first?_string {body : List Char} (h : StringBody body) (b : Option Char) (t : List Char) :
    Rule.first? Rule.all b ('\x22' :: (body ++ ['\x22']) ++ t) =
      some (.token .string, ('\x22' :: (body ++ ['\x22'])).length) := by
  have hwords : ∀ k ∈ Kind.reserved, k.munch? b ('\x22' :: (body ++ ['\x22']) ++ t) = none :=
    munch?_reserved_foreign (by decide) b _
  have hmunch : munchString? ('\x22' :: (body ++ ['\x22']) ++ t) =
      some ('\x22' :: (body ++ ['\x22'])).length := by
    simp [munchString?, munchStringRest?_body h]
  rw [Rule.first?_past hwords fun g => Gap.munch?_quote g b _]
  exact Rule.first?_cons_some hmunch

/-- A character literal, whatever follows it. -/
theorem first?_char {body : List Char} (h : CharBody body) (b : Option Char) (t : List Char) :
    Rule.first? Rule.all b ('\x27' :: (body ++ ['\x27']) ++ t) =
      some (.token .charLiteral, ('\x27' :: (body ++ ['\x27'])).length) := by
  have hwords : ∀ k ∈ Kind.reserved, k.munch? b ('\x27' :: (body ++ ['\x27']) ++ t) = none :=
    munch?_reserved_foreign (by decide) b _
  have hgaps : ∀ g : Gap, g.munch? b ('\x27' :: (body ++ ['\x27']) ++ t) = none := by
    intro g
    cases g <;> rfl
  have hmunch : munchChar? ('\x27' :: (body ++ ['\x27']) ++ t) =
      some ('\x27' :: (body ++ ['\x27'])).length := by
    cases h with
    | plain hq hb => simp [munchChar?_quote, hq, hb]
    | escape hc => simp [munchChar?_quote, hc]
  rw [Rule.first?_past hwords hgaps]
  exact (Rule.first?_cons_none (r := .token .string) rfl).trans
    (Rule.first?_cons_some (r := .token .charLiteral) hmunch)

/-! ## All kinds -/

/-- A lexeme of the language of its kind is matched as such, before layout and at the end. -/
theorem first?_proper {l : Lexeme} (hl : l.Proper) {b : Option Char}
    (hb : Text.endsWord b = true) {t : List Char} (ht : Ends t) :
    Rule.first? Rule.all b (l.text.toList ++ t) = some (.token l.kind, l.text.toList.length) := by
  obtain ⟨k, text⟩ := l
  obtain ⟨hlanguage, hreserved, hheader, hquote⟩ := hl
  simp only at hlanguage hreserved hheader hquote ⊢
  unfold Kind.Language at hlanguage
  split at hlanguage
  · obtain ⟨body, hbody, hchars⟩ := hlanguage
    rw [hchars]
    exact first?_string hbody b t
  · obtain ⟨body, hbody, hchars⟩ := hlanguage
    rw [hchars]
    exact first?_char hbody b t
  · refine first?_identifier hlanguage (fun k hk => ?_) (hheader rfl) b ht
    rw [String.ofList_toList]
    exact hreserved rfl k hk
  · exact first?_number hlanguage b ht
  · obtain ⟨ds, suffix, hds, hsuffix, hchars⟩ := hlanguage
    rw [hchars]
    exact first?_float hds hsuffix b ht
  · rw [String.ofList_toList] at hlanguage
    exact first?_spelled hlanguage hquote hb ht

end Offside
