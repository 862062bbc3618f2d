import Offside.Token.Scan

/-!
# What rules match

General facts about the matches of the scanner's rules, each proved rule by rule: a
kind with one spelling matches nothing else, a match ends inside the text, of the
character before it only matters whether a word ends there, only a string literal
starts with a double quote, and nothing but layout starts with layout.
-/

namespace Offside

open Gap (Piece)

/-! ## A match is what its kind spells -/

theorem Rule.first?_munch {rules : List Rule} {before : Option Char} {text : List Char} {r : Rule}
    {n : Nat} (h : first? rules before text = some (r, n)) : r.munch? before text = some n := by
  obtain ⟨r', _, h'⟩ := List.exists_of_findSome?_eq_some h
  obtain ⟨m, hm, he⟩ := Option.map_eq_some_iff.1 h'
  cases he
  exact hm

theorem take_of_isPrefixOf {word text : List Char} (h : word.isPrefixOf text = true) :
    text.take word.length = word :=
  (List.prefix_iff_eq_take.1 (List.isPrefixOf_iff_prefix.1 h)).symm

theorem take_munchExactly? {word text : List Char} {n : Nat}
    (h : munchExactly? word text = some n) : text.take n = word := by
  have hn := munchExactly?_eq h
  subst hn
  unfold munchExactly? at h
  split at h
  · next hp => exact take_of_isPrefixOf hp
  · cases h

theorem take_munchAlone? {word text : List Char} {before : Option Char} {n : Nat}
    (h : munchAlone? word before text = some n) : text.take n = word := by
  have hn := munchAlone?_eq h
  subst hn
  unfold munchAlone? at h
  split at h
  · next hp =>
    simp only [Bool.and_eq_true] at hp
    exact take_of_isPrefixOf hp.1.1
  · cases h

/-- A kind with one spelling matches only that. -/
theorem Kind.take_munch? {k : Kind} {w : String} (hw : k.spelling? = some w)
    {before : Option Char} {text : List Char} {n : Nat} (h : k.munch? before text = some n) :
    text.take n = w.toList := by
  unfold Kind.munch? at h
  split at h
  iterate 5 cases hw
  rw [hw] at h
  simp only at h
  split at h
  · exact take_munchAlone? h
  · exact take_munchExactly? h

theorem Kind.munch?_eof (before : Option Char) (text : List Char) :
    Kind.eof.munch? before text = none := rfl

/-! ## A match ends inside the text -/

theorem length_takeWhile_le {α : Type} (p : α → Bool) (l : List α) :
    (l.takeWhile p).length ≤ l.length := (List.takeWhile_prefix p).length_le

theorem munchIdentifier?_le {t : List Char} {n : Nat} (h : munchIdentifier? t = some n) :
    n ≤ t.length := by
  cases t with
  | nil => cases h
  | cons c cs =>
    simp only [munchIdentifier?] at h
    split at h
    · cases h
      have := length_takeWhile_le isIdentifierPart cs
      rw [List.length_cons]
      omega
    · cases h

theorem length_le_of_take {word text : List Char} (h : text.take word.length = word) :
    word.length ≤ text.length := by
  have := congrArg List.length h
  rw [List.length_take] at this
  omega

theorem munchExactly?_le {word t : List Char} {n : Nat} (h : munchExactly? word t = some n) :
    n ≤ t.length := by
  have ht := take_munchExactly? h
  rw [munchExactly?_eq h] at ht ⊢
  exact length_le_of_take ht

theorem munchAlone?_le {word t : List Char} {before : Option Char} {n : Nat}
    (h : munchAlone? word before t = some n) : n ≤ t.length := by
  have ht := take_munchAlone? h
  rw [munchAlone?_eq h] at ht ⊢
  exact length_le_of_take ht

theorem munchStringRest?_le {t : List Char} {n : Nat} (h : munchStringRest? t = some n) :
    n ≤ t.length := by
  fun_induction munchStringRest? t generalizing n with
  | case1 => cases h
  | case2 => cases h; simp
  | case3 => cases h
  | case4 => cases h
  | case5 _ _ _ _ ih =>
    obtain ⟨m, hm, rfl⟩ := Option.map_eq_some_iff.1 h
    have := ih hm
    simp
    omega
  | case6 _ _ _ _ ih =>
    obtain ⟨m, hm, rfl⟩ := Option.map_eq_some_iff.1 h
    have := ih hm
    simp
    omega

theorem munchString?_le {t : List Char} {n : Nat} (h : munchString? t = some n) :
    n ≤ t.length := by
  cases t with
  | nil => cases h
  | cons c cs =>
    simp only [munchString?] at h
    split at h
    · obtain ⟨m, hm, rfl⟩ := Option.map_eq_some_iff.1 h
      have := munchStringRest?_le hm
      rw [List.length_cons]
      omega
    · cases h

theorem munchChar?_le {t : List Char} {n : Nat} (h : munchChar? t = some n) : n ≤ t.length := by
  unfold munchChar? at h
  split at h <;> (try split at h) <;> cases h <;> simp

theorem munchNumber?_le {t : List Char} {n : Nat} (h : munchNumber? t = some n) :
    n ≤ t.length := by
  have hw := length_takeWhile_le Text.isDecimal t
  simp only [munchNumber?] at h
  split at h
  · cases h
  · split at h
    · next rest hrest =>
      have hl := congrArg List.length hrest
      have hf := length_takeWhile_le Text.isDecimal rest
      rw [List.length_drop, List.length_cons] at hl
      split at h <;> cases h <;> omega
    · cases h; exact hw

theorem munchFloat?_le {t : List Char} {n : Nat} (h : munchFloat? t = some n) :
    n ≤ t.length := by
  simp only [munchFloat?] at h
  split at h
  · cases h
  · next m hm =>
    split at h
    · next c rest hrest =>
      have hl := congrArg List.length hrest
      rw [List.length_drop, List.length_cons] at hl
      split at h <;> cases h
      omega
    · cases h

theorem Kind.munch?_le {k : Kind} {b : Option Char} {t : List Char} {n : Nat}
    (h : k.munch? b t = some n) : n ≤ t.length := by
  unfold Kind.munch? at h
  split at h
  · exact munchString?_le h
  · exact munchChar?_le h
  · exact munchIdentifier?_le h
  · exact munchFloat?_le h
  · exact munchNumber?_le h
  · split at h
    · cases h
    · split at h
      · exact munchAlone?_le h
      · exact munchExactly?_le h

theorem Gap.munchBlockRest?_le {t : List Char} {n : Nat} (h : munchBlockRest? t = some n) :
    n ≤ t.length := by
  fun_induction munchBlockRest? t generalizing n with
  | case1 => cases h
  | case2 c cs hc =>
    simp only [Bool.and_eq_true, decide_eq_true_eq] at hc
    obtain ⟨ds, rfl⟩ := List.head?_eq_some_iff.1 hc.2
    cases h
    simp
  | case3 => cases h
  | case4 _ _ _ _ ih =>
    obtain ⟨m, hm, rfl⟩ := Option.map_eq_some_iff.1 h
    have := ih hm
    simp
    omega

theorem Gap.Piece.munch?_le {p : Piece} {t : List Char} {n : Nat} (h : p.munch? t = some n) :
    n ≤ t.length := by
  have hw := length_takeWhile_le Text.isBlank t
  cases p with
  | exactly word => exact munchExactly?_le h
  | spaces =>
    simp only [Piece.munch?] at h
    split at h <;> cases h
    exact hw
  | optionalSpaces =>
    cases h
    exact hw
  | identifier => exact munchIdentifier?_le h
  | optionalBrace =>
    cases h
    cases t <;> simp
    split <;> omega

theorem Gap.munchPieces?_le {ps : List Piece} {t : List Char} {n : Nat}
    (h : munchPieces? t ps = some n) : n ≤ t.length := by
  induction ps generalizing t n with
  | nil => cases h; simp
  | cons p ps ih =>
    simp only [munchPieces?] at h
    split at h
    · cases h
    · next m hm =>
      obtain ⟨l, hl, rfl⟩ := Option.map_eq_some_iff.1 h
      have h1 := Piece.munch?_le hm
      have h2 := ih hl
      rw [List.length_drop] at h2
      omega

theorem Gap.munchHeader?_le {ps : List Piece} {b : Option Char} {t : List Char} {n : Nat}
    (h : munchHeader? ps b t = some n) : n ≤ t.length := by
  simp only [munchHeader?] at h
  split at h
  · next hc =>
    simp only [Bool.and_eq_true] at hc
    have h1 := length_le_of_take (take_of_isPrefixOf hc.1)
    obtain ⟨l, hl, rfl⟩ := Option.map_eq_some_iff.1 h
    have h2 := munchPieces?_le hl
    rw [List.length_drop] at h2
    omega
  · cases h

theorem Gap.munch?_le {g : Gap} {b : Option Char} {t : List Char} {n : Nat}
    (h : g.munch? b t = some n) : n ≤ t.length := by
  cases g with
  | layout =>
    simp only [munch?, munchLayout?] at h
    split at h <;> cases h
    exact length_takeWhile_le _ _
  | lineComment =>
    simp only [munch?] at h
    unfold munchLineComment? at h
    split at h
    · next cs =>
      have := length_takeWhile_le (· != '\n') cs
      cases h
      simp
      omega
    · cases h
  | blockComment =>
    simp only [munch?] at h
    unfold munchBlockComment? at h
    split at h
    · obtain ⟨m, hm, rfl⟩ := Option.map_eq_some_iff.1 h
      have := munchBlockRest?_le hm
      simp
      omega
    · cases h
  | classHeader => exact munchHeader?_le h
  | mainHeader => exact munchHeader?_le h

/-- A match ends inside the text. -/
theorem Rule.munch?_le {r : Rule} {b : Option Char} {t : List Char} {n : Nat}
    (h : r.munch? b t = some n) : n ≤ t.length := by
  cases r with
  | token k => exact Kind.munch?_le h
  | gap g => exact Gap.munch?_le h

/-! ## What stands before a match -/

/-- Of the character before a match it only matters whether a word may start after it. -/
theorem Rule.munch?_before {b b' : Option Char} (h : Text.endsWord b = Text.endsWord b')
    (r : Rule) (t : List Char) : r.munch? b t = r.munch? b' t := by
  cases r with
  | token k =>
    show k.munch? b t = k.munch? b' t
    unfold Kind.munch?
    split <;> try rfl
    split <;> try rfl
    simp only [munchAlone?, h]
  | gap g =>
    cases g with
    | layout => rfl
    | lineComment => rfl
    | blockComment => rfl
    | classHeader => simp only [munch?, Gap.munch?, Gap.munchHeader?, h]
    | mainHeader => simp only [munch?, Gap.munch?, Gap.munchHeader?, h]

theorem Rule.first?_before {b b' : Option Char} (h : Text.endsWord b = Text.endsWord b')
    (rules : List Rule) (t : List Char) : first? rules b t = first? rules b' t := by
  unfold first?
  congr 1
  funext r
  rw [munch?_before h]

/-! ## Characters that no token starts with -/

/-- An identifier starts with an underscore or a letter. -/
theorem toNat_of_isIdentifierStart {c : Char} (h : isIdentifierStart c = true) :
    c.toNat = 0x5F ∨ 0x41 ≤ c.toNat ∧ c.toNat ≤ 0x5A ∨ 0x61 ≤ c.toNat ∧ c.toNat ≤ 0x7A := by
  unfold isIdentifierStart Char.isAlpha Char.isUpper Char.isLower at h
  simp only [Bool.or_eq_true, Bool.and_eq_true, decide_eq_true_eq, beq_iff_eq,
    UInt32.le_iff_toNat_le] at h
  rcases h with (h | h) | rfl
  · exact .inr (.inl h)
  · exact .inr (.inr h)
  · exact .inl rfl

theorem isPrefixOf_of_not_mem {word : List Char} (hne : word ≠ []) {c : Char} (h : c ∉ word)
    (t : List Char) : word.isPrefixOf (c :: t) = false := by
  cases word with
  | nil => exact absurd rfl hne
  | cons d ds =>
    have hd : d ≠ c := by
      rintro rfl
      exact h (by simp)
    simp [List.isPrefixOf, hd]

/-- No kind has a double quote or layout in its spelling. -/
theorem Kind.spelling?_plain {k : Kind} {w : String} (h : k.spelling? = some w) :
    '\x22' ∉ w.toList ∧ ∀ c ∈ w.toList, Gap.isLayout c = false := by
  have hall : (w.toList.all fun c => c != '\x22' && !Gap.isLayout c) = true := by
    cases k <;> simp only [spelling?, Option.some.injEq, reduceCtorEq] at h <;> subst h <;> decide
  simp only [List.all_eq_true, Bool.and_eq_true, bne_iff_ne, Bool.not_eq_true'] at hall
  exact ⟨fun hm => (hall _ hm).1 rfl, fun c hc => (hall c hc).2⟩

theorem Kind.spelling?_ne_nil {k : Kind} {w : String} (h : k.spelling? = some w) :
    w.toList ≠ [] := List.length_pos_iff.1 (spelling?_pos h)

theorem munchChar?_ne {c : Char} (h : c ≠ '\x27') (t : List Char) : munchChar? (c :: t) = none := by
  unfold munchChar?
  split
  · next h' => cases h'; exact absurd rfl h
  · next h' => cases h'; exact absurd rfl h
  · rfl

theorem Kind.munch?_foreign {k : Kind} {c : Char} (hs : k = .string → c ≠ '\x22')
    (hq : c ≠ '\x27') (hi : isIdentifierStart c = false) (hd : Text.isDecimal c = false)
    (hw : ∀ w, k.spelling? = some w → c ∉ w.toList) (b : Option Char) (t : List Char) :
    k.munch? b (c :: t) = none := by
  have hn : munchNumber? (c :: t) = none := by simp [munchNumber?, hd]
  unfold Kind.munch?
  split
  · simp [munchString?, hs rfl]
  · exact munchChar?_ne hq t
  · simp [munchIdentifier?, hi]
  · simp [munchFloat?, hn]
  · exact hn
  · split
    · rfl
    · next w hsp =>
      have hp := isPrefixOf_of_not_mem (spelling?_ne_nil hsp) (hw w hsp) t
      simp [munchAlone?, munchExactly?, hp]

/-- What holds of spaces, tabs and line ends holds of layout. -/
@[elab_as_elim]
theorem Gap.isLayout_elim {P : Char → Prop} {c : Char} (hc : isLayout c = true)
    (h : P ' ' ∧ P '\t' ∧ P '\r' ∧ P '\n') : P c := by
  obtain ⟨hspace, htab, hreturn, hfeed⟩ := h
  have hcases : c = ' ' ∨ c = '\t' ∨ c = '\r' ∨ c = '\n' := by
    simpa [isLayout, or_assoc] using hc
  obtain rfl | rfl | rfl | rfl := hcases
  · exact hspace
  · exact htab
  · exact hreturn
  · exact hfeed

/-- No kind has layout in its spelling. -/
theorem Kind.layout_not_mem {c : Char} (hc : Gap.isLayout c = true) {k : Kind} {w : String}
    (hw : k.spelling? = some w) : c ∉ w.toList := by
  intro hm
  rw [(spelling?_plain hw).2 c hm] at hc
  cases hc

/-- No token starts with layout. -/
theorem Kind.munch?_layout {c : Char} (hc : Gap.isLayout c = true) (k : Kind) (b : Option Char)
    (t : List Char) : k.munch? b (c :: t) = none := by
  have hdouble : c ≠ '\x22' := Gap.isLayout_elim hc (by decide)
  have hsingle : c ≠ '\x27' := Gap.isLayout_elim hc (by decide)
  have hstart : isIdentifierStart c = false := Gap.isLayout_elim hc (by decide)
  have hdecimal : Text.isDecimal c = false := Gap.isLayout_elim hc (by decide)
  exact munch?_foreign (fun _ => hdouble) hsingle hstart hdecimal
    (fun _ hw => layout_not_mem hc hw) b t

theorem Gap.munch?_quote (g : Gap) (b : Option Char) (t : List Char) :
    g.munch? b ('\x22' :: t) = none := by
  have hp : headerStart.isPrefixOf ('\x22' :: t) = false := by simp [headerStart, List.isPrefixOf]
  cases g with
  | layout => simp [munch?, munchLayout?, isLayout]
  | lineComment => simp [munch?, munchLineComment?]
  | blockComment => simp [munch?, munchBlockComment?]
  | classHeader => simp [munch?, munchHeader?, hp]
  | mainHeader => simp [munch?, munchHeader?, hp]

/-- Only a string literal starts with a double quote. -/
theorem Rule.munch?_quote {r : Rule} (hr : r ≠ .token .string) (b : Option Char)
    (t : List Char) : r.munch? b ('\x22' :: t) = none := by
  cases r with
  | token k =>
    exact Kind.munch?_foreign (fun hk => absurd (hk ▸ rfl) hr) (by decide) rfl rfl
      (fun w hw => (Kind.spelling?_plain hw).1) b t
  | gap g => exact Gap.munch?_quote g b t

/-- Layout is matched as such, up to its end. -/
theorem Rule.first?_layout {c : Char} (hc : Gap.isLayout c = true) (b : Option Char)
    (t : List Char) :
    first? Rule.all b (c :: t) = some (.gap .layout, (t.takeWhile Gap.isLayout).length + 1) := by
  have hwords : ((Kind.types ++ Kind.controls).map token).findSome?
      (fun r => (r.munch? b (c :: t)).map (r, ·)) = none := by
    rw [List.findSome?_eq_none_iff]
    intro r hr
    obtain ⟨k, _, rfl⟩ := List.mem_map.1 hr
    simp [munch?, Kind.munch?_layout hc]
  have hlayout : Gap.munchLayout? (c :: t) = some ((t.takeWhile Gap.isLayout).length + 1) := by
    simp [Gap.munchLayout?, hc]
  rw [first?, Rule.all, List.append_assoc, List.findSome?_append, hwords, Option.none_or]
  simp [Gap.all, munch?, Gap.munch?, hlayout]

end Offside
