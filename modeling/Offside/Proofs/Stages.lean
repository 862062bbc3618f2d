import Offside.Proofs.Coverage

/-!
# Stages of a scan

A scan comes from one position of a text to the next. A stage is a position that it comes to,
with the tokens found before it (`Reaches`). From a stage on it finds what it finds in all, less
those tokens (`Reaches.scanAt_eq`), and it has a last stage, at the end of the text or at a
character that no rule matches (`exists_last_stage`). Whatever holds of the first stage and is
kept from one to the next therefore holds where a token is found (`stage_of_tokens`) and where
the scan is stopped (`stage_of_error`).
-/

namespace Offside

/-! ## Positions -/

/-- The first rule that matches at a position of a text, with the length of the match. -/
def firstAt (source : List Char) (a : Nat) : Option (Rule × Nat) :=
  Rule.first? Rule.all (charBefore source a) (source.drop a)

/-- The scan of a text from a position on. -/
def scanAt (source : List Char) (a : Nat) : Scan :=
  scanFrom Rule.all source (charBefore source a) a (source.drop a)

/-- The next characters of a text at a position, as a token. -/
def Token.cut (source : List Char) (k : Kind) (a n : Nat) : Token :=
  ⟨k, String.ofList ((source.drop a).take n), a⟩

section Positions

variable {source : List Char} {a n : Nat}

theorem firstAt_bounds {r : Rule} (h : firstAt source a = some (r, n)) :
    0 < n ∧ a + n ≤ source.length := by
  have hpos := Rule.first?_pos h
  have hle := Rule.munch?_le (Rule.first?_munch h)
  rw [List.length_drop] at hle
  omega

theorem drop_ne_nil_of_firstAt {r : Rule} (h : firstAt source a = some (r, n)) :
    source.drop a ≠ [] := by
  have hbounds := firstAt_bounds h
  simp
  omega

theorem charBefore_firstAt {r : Rule} (h : firstAt source a = some (r, n)) :
    charBefore source (a + n) = ((source.drop a).take n).getLast? := by
  have hbounds := firstAt_bounds h
  exact charBefore_add hbounds.1 (by omega)

theorem scanAt_gap {g : Gap} (h : firstAt source a = some (.gap g, n)) :
    scanAt source a = scanAt source (a + n) := by
  rw [scanAt, scanAt, charBefore_firstAt h, ← List.drop_drop]
  exact scanFrom_gap (drop_ne_nil_of_firstAt h) h source a

theorem scanAt_token {k : Kind} (h : firstAt source a = some (.token k, n)) :
    scanAt source a = (scanAt source (a + n)).cons (Token.cut source k a n) := by
  rw [scanAt, scanAt, charBefore_firstAt h, ← List.drop_drop]
  exact scanFrom_token (drop_ne_nil_of_firstAt h) h source a

theorem scanAt_length (source : List Char) :
    scanAt source source.length = ⟨[Token.eof source.length], none⟩ := by
  simp [scanAt, scanFrom]

theorem drop_eq_cons {c : Char} (hc : source[a]? = some c) :
    source.drop a = c :: source.drop (a + 1) := by
  obtain ⟨hlt, rfl⟩ := List.getElem?_eq_some_iff.1 hc
  exact List.drop_eq_getElem_cons hlt

theorem scanAt_stop {c : Char} (hc : source[a]? = some c) (h : firstAt source a = none) :
    scanAt source a = ⟨[], some ⟨c, lineAt source a, columnAt source a, a⟩⟩ := by
  rw [firstAt, drop_eq_cons hc] at h
  rw [scanAt, drop_eq_cons hc, scanFrom_stop h]

end Positions

/-! ## Tokens at their places -/

/-- The token stands where it says, and is what the first rule that matches there makes. -/
structure Token.Made (source : List Char) (t : Token) : Prop where
  pos_eq : t.pos = t.start
  text_eq : (source.drop t.start).take t.text.length = t.text.toList
  first : Rule.first? Rule.all (charBefore source t.start) (source.drop t.start) =
    some (.token t.kind, t.text.length)

section Cut

variable {source : List Char} {a n : Nat} {k : Kind}

theorem Token.length_cut (h : firstAt source a = some (.token k, n)) :
    (Token.cut source k a n).text.length = n := by
  have hbounds := firstAt_bounds h
  simp [cut]
  omega

theorem Token.stop_cut (h : firstAt source a = some (.token k, n)) :
    (Token.cut source k a n).stop = a + n := by
  rw [stop, length_cut h]
  rfl

theorem Token.made_cut (h : firstAt source a = some (.token k, n)) :
    (Token.cut source k a n).Made source := by
  constructor
  · rfl
  · rw [length_cut h]
    simp [cut, start]
  · rw [length_cut h]
    exact h

theorem Token.Made.cut_eq {t : Token} (h : t.Made source) :
    Token.cut source t.kind t.start t.text.length = t := by
  rw [cut, h.text_eq, String.ofList_toList, ← h.pos_eq]

end Cut

/-! ## Stages -/

/-- A scan of the text from the position `a` comes to another one, and the tokens stand between
the two. -/
inductive Reaches (source : List Char) (a : Nat) : List Token → Nat → Prop
  | start : Reaches source a [] a
  | gap {ts : List Token} {b n : Nat} {g : Gap} (h : Reaches source a ts b)
      (hf : firstAt source b = some (.gap g, n)) : Reaches source a ts (b + n)
  | token {ts : List Token} {b n : Nat} {k : Kind} (h : Reaches source a ts b)
      (hf : firstAt source b = some (.token k, n)) :
      Reaches source a (ts ++ [Token.cut source k b n]) (b + n)

section Stages

variable {source : List Char} {a b : Nat} {ts : List Token}

/-- From a stage on a scan finds what it finds in all, less the tokens before the stage. -/
theorem Reaches.scanAt_eq (h : Reaches source a ts b) :
    scanAt source a = ⟨ts ++ (scanAt source b).tokens, (scanAt source b).error⟩ := by
  induction h with
  | start => rfl
  | gap h hf ih => rw [ih, scanAt_gap hf]
  | token h hf ih => simp [ih, scanAt_token hf, Scan.cons]

/-- From every stage a scan comes to the end of the text or to a place where no rule matches. -/
theorem Reaches.exists_stop (h : Reaches source a ts b) (hb : b ≤ source.length) :
    ∃ us c, Reaches source a us c ∧ (c = source.length ∨ c < source.length ∧
      firstAt source c = none) := by
  induction hm : source.length - b using Nat.strongRecOn generalizing b ts with
  | ind m ih =>
    subst hm
    by_cases hend : b = source.length
    · exact ⟨ts, b, h, .inl hend⟩
    cases hf : firstAt source b with
    | none => exact ⟨ts, b, h, .inr ⟨by omega, hf⟩⟩
    | some rn =>
      obtain ⟨r, n⟩ := rn
      obtain ⟨hpos, hle⟩ := firstAt_bounds hf
      cases r with
      | gap g => exact ih _ (by omega) (h.gap hf) hle rfl
      | token k => exact ih _ (by omega) (h.token hf) hle rfl

/-- The last stage of a scan, and all that the scan gives. -/
theorem exists_last_stage (ha : a ≤ source.length) : ∃ ts b, Reaches source a ts b ∧
    (scanAt source a = ⟨ts ++ [Token.eof source.length], none⟩ ∨
      ∃ c, source[b]? = some c ∧ firstAt source b = none ∧
        scanAt source a = ⟨ts, some ⟨c, lineAt source b, columnAt source b, b⟩⟩) := by
  have hstart : Reaches source a [] a := .start
  obtain ⟨ts, b, h, hstop⟩ := hstart.exists_stop ha
  refine ⟨ts, b, h, ?_⟩
  obtain rfl | ⟨hlt, hf⟩ := hstop
  · left
    rw [h.scanAt_eq, scanAt_length]
  · right
    have hc : source[b]? = some source[b] := List.getElem?_eq_getElem hlt
    refine ⟨source[b], hc, hf, ?_⟩
    simp [h.scanAt_eq, scanAt_stop hc hf]

theorem concat_eq_append_cons {t u : Token} {us vs : List Token} (h : ts ++ [u] = us ++ t :: vs) :
    vs = [] ∧ ts = us ∧ u = t ∨ ∃ ws, vs = ws ++ [u] ∧ ts = us ++ t :: ws := by
  obtain rfl | ⟨ws, w, rfl⟩ := List.eq_nil_or_concat vs
  · left
    obtain ⟨hts, hu⟩ := List.append_singleton_inj.1 h
    exact ⟨rfl, hts, hu⟩
  · right
    rw [List.concat_eq_append] at h ⊢
    rw [← List.cons_append, ← List.append_assoc] at h
    obtain ⟨hts, rfl⟩ := List.append_singleton_inj.1 h
    exact ⟨ws, rfl, hts⟩

/-- Every token found before a stage was found at a stage of its own. -/
theorem Reaches.stage_of_token (h : Reaches source a ts b) {us vs : List Token} {t : Token}
    (hts : ts = us ++ t :: vs) : Reaches source a us t.start ∧ t.Made source := by
  induction h generalizing vs with
  | start => simp at hts
  | gap h hf ih => exact ih hts
  | token h hf ih =>
    obtain ⟨-, rfl, rfl⟩ | ⟨ws, -, hws⟩ := concat_eq_append_cons hts
    · exact ⟨h, Token.made_cut hf⟩
    · exact ih hws

end Stages

/-! ## Where tokens are found and where a scan is stopped -/

section Scans

variable {source : List Char} {a : Nat}

/-- A token is found at a stage with the tokens before it. -/
theorem stage_of_tokens (ha : a ≤ source.length) {us vs : List Token} {t : Token}
    (h : (scanAt source a).tokens = us ++ t :: vs) (hk : t.kind ≠ .eof) :
    Reaches source a us t.start ∧ t.Made source := by
  obtain ⟨ts, b, hts, hscan | ⟨c, -, -, hscan⟩⟩ := exists_last_stage ha
  · rw [hscan] at h
    obtain ⟨-, -, rfl⟩ | ⟨ws, -, hws⟩ := concat_eq_append_cons h
    · exact absurd rfl hk
    · exact hts.stage_of_token hws
  · rw [hscan] at h
    exact hts.stage_of_token h

/-- What comes behind a token is what a scan from there gives. -/
theorem tokens_behind (ha : a ≤ source.length) {us vs : List Token} {t : Token}
    (h : (scanAt source a).tokens = us ++ t :: vs) (hk : t.kind ≠ .eof) :
    vs = (scanAt source t.stop).tokens ∧
      (scanAt source a).error = (scanAt source t.stop).error := by
  obtain ⟨hstage, hmade⟩ := stage_of_tokens ha h hk
  have hscan := (hstage.token hmade.first).scanAt_eq
  rw [hmade.cut_eq] at hscan
  constructor
  · have htokens := congrArg Scan.tokens hscan
    rw [h] at htokens
    simpa [Token.stop] using htokens
  · rw [hscan]
    rfl

/-- A scan is stopped at a stage with all its tokens, by a character at which no rule matches. -/
theorem stage_of_error (ha : a ≤ source.length) {e : ScanError}
    (h : (scanAt source a).error = some e) :
    Reaches source a (scanAt source a).tokens e.offset ∧ source[e.offset]? = some e.char ∧
      firstAt source e.offset = none ∧ e.line = lineAt source e.offset ∧
      e.column = columnAt source e.offset := by
  obtain ⟨ts, b, hts, hscan | ⟨c, hc, hf, hscan⟩⟩ := exists_last_stage ha
  · rw [hscan] at h
    cases h
  · rw [hscan] at h ⊢
    cases h
    exact ⟨hts, hc, hf, rfl, rfl⟩

/-- Every token of a scan but the end was made by the first rule that matches at its place. -/
theorem made_of_mem_scanFrom (source : List Char) {a : Nat} (ha : a ≤ source.length) :
    ∀ t ∈ (scanFrom Rule.all source (charBefore source a) a (source.drop a)).tokens,
      t.kind ≠ .eof → t.Made source := by
  intro t ht hk
  obtain ⟨us, vs, hsplit⟩ := List.append_of_mem ht
  exact (stage_of_tokens ha hsplit hk).2

end Scans

end Offside
