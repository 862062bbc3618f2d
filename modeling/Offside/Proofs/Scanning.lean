import Offside.Proofs.Lexemes
import Offside.Proofs.Matching

/-!
# What a scan gives

The scanner goes from one match of a rule to the next. Two views of that are stated
here. `lexemesOf?` forgets the places of the tokens, so that scans of different texts
can be compared. `tokenize_induction` keeps them: what holds wherever a rule matches
holds of every token of a text, and a last token marks the end.
-/

namespace Offside

open Lexeme (eof Closed)

/-! ## One step of a scan -/

section Steps

variable {rules : List Rule} {before : Option Char} {text : List Char}

theorem scanFrom_stop {c : Char} {cs : List Char} (hf : Rule.first? rules before (c :: cs) = none)
    (source : List Char) (offset : Nat) : scanFrom rules source before offset (c :: cs) =
      ⟨[], some ⟨c, lineAt source offset, columnAt source offset, offset⟩⟩ := by
  rw [scanFrom]
  split
  · rfl
  · next hf' => rw [hf] at hf'; cases hf'

theorem scanFrom_none (h : text ≠ []) (hf : Rule.first? rules before text = none)
    (source : List Char) (offset : Nat) :
    (scanFrom rules source before offset text).error ≠ none := by
  obtain ⟨c, cs, rfl⟩ := List.exists_cons_of_ne_nil h
  rw [scanFrom_stop hf]
  simp

theorem scanFrom_token (h : text ≠ []) {k : Kind} {n : Nat}
    (hf : Rule.first? rules before text = some (.token k, n)) (source : List Char)
    (offset : Nat) :
    scanFrom rules source before offset text =
      (scanFrom rules source (text.take n).getLast? (offset + n) (text.drop n)).cons
        ⟨k, String.ofList (text.take n), offset⟩ := by
  obtain ⟨c, cs, rfl⟩ := List.exists_cons_of_ne_nil h
  rw [scanFrom]
  split
  · next hf' => rw [hf] at hf'; cases hf'
  · next hf' => rw [hf] at hf'; cases hf'; rfl

theorem scanFrom_gap (h : text ≠ []) {g : Gap} {n : Nat}
    (hf : Rule.first? rules before text = some (.gap g, n)) (source : List Char)
    (offset : Nat) :
    scanFrom rules source before offset text =
      scanFrom rules source (text.take n).getLast? (offset + n) (text.drop n) := by
  obtain ⟨c, cs, rfl⟩ := List.exists_cons_of_ne_nil h
  rw [scanFrom]
  split
  · next hf' => rw [hf] at hf'; cases hf'
  · next hf' => rw [hf] at hf'; cases hf'; rfl

theorem length_drop_first? (h : text ≠ []) {r : Rule} {n : Nat}
    (hf : Rule.first? rules before text = some (r, n)) : (text.drop n).length < text.length := by
  have hpos := Rule.first?_pos hf
  have hlen := List.length_pos_iff.2 h
  rw [List.length_drop]
  omega

end Steps

/-- Of the character before a text it only matters whether a word may start after it. -/
theorem scanFrom_before {b b' : Option Char} (h : Text.endsWord b = Text.endsWord b')
    (rules : List Rule) (source : List Char) (n : Nat) (text : List Char) :
    scanFrom rules source b n text = scanFrom rules source b' n text := by
  cases text with
  | nil => rw [scanFrom, scanFrom]
  | cons c cs =>
    have hfirst := Rule.first?_before h rules (c :: cs)
    cases hf : Rule.first? rules b (c :: cs) with
    | none => rw [scanFrom_stop hf, scanFrom_stop (hfirst ▸ hf)]
    | some rn =>
      obtain ⟨r, k⟩ := rn
      have hf' := hfirst ▸ hf
      cases r with
      | token kind => rw [scanFrom_token (by simp) hf, scanFrom_token (by simp) hf']
      | gap g => rw [scanFrom_gap (by simp) hf, scanFrom_gap (by simp) hf']

/-! ## Scans without places -/

/-- The lexemes of a scan that came to the end of its text. -/
def Scan.lexemes? (s : Scan) : Option (List Lexeme) :=
  match s.error with
  | none => some (s.tokens.map Token.lexeme)
  | some _ => none

/-- What a match of the rule leaves. -/
def Rule.lexemesOf (r : Rule) (matched : List Char) : List Lexeme :=
  match r with
  | .token k => [⟨k, String.ofList matched⟩]
  | .gap _ => []

/-- The lexemes of a text after the character `before`, if it can be scanned to its end. -/
def lexemesOf? (before : Option Char) (text : List Char) : Option (List Lexeme) :=
  (scanFrom Rule.all [] before 0 text).lexemes?

theorem Scan.lexemes?_none {s : Scan} (h : s.error ≠ none) : s.lexemes? = none := by
  obtain ⟨e, he⟩ := Option.ne_none_iff_exists'.1 h
  simp [Scan.lexemes?, he]

theorem Scan.lexemes?_eq_some_iff {s : Scan} {ls : List Lexeme} :
    s.lexemes? = some ls ↔ s.error = none ∧ s.tokens.map Token.lexeme = ls := by
  unfold Scan.lexemes?
  cases s.error <;> simp

theorem Scan.lexemes?_cons (t : Token) (s : Scan) :
    (s.cons t).lexemes? = s.lexemes?.map (t.lexeme :: ·) := by
  cases s with
  | mk tokens error => cases error <;> rfl

/-- A scan goes on behind the first rule that matches. -/
theorem lexemes?_scanFrom_step (source : List Char) {before : Option Char} (offset : Nat)
    {text : List Char} (h : text ≠ []) {r : Rule} {n : Nat}
    (hf : Rule.first? Rule.all before text = some (r, n)) :
    (scanFrom Rule.all source before offset text).lexemes? =
      (scanFrom Rule.all source (text.take n).getLast? (offset + n) (text.drop n)).lexemes?.map
        (r.lexemesOf (text.take n) ++ ·) := by
  cases r with
  | token k =>
    rw [scanFrom_token h hf, Scan.lexemes?_cons]
    rfl
  | gap g =>
    rw [scanFrom_gap h hf]
    simp [Rule.lexemesOf]

/-- Neither the places of the tokens nor the whole text matter to the lexemes. -/
theorem lexemes?_scanFrom (source : List Char) (before : Option Char) (offset : Nat)
    (text : List Char) :
    (scanFrom Rule.all source before offset text).lexemes? = lexemesOf? before text := by
  unfold lexemesOf?
  generalize 0 = start
  induction hn : text.length using Nat.strongRecOn generalizing before offset start text with
  | ind m ih =>
    subst hn
    by_cases ht : text = []
    · subst ht
      simp [scanFrom, Scan.lexemes?]
    · cases hf : Rule.first? Rule.all before text with
      | none =>
        rw [Scan.lexemes?_none (scanFrom_none ht hf source offset),
          Scan.lexemes?_none (scanFrom_none ht hf [] start)]
      | some rn =>
        obtain ⟨r, n⟩ := rn
        rw [lexemes?_scanFrom_step source offset ht hf, lexemes?_scanFrom_step [] start ht hf,
          ih _ (length_drop_first? ht hf) _ (offset + n) _ (start + n) rfl]

@[simp] theorem lexemesOf?_nil (before : Option Char) : lexemesOf? before [] = some [eof] := by
  simp [lexemesOf?, scanFrom, Scan.lexemes?]

theorem lexemesOf?_none {before : Option Char} {text : List Char} (h : text ≠ [])
    (hf : Rule.first? Rule.all before text = none) : lexemesOf? before text = none :=
  Scan.lexemes?_none (scanFrom_none h hf [] 0)

theorem lexemesOf?_some {before : Option Char} {text : List Char} (h : text ≠ []) {r : Rule}
    {n : Nat} (hf : Rule.first? Rule.all before text = some (r, n)) :
    lexemesOf? before text =
      (lexemesOf? (text.take n).getLast? (text.drop n)).map (r.lexemesOf (text.take n) ++ ·) := by
  rw [← lexemes?_scanFrom [] (text.take n).getLast? (0 + n) (text.drop n)]
  exact lexemes?_scanFrom_step [] 0 h hf

theorem lexemesOf?_token {b : Option Char} {u t : List Char} {k : Kind} {ls : List Lexeme}
    (hf : Rule.first? Rule.all b (u ++ t) = some (.token k, u.length))
    (h : lexemesOf? u.getLast? t = some ls) :
    lexemesOf? b (u ++ t) = some (⟨k, String.ofList u⟩ :: ls) := by
  have hne : u ++ t ≠ [] := by
    intro he
    rw [he] at hf
    cases hf
  rw [lexemesOf?_some hne hf, List.take_left, List.drop_left, h]
  rfl

theorem lexemesOf?_gap {b : Option Char} {u t : List Char} {g : Gap} {ls : List Lexeme}
    (hf : Rule.first? Rule.all b (u ++ t) = some (.gap g, u.length))
    (h : lexemesOf? u.getLast? t = some ls) : lexemesOf? b (u ++ t) = some ls := by
  have hne : u ++ t ≠ [] := by
    intro he
    rw [he] at hf
    cases hf
  rw [lexemesOf?_some hne hf, List.take_left, List.drop_left, h]
  rfl

/-- The lexemes of a whole text are those of its tokens. -/
theorem lexemesOf?_eq_some_iff {s : String} {ls : List Lexeme} :
    lexemesOf? none s.toList = some ls ↔ ∃ ts, tokenize s = .ok ts ∧ ts.map Token.lexeme = ls := by
  rw [← lexemes?_scanFrom s.toList none 0 s.toList]
  simp only [tokenize, scan, Scan.lexemes?]
  cases (scanFrom Rule.all s.toList none 0 s.toList).error <;> simp

theorem lexemesOf?_eq_none_iff {s : String} :
    lexemesOf? none s.toList = none ↔ ∃ e, tokenize s = .error e := by
  rw [← lexemes?_scanFrom s.toList none 0 s.toList]
  simp only [tokenize, scan, Scan.lexemes?]
  cases (scanFrom Rule.all s.toList none 0 s.toList).error <;> simp

/-! ## Bounded scans -/

/-- A scan in at most `rounds` rounds; nothing if these are too few. -/
def scanWithin (rules : List Rule) (source : List Char) :
    (rounds : Nat) → Option Char → Nat → List Char → Option Scan
  | _, _, offset, [] => some ⟨[Token.eof offset], none⟩
  | 0, _, _, _ :: _ => none
  | rounds + 1, before, offset, c :: cs =>
    match Rule.first? rules before (c :: cs) with
    | none => some ⟨[], some ⟨c, lineAt source offset, columnAt source offset, offset⟩⟩
    | some (r, n) =>
      let lexeme := (c :: cs).take n
      let rest := scanWithin rules source rounds lexeme.getLast? (offset + n) ((c :: cs).drop n)
      match r with
      | .token k => rest.map (Scan.cons ⟨k, String.ofList lexeme, offset⟩)
      | .gap _ => rest

/-- There are no more rounds than characters. -/
theorem scanWithin_eq (rules : List Rule) (source : List Char) {rounds : Nat} {text : List Char}
    (h : text.length ≤ rounds) (before : Option Char) (offset : Nat) :
    scanWithin rules source rounds before offset text =
      some (scanFrom rules source before offset text) := by
  induction rounds generalizing before offset text with
  | zero =>
    obtain rfl := List.length_eq_zero_iff.1 (Nat.le_zero.1 h)
    simp [scanWithin, scanFrom]
  | succ rounds ih =>
    cases text with
    | nil => simp [scanWithin, scanFrom]
    | cons c cs =>
      rw [scanWithin]
      cases hf : Rule.first? rules before (c :: cs) with
      | none => simp only [scanFrom_stop hf]
      | some rn =>
        obtain ⟨r, n⟩ := rn
        have hlt := length_drop_first? (by simp) hf
        have hrest := @ih ((c :: cs).drop n) (by omega)
        cases r with
        | token k => simp only [hrest, scanFrom_token (by simp) hf, Option.map_some]
        | gap g => simp only [hrest, scanFrom_gap (by simp) hf]

/-- A bounded scan computes the lexemes of a text. -/
theorem lexemesOf?_eq_within (before : Option Char) (text : List Char) : lexemesOf? before text =
    (scanWithin Rule.all [] text.length before 0 text).bind Scan.lexemes? := by
  rw [scanWithin_eq _ _ (Nat.le_refl _), Option.bind_some]
  rfl

/-! ## What holds of every token -/

/-- `P` holds of every token that a rule makes of `source`. -/
def Rule.Makes (source : List Char) (P : Token → Prop) : Prop :=
  ∀ (before : Option Char) (offset : Nat) (k : Kind) (n : Nat),
    Rule.first? Rule.all before (source.drop offset) = some (.token k, n) →
      P ⟨k, String.ofList ((source.drop offset).take n), offset⟩

theorem scanFrom_induction {source : List Char} {P : Token → Prop} (hP : Rule.Makes source P)
    (before : Option Char) (offset : Nat) {text : List Char} (ht : source.drop offset = text)
    (h : (scanFrom Rule.all source before offset text).error = none) :
    ∃ us m, (scanFrom Rule.all source before offset text).tokens = us ++ [Token.eof m] ∧
      ∀ t ∈ us, P t := by
  induction hn : text.length using Nat.strongRecOn generalizing before offset text with
  | ind m ih =>
    subst hn
    by_cases hne : text = []
    · subst hne
      exact ⟨[], offset, by simp [scanFrom], by simp⟩
    cases hf : Rule.first? Rule.all before text with
    | none => exact absurd h (scanFrom_none hne hf source offset)
    | some rn =>
      obtain ⟨r, n⟩ := rn
      have hlt := length_drop_first? hne hf
      have hrest : source.drop (offset + n) = text.drop n := by
        rw [← ht, List.drop_drop]
      cases r with
      | gap g =>
        rw [scanFrom_gap hne hf] at h ⊢
        exact ih _ hlt _ _ hrest h rfl
      | token k =>
        rw [scanFrom_token hne hf] at h ⊢
        obtain ⟨us, m, hus, hall⟩ := ih _ hlt _ _ hrest h rfl
        refine ⟨_ :: us, m, by simp only [Scan.cons, hus]; rfl, ?_⟩
        rintro t (_ | ⟨_, hmem⟩)
        · subst ht
          exact hP before offset k n hf
        · exact hall t hmem

/-- What holds of every token that a rule makes holds of all tokens of a text but the last,
which marks the end. -/
theorem tokenize_induction {s : String} {P : Token → Prop} (hP : Rule.Makes s.toList P)
    {ts : List Token} (h : tokenize s = .ok ts) :
    ∃ us m, ts = us ++ [Token.eof m] ∧ ∀ t ∈ us, P t := by
  simp only [tokenize, scan] at h
  cases he : (scanFrom Rule.all s.toList none 0 s.toList).error with
  | some e =>
    rw [he] at h
    cases h
  | none =>
    rw [he] at h
    cases h
    exact scanFrom_induction hP none 0 rfl he

/-! ## Tokens are well spelled -/

/-- The tokens of a text are well spelled, and the end stands last and nowhere else. -/
theorem closed_tokenize {s : String} {ts : List Token} (h : tokenize s = .ok ts) :
    Closed (ts.map Token.lexeme) := by
  have hmade : Rule.Makes s.toList fun t => t.kind ≠ .eof ∧ t.lexeme.WellSpelled := by
    intro before offset k n hf
    have hm : k.munch? before (s.toList.drop offset) = some n := Rule.first?_munch hf
    constructor
    · rintro rfl
      rw [Kind.munch?_eof] at hm
      cases hm
    · intro w hw
      show String.ofList _ = w
      rw [Kind.take_munch? hw hm, String.ofList_toList]
  obtain ⟨us, m, rfl, hall⟩ := tokenize_induction hmade h
  rw [List.map_append]
  refine Closed.append ?_ .last
  intro l hl
  obtain ⟨t, ht, rfl⟩ := List.mem_map.1 hl
  exact hall t ht

/-- The text of a token stands at its place. -/
theorem slice_tokenize {s : String} {ts : List Token} (h : tokenize s = .ok ts) :
    ∃ us m, ts = us ++ [Token.eof m] ∧ ∀ t ∈ us, ∃ p : Nat, t.pos = p ∧
      (s.toList.drop p).take t.text.toList.length = t.text.toList := by
  refine tokenize_induction (fun before offset k n _ => ⟨offset, rfl, ?_⟩) h
  simp only [String.toList_ofList, List.length_take]
  rw [← List.take_take, List.take_length]

end Offside
