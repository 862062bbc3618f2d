import Offside.Text.Utf8

/-!
# Decoding undoes encoding

Bytes are decoded exactly if they are the UTF-8 encoding of a text, and then to that text
(`decodeUtf8_eq_ok_iff`). Between the two stands `Encodes`, the table of the format: the number of
a character, the first of its bytes and those that follow, for each of the four lengths. The
encoder writes a line of the table (`Encodes.utf8EncodeChar_eq`), and the decoder accepts the
lines of the table and nothing else (`Encodes.lead`, `encodes_of_lead`).
-/

namespace Offside.Text

open String (utf8EncodeChar)

/-! ## The format -/

/-- The number of a character, and the bytes that encode it. -/
inductive Encodes (n : Nat) : UInt8 → List UInt8 → Prop
  | one {a : UInt8} (hn : n < 0x80) (ha : a.toNat = n) : Encodes n a []
  | two {a b : UInt8} (hn : 0x80 ≤ n ∧ n < 0x800) (ha : a.toNat = n / 64 % 0x20 + 0xC0)
      (hb : b.toNat = n % 0x40 + 0x80) : Encodes n a [b]
  | three {a b c : UInt8} (hn : 0x800 ≤ n ∧ n < 0x10000) (hvalid : n.isValidChar)
      (ha : a.toNat = n / 4096 % 0x10 + 0xE0) (hb : b.toNat = n / 64 % 0x40 + 0x80)
      (hc : c.toNat = n % 0x40 + 0x80) : Encodes n a [b, c]
  | four {a b c d : UInt8} (hn : 0x10000 ≤ n ∧ n < 0x110000)
      (ha : a.toNat = n / 262144 % 0x08 + 0xF0) (hb : b.toNat = n / 4096 % 0x40 + 0x80)
      (hc : c.toNat = n / 64 % 0x40 + 0x80) (hd : d.toNat = n % 0x40 + 0x80) :
      Encodes n a [b, c, d]

theorem toNat_ofNat {n : Nat} (h : n.isValidChar) : (Char.ofNat n).val.toNat = n := by
  unfold Char.ofNat
  rw [dif_pos h]
  rfl

theorem ofNat_eq {b : UInt8} {n : Nat} (h : b.toNat = n) : UInt8.ofNat n = b := by
  rw [← h, UInt8.ofNat_toNat]

/-- The encoder writes the bytes of the format. -/
theorem Encodes.utf8EncodeChar_eq {n : Nat} {a : UInt8} {more : List UInt8}
    (h : Encodes n a more) : utf8EncodeChar (Char.ofNat n) = a :: more := by
  cases h with
  | one hn ha =>
    have hvalid : n.isValidChar := .inl (by omega)
    rw [utf8EncodeChar, toNat_ofNat hvalid, if_pos (by omega), ofNat_eq ha]
  | two hn ha hb =>
    have hvalid : n.isValidChar := .inl (by omega)
    rw [utf8EncodeChar, toNat_ofNat hvalid, if_neg (by omega), if_pos (by omega), ofNat_eq ha,
      ofNat_eq hb]
  | three hn hvalid ha hb hc =>
    rw [utf8EncodeChar, toNat_ofNat hvalid, if_neg (by omega), if_neg (by omega),
      if_pos (by omega), ofNat_eq ha, ofNat_eq hb, ofNat_eq hc]
  | four hn ha hb hc hd =>
    have hvalid : n.isValidChar := .inr (by omega)
    rw [utf8EncodeChar, toNat_ofNat hvalid, if_neg (by omega), if_neg (by omega),
      if_neg (by omega), ofNat_eq ha, ofNat_eq hb, ofNat_eq hc, ofNat_eq hd]

theorem exists_encodes (c : Char) : ∃ a more, Encodes c.val.toNat a more := by
  have hvalid : c.val.toNat.isValidChar := c.valid
  have hbyte : ∀ n, n < 256 → (UInt8.ofNat n).toNat = n := fun _ => UInt8.toNat_ofNat_of_lt
  generalize c.val.toNat = n at hvalid
  by_cases h₁ : n < 0x80
  · exact ⟨_, _, .one h₁ (hbyte _ (by omega))⟩
  by_cases h₂ : n < 0x800
  · exact ⟨_, _, .two (by omega) (hbyte _ (by omega)) (hbyte _ (by omega))⟩
  by_cases h₃ : n < 0x10000
  · exact ⟨_, _, .three (by omega) hvalid (hbyte _ (by omega)) (hbyte _ (by omega))
      (hbyte _ (by omega))⟩
  · have hn : n < 0x110000 := by
      rcases hvalid with h | h <;> omega
    exact ⟨_, _, .four (by omega) (hbyte _ (by omega)) (hbyte _ (by omega)) (hbyte _ (by omega))
      (hbyte _ (by omega))⟩

/-! ## First bytes -/

/-- The number of the character that a first byte and those that follow it encode. -/
def Lead.codePoint (l : Lead) (more : List UInt8) : Nat :=
  more.foldl (fun n c => 64 * n + (c.toNat - 0x80)) l.bits

/-- What a first byte announces, by the number of bytes that follow. -/
theorem Lead.of?_eq (b : UInt8) : Lead.of? b =
    if b.toNat < 0x80 then some ⟨0, 0x80, 0xBF, b.toNat⟩
    else if b.toNat < 0xC2 then none
    else if b.toNat < 0xE0 then some ⟨1, 0x80, 0xBF, b.toNat - 0xC0⟩
    else if b.toNat < 0xF0 then
      some ⟨2, if b.toNat = 0xE0 then 0xA0 else 0x80, if b.toNat = 0xED then 0x9F else 0xBF,
        b.toNat - 0xE0⟩
    else if b.toNat < 0xF5 then
      some ⟨3, if b.toNat = 0xF0 then 0x90 else 0x80, if b.toNat = 0xF4 then 0x8F else 0xBF,
        b.toNat - 0xF0⟩
    else none := by
  unfold Lead.of?
  grind

theorem continuation_zero (low high : Nat) (bs : List UInt8) : continuation 0 low high bs = [] := by
  cases bs <;> rfl

theorem continuation_cons {n low high : Nat} {b : UInt8} {bs : List UInt8}
    (h : low ≤ b.toNat ∧ b.toNat ≤ high) :
    continuation (n + 1) low high (b :: bs) = b :: continuation n 0x80 0xBF bs := by
  rw [continuation, if_pos h]

/-- The first of the bytes that follow, when there are as many as announced. -/
theorem continuation_full {n low high : Nat} {bs : List UInt8}
    (h : (continuation (n + 1) low high bs).length = n + 1) :
    ∃ b rest, bs = b :: rest ∧ (low ≤ b.toNat ∧ b.toNat ≤ high) ∧
      (continuation n 0x80 0xBF rest).length = n := by
  cases bs with
  | nil => cases h
  | cons b rest =>
    by_cases hb : low ≤ b.toNat ∧ b.toNat ≤ high
    · rw [continuation_cons hb] at h
      exact ⟨b, rest, rfl, hb, by simpa using h⟩
    · rw [continuation, if_neg hb] at h
      cases h

/-- The decoder reads the bytes of the format, whatever stands behind them. -/
theorem Encodes.lead {n : Nat} {a : UInt8} {more : List UInt8} (h : Encodes n a more) :
    ∃ l, Lead.of? a = some l ∧ more.length = l.following ∧ l.codePoint more = n ∧
      ∀ rest, continuation l.following l.low l.high (more ++ rest) = more := by
  cases h with
  | one hn ha =>
    rw [Lead.of?_eq, if_pos (by omega)]
    exact ⟨_, rfl, rfl, ha, continuation_zero _ _⟩
  | two hn ha hb =>
    rw [Lead.of?_eq, if_neg (by omega), if_neg (by omega), if_pos (by omega)]
    refine ⟨_, rfl, rfl, ?_, fun rest => ?_⟩
    · simp only [Lead.codePoint, List.foldl_cons, List.foldl_nil]
      omega
    · rw [List.cons_append, continuation_cons ?_, continuation_zero]
      dsimp only
      omega
  | three hn hvalid ha hb hc =>
    unfold Nat.isValidChar at hvalid
    rw [Lead.of?_eq, if_neg (by omega), if_neg (by omega), if_neg (by omega), if_pos (by omega)]
    refine ⟨_, rfl, rfl, ?_, fun rest => ?_⟩
    · simp only [Lead.codePoint, List.foldl_cons, List.foldl_nil]
      omega
    · rw [List.cons_append, List.cons_append, continuation_cons ?_, continuation_cons (by omega),
        continuation_zero]
      dsimp only
      split <;> split <;> omega
  | four hn ha hb hc hd =>
    rw [Lead.of?_eq, if_neg (by omega), if_neg (by omega), if_neg (by omega), if_neg (by omega),
      if_pos (by omega)]
    refine ⟨_, rfl, rfl, ?_, fun rest => ?_⟩
    · simp only [Lead.codePoint, List.foldl_cons, List.foldl_nil]
      omega
    · rw [List.cons_append, List.cons_append, List.cons_append, continuation_cons ?_,
        continuation_cons (by omega), continuation_cons (by omega), continuation_zero]
      dsimp only
      split <;> split <;> omega

/-- The decoder reads nothing but the bytes of the format. The bounds on the byte behind the first
keep out numbers that have a shorter encoding, surrogates, and what is too large. -/
theorem encodes_of_lead {a : UInt8} {l : Lead} {bs : List UInt8} (hl : Lead.of? a = some l)
    (h : (continuation l.following l.low l.high bs).length = l.following) :
    ∃ more, continuation l.following l.low l.high bs = more ∧ bs = more ++ bs.drop l.following ∧
      Encodes (l.codePoint more) a more := by
  rw [Lead.of?_eq] at hl
  split at hl
  · next ha =>
    cases hl
    exact ⟨[], continuation_zero _ _ _, rfl, .one ha rfl⟩
  split at hl
  · cases hl
  split at hl
  · cases hl
    obtain ⟨b, rest, rfl, hb, -⟩ := continuation_full h
    refine ⟨[b], ?_, rfl, ?_⟩
    · rw [continuation_cons hb, continuation_zero]
    · dsimp only at hb
      simp only [Lead.codePoint, List.foldl_cons, List.foldl_nil]
      exact .two (by omega) (by omega) (by omega)
  split at hl
  · cases hl
    obtain ⟨b, rest, rfl, hb, h⟩ := continuation_full h
    obtain ⟨c, rest, rfl, hc, -⟩ := continuation_full h
    refine ⟨[b, c], ?_, rfl, ?_⟩
    · rw [continuation_cons hb, continuation_cons hc, continuation_zero]
    · have hlow : 0x80 ≤ b.toNat ∧ (a.toNat = 0xE0 → 0xA0 ≤ b.toNat) := by grind
      have hhigh : b.toNat ≤ 0xBF ∧ (a.toNat = 0xED → b.toNat ≤ 0x9F) := by grind
      simp only [Lead.codePoint, List.foldl_cons, List.foldl_nil]
      exact .three (by omega) (by unfold Nat.isValidChar; omega) (by omega) (by omega) (by omega)
  split at hl
  · cases hl
    obtain ⟨b, rest, rfl, hb, h⟩ := continuation_full h
    obtain ⟨c, rest, rfl, hc, h⟩ := continuation_full h
    obtain ⟨d, rest, rfl, hd, -⟩ := continuation_full h
    refine ⟨[b, c, d], ?_, rfl, ?_⟩
    · rw [continuation_cons hb, continuation_cons hc, continuation_cons hd, continuation_zero]
    · have hlow : 0x80 ≤ b.toNat ∧ (a.toNat = 0xF0 → 0x90 ≤ b.toNat) := by grind
      have hhigh : b.toNat ≤ 0xBF ∧ (a.toNat = 0xF4 → b.toNat ≤ 0x8F) := by grind
      simp only [Lead.codePoint, List.foldl_cons, List.foldl_nil]
      exact .four (by omega) (by omega) (by omega) (by omega) (by omega)
  · cases hl

/-! ## Texts -/

theorem decodeFrom_encode (offset : Nat) (c : Char) {bs : List UInt8} {cs : List Char}
    (h : ∀ offset, decodeFrom offset bs = .ok cs) :
    decodeFrom offset (utf8EncodeChar c ++ bs) = .ok (c :: cs) := by
  obtain ⟨a, more, henc⟩ := exists_encodes c
  obtain ⟨l, hl, hlength, hpoint, hmore⟩ := henc.lead
  have hbytes := henc.utf8EncodeChar_eq
  have hback : Char.ofNat c.val.toNat = c := Char.ofNat_toNat c
  rw [hback] at hbytes
  have hdrop : (more ++ bs).drop l.following = bs := by
    rw [← hlength, List.drop_left]
  rw [hbytes, List.cons_append, decodeFrom, hl]
  simp only [hmore, hlength, if_true, hdrop, h]
  congr 2
  exact (congrArg Char.ofNat hpoint).trans hback

theorem encode_of_decodeFrom {offset : Nat} {bs : List UInt8} {cs : List Char}
    (h : decodeFrom offset bs = .ok cs) : bs = cs.flatMap utf8EncodeChar := by
  induction hn : bs.length using Nat.strongRecOn generalizing offset bs cs with
  | ind n ih =>
    cases bs with
    | nil =>
      rw [decodeFrom] at h
      cases h
      rfl
    | cons b bs =>
      rw [decodeFrom] at h
      cases hl : Lead.of? b with
      | none =>
        rw [hl] at h
        cases h
      | some l =>
        simp only [hl] at h
        split at h
        · next hfull =>
          obtain ⟨more, hmore, hbs, henc⟩ := encodes_of_lead hl hfull
          split at h
          · next cs' hdecode =>
            cases h
            have hlt : (bs.drop l.following).length < n := by
              rw [← hn, List.length_drop, List.length_cons]
              omega
            have hrest := ih _ hlt hdecode rfl
            rw [List.flatMap_cons, ← hrest, hmore]
            show b :: bs = utf8EncodeChar (Char.ofNat (l.codePoint more)) ++ bs.drop l.following
            rw [henc.utf8EncodeChar_eq, List.cons_append, ← hbs]
          · cases h
        · split at h <;> cases h

theorem decodeFrom_eq_ok_iff {offset : Nat} {bs : List UInt8} {cs : List Char} :
    decodeFrom offset bs = .ok cs ↔ bs = cs.flatMap utf8EncodeChar := by
  constructor
  · exact encode_of_decodeFrom
  · rintro rfl
    induction cs generalizing offset with
    | nil => rw [List.flatMap_nil, decodeFrom]
    | cons c cs ih =>
      rw [List.flatMap_cons]
      exact decodeFrom_encode offset c fun _ => ih

/-- Bytes are decoded exactly if they encode a text, and then to that text. -/
theorem decodeUtf8_eq_ok_iff {bytes : ByteArray} {cs : List Char} :
    decodeUtf8 bytes = .ok cs ↔ bytes = (String.ofList cs).toUTF8 := by
  rw [decodeUtf8, decodeFrom_eq_ok_iff, String.toUTF8_eq_toByteArray, String.toByteArray_ofList,
    List.utf8Encode, ByteArray.ext_iff, List.data_toByteArray, ← Array.toList_inj]

end Offside.Text
