import Offside.Proofs.Conversion
import Offside.Proofs.Seam

/-!
# A program inside a class

A program may stand in the main method of a class or by itself: it is converted to the
same text. The headers are gaps and take their opening braces with them. The closing
braces are tokens; nothing opens them, and they are passed over as the start of an unknown
statement that the end of the text cuts off. The text of the program needs no
closing semicolon, and may itself end in an unknown statement: the braces only make that
longer.
-/

namespace Offside

open Lexeme (sign name eof)
open Gap (Piece munchPieces? classPieces mainPieces headerStart)

/-! ## Headers -/

/-- The pieces match `u` exactly where `t` follows. -/
def Gap.Matches (ps : List Piece) (u t : List Char) : Prop :=
  munchPieces? (u ++ t) ps = some u.length

theorem Gap.Matches.cons {p : Piece} {ps : List Piece} {u v t : List Char}
    (hp : p.munch? (u ++ (v ++ t)) = some u.length) (h : Matches ps v t) :
    Matches (p :: ps) (u ++ v) t := by
  unfold Matches at h ⊢
  simp only [List.append_assoc, munchPieces?, hp, List.drop_left, h]
  simp

/-- The characters of an identifier. -/
def isIdentifier : List Char → Bool
  | [] => false
  | c :: cs => isIdentifierStart c && cs.all isIdentifierPart

theorem munch?_identifier {x : List Char} (hx : isIdentifier x = true) {c : Char}
    (hc : isIdentifierPart c = false) (t : List Char) :
    Piece.identifier.munch? (x ++ c :: t) = some x.length := by
  cases x with
  | nil => cases hx
  | cons d ds =>
    simp only [isIdentifier, Bool.and_eq_true, List.all_eq_true] at hx
    have ht : (ds ++ c :: t).takeWhile isIdentifierPart = ds := by
      rw [List.takeWhile_append_of_pos hx.2]
      simp [hc]
    simp [Piece.munch?, munchIdentifier?, hx.1, ht, Nat.add_comm]

theorem not_isBlank_of_start {c : Char} (h : isIdentifierStart c = true) :
    Text.isBlank c = false := by
  have hn := toNat_of_isIdentifierStart h
  rw [← Bool.not_eq_true, Text.isBlank, Text.CharSet.contains_iff]
  rintro ⟨i, hi, hle, hge⟩
  simp only [Text.blanks, List.mem_cons, List.not_mem_nil, or_false] at hi
  rcases hi with rfl | rfl | rfl | rfl | rfl | rfl | rfl | rfl | rfl | rfl <;>
    simp at hle hge <;> omega

theorem matches_class {x : List Char} (hx : isIdentifier x = true) (t : List Char) :
    Gap.Matches classPieces (" class ".toList ++ (x ++ " \x7b".toList)) ('\n' :: t) := by
  have hspace : Piece.spaces.munch? ([' '] ++ ((x ++ " \x7b".toList) ++ '\n' :: t)) = some 1 := by
    cases x with
    | nil => cases hx
    | cons c cs =>
      simp only [isIdentifier, Bool.and_eq_true] at hx
      simp [Piece.munch?, not_isBlank_of_start hx.1, show Text.isBlank ' ' = true from rfl]
  have hname : Piece.identifier.munch? (x ++ (" \x7b".toList ++ '\n' :: t)) = some x.length :=
    munch?_identifier hx rfl _
  have hend : Gap.Matches [.optionalSpaces, .optionalBrace] " \x7b".toList ('\n' :: t) := rfl
  exact .cons (u := [' ']) rfl (.cons (u := "class".toList) rfl (.cons (u := [' ']) hspace
    (.cons hname hend)))

theorem matches_main (t : List Char) :
    Gap.Matches mainPieces " static void main(String[] args) \x7b".toList ('\n' :: t) :=
  .cons (u := [' ']) rfl <| .cons (u := "static".toList) rfl <| .cons (u := [' ']) rfl <|
  .cons (u := "void".toList) rfl <| .cons (u := [' ']) rfl <| .cons (u := "main".toList) rfl <|
  .cons (u := []) rfl <| .cons (u := ['(']) rfl <| .cons (u := []) rfl <|
  .cons (u := "String".toList) rfl <| .cons (u := []) rfl <| .cons (u := ['[']) rfl <|
  .cons (u := []) rfl <| .cons (u := [']']) rfl <| .cons (u := [' ']) rfl <|
  .cons (u := "args".toList) rfl <| .cons (u := []) rfl <| .cons (u := [')']) rfl <|
  .cons (u := [' ']) rfl <| .cons (u := ['\x7b']) rfl <| rfl

theorem munchHeader?_start {b : Option Char} (hb : Text.endsWord b = true) (ps : List Piece)
    (t : List Char) : Gap.munchHeader? ps b (headerStart ++ t) =
      (munchPieces? t ps).map (headerStart.length + ·) := by
  simp [Gap.munchHeader?, hb, headerStart, List.isPrefixOf]

/-- No type and no control word starts like a header. -/
theorem munch?_word {k : Kind} (hk : k ∈ Kind.types ++ Kind.controls) (b : Option Char)
    (t : List Char) : k.munch? b ('p' :: t) = none := by
  simp only [Kind.types, Kind.controls, List.cons_append, List.nil_append, List.mem_cons,
    List.not_mem_nil, or_false] at hk
  rcases hk with rfl | rfl | rfl | rfl | rfl | rfl | rfl | rfl | rfl | rfl <;> rfl

/-- Where a text starts like a header, the two headers are tried before all that is left. -/
theorem first?_header {b : Option Char} (hb : Text.endsWord b = true) (t : List Char) {g : Gap}
    {n : Nat} (h : (g = .classHeader ∧ munchPieces? t classPieces = some n) ∨
      (g = .mainHeader ∧ munchPieces? t classPieces = none ∧ munchPieces? t mainPieces = some n)) :
    Rule.first? Rule.all b (headerStart ++ t) = some (.gap g, headerStart.length + n) := by
  have hwords : ((Kind.types ++ Kind.controls).map Rule.token).findSome?
      (fun r => (r.munch? b (headerStart ++ t)).map (r, ·)) = none := by
    rw [List.findSome?_eq_none_iff]
    intro r hr
    obtain ⟨k, hk, rfl⟩ := List.mem_map.1 hr
    have hm : (Rule.token k).munch? b (headerStart ++ t) = none := munch?_word hk b _
    rw [hm]
    rfl
  have hlayout : Gap.layout.munch? b (headerStart ++ t) = none := rfl
  have hline : Gap.lineComment.munch? b (headerStart ++ t) = none := rfl
  have hblock : Gap.blockComment.munch? b (headerStart ++ t) = none := rfl
  have hclass : Gap.classHeader.munch? b (headerStart ++ t) =
      (munchPieces? t classPieces).map (headerStart.length + ·) := munchHeader?_start hb _ t
  have hmain : Gap.mainHeader.munch? b (headerStart ++ t) =
      (munchPieces? t mainPieces).map (headerStart.length + ·) := munchHeader?_start hb _ t
  have hgaps : (Gap.all.map Rule.gap).findSome?
      (fun r => (r.munch? b (headerStart ++ t)).map (r, ·)) =
        some (.gap g, headerStart.length + n) := by
    simp only [Gap.all, List.map_cons, List.findSome?_cons, Rule.munch?, hlayout, hline, hblock,
      hclass, hmain, Option.map_none]
    rcases h with ⟨rfl, hc⟩ | ⟨rfl, hc, hm⟩
    · rw [hc]
      rfl
    · rw [hc, hm]
      rfl
  rw [Rule.first?, Rule.all, List.append_assoc, List.findSome?_append, hwords, Option.none_or,
    List.findSome?_append, hgaps, Option.some_or]

/-- A header and the line end after it leave nothing. -/
theorem lexemesOf?_header {u t : List Char} {g : Gap}
    (h : (g = .classHeader ∧ Gap.Matches classPieces u ('\n' :: t)) ∨
      (g = .mainHeader ∧ munchPieces? (u ++ '\n' :: t) classPieces = none ∧
        Gap.Matches mainPieces u ('\n' :: t))) :
    lexemesOf? none (headerStart ++ (u ++ '\n' :: t)) = lexemesOf? none t := by
  have hf := first?_header (b := none) rfl (u ++ '\n' :: t) h
  have hlen : headerStart.length + u.length = (headerStart ++ u).length := by simp
  rw [lexemesOf?_some (by simp [headerStart]) hf, ← List.append_assoc, hlen, List.take_left,
    List.drop_left, lexemesOf?_newline]
  simp [Rule.lexemesOf]

/-! ## Wrapping -/

/-- The text `b` as the main method of a class `x`. -/
def wrapped (x b : String) : String :=
  "public class " ++ x ++ " \x7b\n" ++ "public static void main(String[] args) \x7b\n" ++ b
    ++ "\n\x7d\n\x7d\n"

theorem toList_wrapped (x b : String) :
    (wrapped x b).toList = headerStart ++ ((" class ".toList ++ (x.toList ++ " \x7b".toList)) ++
      '\n' :: (headerStart ++ (" static void main(String[] args) \x7b".toList ++
        '\n' :: (b.toList ++ '\n' :: "\x7d\n\x7d\n".toList)))) := by
  have hclass : "public class ".toList = headerStart ++ " class ".toList := rfl
  have hopen : " \x7b\n".toList = " \x7b".toList ++ ['\n'] := rfl
  have hmain : "public static void main(String[] args) \x7b\n".toList =
      headerStart ++ (" static void main(String[] args) \x7b".toList ++ ['\n']) := rfl
  have hclose : "\n\x7d\n\x7d\n".toList = '\n' :: "\x7d\n\x7d\n".toList := rfl
  delta wrapped
  simp only [String.toList_append, hclass, hopen, hmain, hclose, List.append_assoc,
    List.cons_append, List.nil_append]

theorem lexemesOf?_closing :
    lexemesOf? none "\x7d\n\x7d\n".toList = some [sign .rightBrace, sign .rightBrace, eof] := by
  have hlast : lexemesOf? none "\x7d\n".toList = some [sign .rightBrace, eof] := by
    refine lexemesOf?_token (u := ['\x7d']) (t := ['\n']) (by decide) ?_
    rw [lexemesOf?_newline, lexemesOf?_nil]
  refine lexemesOf?_token (u := ['\x7d']) (t := '\n' :: "\x7d\n".toList) (by decide) ?_
  rw [lexemesOf?_newline, hlast]

/-- The headers leave nothing, and the closing braces stand behind the lexemes of the body. -/
theorem lexemesOf?_wrapped {x b : String} (hx : isIdentifier x.toList = true) {ls : List Lexeme}
    (hb : lexemesOf? none b.toList = some (ls ++ [eof])) :
    lexemesOf? none (wrapped x b).toList =
      some (ls ++ [sign .rightBrace, sign .rightBrace, eof]) := by
  have hseam : Seam b.toList "\x7d\n\x7d\n".toList := .inr rfl
  rw [toList_wrapped, lexemesOf?_header (.inl ⟨rfl, matches_class hx _⟩),
    lexemesOf?_header (.inr ⟨rfl, rfl, matches_main _⟩), lexemesOf?_seam hb (.inr hseam),
    lexemesOf?_closing]
  rfl

/-- Closing braces behind a program are passed over like any unknown statement. -/
theorem Grammar.accepted_closing {ls : List Lexeme} {ss : List Statement}
    (h : Accepted (ls ++ [eof]) ss) :
    Accepted (ls ++ [sign .rightBrace, sign .rightBrace, eof]) ss := by
  obtain ⟨behind, us, js, hl, hb, hj⟩ := h
  rw [← List.append_assoc, List.append_left_inj] at hl
  subst hl
  refine ⟨behind, us, js ++ [sign .rightBrace, sign .rightBrace], by simp, hb, ?_⟩
  have hhead : ∀ l ∈ (js ++ [sign .rightBrace, sign .rightBrace]).head?,
      l ∈ js.head? ∨ l = sign .rightBrace := by
    cases js <;> simp
  constructor
  · intro l hl
    rcases List.mem_append.1 hl with hl | hl
    · exact hj.inner l hl
    · obtain rfl : l = sign .rightBrace := by simpa using hl
      decide
  · intro l hl
    rcases hhead l hl with hl | rfl
    · exact hj.start l hl
    · decide
  · intro htop
    cases htop
  · intro hbehind l hl
    rcases hhead l hl with hl | rfl
    · exact hj.notElse hbehind l hl
    · decide
  · rw [startsPrint_append (by decide)]
    exact hj.notPrint

/-- A text that is converted by itself is converted to the same as the main method of a
class. -/
theorem convert_wrapped {x b q : String} (hx : isIdentifier x.toList = true)
    (hb : convert b = .ok q) : convert (wrapped x b) = .ok q := by
  obtain ⟨ls, ss, hl, ha, hr⟩ := convert_eq_ok_iff.1 hb
  obtain ⟨us, rfl⟩ := exists_eof hl
  exact convert_eq_ok_iff.2 ⟨_, ss, lexemesOf?_wrapped hx hl, Grammar.accepted_closing ha, hr⟩

/-- A program whose last statement is cut off by the end of the text, and then by the braces. -/
theorem convert_wrapped_unfinished : isIdentifier "Main".toList = true ∧
    convert "i++; j" = .ok "i += 1\n" ∧ convert (wrapped "Main" "i++; j") = .ok "i += 1\n" := by
  have hlexemes : lexemesOf? none "i++; j".toList =
      some [name "i", sign .increment, sign .semicolon, name "j", eof] :=
    lexemesOf?_token (u := ['i']) (t := "++; j".toList) (by decide) <|
    lexemesOf?_token (u := ['+', '+']) (t := "; j".toList) (by decide) <|
    lexemesOf?_token (u := [';']) (t := " j".toList) (by decide) <|
    lexemesOf?_gap (u := [' ']) (t := "j".toList) (g := .layout) (by decide) <|
    lexemesOf?_token (u := ['j']) (t := []) (by decide) <| lexemesOf?_nil _
  have hbody : SpelledBody .full true false false [.step ⟨"i", .up⟩]
      [name "i", sign .increment, sign .semicolon] := .cons (.step "i" .up) .nil
  have hrest : Passable true false [name "j"] := by
    constructor <;> simp [Kind.openings, Kind.types, startsPrint]
  have hconvert : convert "i++; j" = .ok "i += 1\n" :=
    convert_eq_ok_iff.2 ⟨_, _, hlexemes, ⟨false, _, [name "j"], rfl, hbody, hrest⟩, rfl⟩
  exact ⟨rfl, hconvert, convert_wrapped rfl hconvert⟩

end Offside
