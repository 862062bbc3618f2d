import Offside.Proofs.Blocks
import Offside.Proofs.Neighbours

/-!
# What becomes of declared values

A declaration that stands as a statement is written as an assignment on a line of its own. The
value should come through with its meaning: a truth literal capitalised, a suffixed number without
its suffix, anything else as it is (`Lexeme.meaning`). But the suffix is told by the last letter
alone, so an identifier of more than one letter that ends like a suffix loses it too
(`Lexeme.isClipped`). And a literal with a line feed in it is several rows of text, each of which
is indented below a head.

`convert_declared_values` says that nothing else goes wrong: the line has the meaning of the value
exactly if the value is not clipped and, below a head, has no line feed. That no identifier is
taken for a truth literal needs the tokens beside the value, `=` and `;` (`not_looksReserved`).
-/

namespace Offside

open Text (indent indentChars indentLine isBlank isBlankText)
open Offside.Tree (RenderError valueText)
open Lexeme (sign name eof)

/-! ## Declarations as statements -/

/-- A declaration that stands as a statement, and in how many blocks it stands. -/
structure Declaration where
  depth : Nat
  type : Kind
  name : String
  value : Lexeme
  isType : type ∈ Kind.types
  isValue : value.kind ∈ Kind.values

namespace Declaration

/-- The lexemes of the declaration. -/
def lexemes (d : Declaration) : List Lexeme :=
  [sign d.type, .name d.name, sign .assign, d.value, sign .semicolon]

/-- What the declaration is read as. -/
def binding (d : Declaration) : Binding := ⟨d.name, d.value.text, Text.lower (sign d.type).text⟩

/-- What the declaration is read as, at its depth. -/
def place (d : Declaration) : Nat × Binding := (d.depth, d.binding)

/-- The line that is written for the declaration. -/
def line (d : Declaration) : Line := ⟨d.depth, false, d.binding.line⟩

/-- The declaration, in one more block. -/
def sink (d : Declaration) : Declaration := { d with depth := d.depth + 1 }

end Declaration

/-- A binding, one level deeper. -/
def deepen (b : Nat × Binding) : Nat × Binding := (b.1 + 1, b.2)

mutual

/-- The declarations of a statement that are statements themselves, with their depths. -/
def Statement.declared : Statement → List (Nat × Binding)
  | .print _ => []
  | .declare binding => [(0, binding)]
  | .step _ => []
  | .branch _ body otherwise => (Statement.listDeclared body).map deepen ++ otherwise.declared
  | .repeatWhile _ body => (Statement.listDeclared body).map deepen
  | .count _ _ _ body => (Statement.listDeclared body).map deepen

/-- The declarations of statements. -/
def Statement.listDeclared : List Statement → List (Nat × Binding)
  | [] => []
  | s :: ss => s.declared ++ Statement.listDeclared ss

/-- The declarations after the body of a branch. -/
def Otherwise.declared : Otherwise → List (Nat × Binding)
  | .nothing => []
  | .elseIf _ body otherwise => (Statement.listDeclared body).map deepen ++ otherwise.declared
  | .elseDo body => (Statement.listDeclared body).map deepen

end

/-- The declarations of a program that are statements. -/
def Program.declared (p : Program) : List (Nat × Binding) := Statement.listDeclared p.body

/-! ## From lexemes to lines -/

/-- The declarations are these, in the order in which they stand in the lexemes, and each has its
line among those that are written, in the same order. -/
structure Declares (bs : List (Nat × Binding)) (us : List Lexeme)
    (ls : Except RenderError (List Line)) (ds : List Declaration) : Prop where
  places : ds.map Declaration.place = bs
  inOrder : (ds.flatMap Declaration.lexemes).Sublist us
  inside : ∀ d ∈ ds, d.lexemes <:+: us
  written : ∀ l, ls = .ok l → (ds.map Declaration.line).Sublist l

namespace Declares

variable {bs cs : List (Nat × Binding)} {us vs : List Lexeme}
  {a b : Except RenderError (List Line)} {ds es : List Declaration}

theorem nothing (us : List Lexeme) (a : Except RenderError (List Line)) : Declares [] us a [] where
  places := rfl
  inOrder := List.nil_sublist us
  inside d hd := by cases hd
  written l _ := List.nil_sublist l

theorem mono (h : Declares bs us a ds) (hu : us <:+: vs) : Declares bs vs a ds where
  places := h.places
  inOrder := h.inOrder.trans hu.sublist
  inside d hd := (h.inside d hd).trans hu
  written := h.written

theorem append (ha : Declares bs us a ds) (hb : Declares cs vs b es) :
    Declares (bs ++ cs) (us ++ vs) (do let ls ← a; let ks ← b; return ls ++ ks) (ds ++ es) where
  places := by rw [List.map_append, ha.places, hb.places]
  inOrder := by
    rw [List.flatMap_append]
    exact ha.inOrder.append hb.inOrder
  inside d hd := by
    obtain hd | hd := List.mem_append.1 hd
    · exact (ha.inside d hd).trans (List.prefix_append us vs).isInfix
    · exact (hb.inside d hd).trans (List.suffix_append us vs).isInfix
  written l hl := by
    obtain ⟨ls, hls, hl⟩ := exists_of_bind hl
    obtain ⟨ks, hks, hl⟩ := exists_of_bind hl
    cases hl
    rw [List.map_append]
    exact (ha.written ls hls).append (hb.written ks hks)

theorem sink (h : Declares bs us a ds) :
    Declares (bs.map deepen) us (a.map fun ls => ls.map (Line.sink 1))
      (ds.map Declaration.sink) where
  places := by
    rw [← h.places, List.map_map, List.map_map]
    rfl
  inOrder := by
    rw [List.flatMap_map]
    exact h.inOrder
  inside d hd := by
    obtain ⟨e, he, rfl⟩ := List.mem_map.1 hd
    exact h.inside e he
  written l hl := by
    cases a with
    | error e => cases hl
    | ok ls =>
      cases hl
      have hlines := (h.written ls rfl).map (Line.sink 1)
      rw [List.map_map] at hlines ⊢
      exact hlines

/-- A head above a body has no declaration. -/
theorem block (head : String) (ha : Declares bs us a ds) (hb : Declares cs vs b es) :
    Declares (bs.map deepen ++ cs) (us ++ vs) (outlineBlock head a b)
      (ds.map Declaration.sink ++ es) := by
  have hboth := ha.sink.append hb
  refine ⟨hboth.places, hboth.inOrder, hboth.inside, fun l hl => ?_⟩
  obtain ⟨ls, hls, hl⟩ := exists_of_bind hl
  obtain ⟨ks, hks, hl⟩ := exists_of_bind hl
  cases hl
  subst hls hks
  exact (hboth.written _ rfl).cons _

/-- The last block of a statement. -/
theorem lastBlock (head : String) (ha : Declares bs us a ds) :
    Declares (bs.map deepen) us (outlineBlock head a (.ok [])) (ds.map Declaration.sink) := by
  have hblock := ha.block head (nothing [] (.ok []))
  rwa [List.append_nil, List.append_nil, List.append_nil] at hblock

theorem count (range : Except RenderError (Option String)) (first : Option Binding)
    (c : Option Condition) (update : Option Step) (ha : Declares bs us a ds) :
    Declares (bs.map deepen) us (outlineCount range first c update a)
      (ds.map Declaration.sink) := by
  cases range with
  | error e => exact ⟨ha.sink.places, ha.sink.inOrder, ha.sink.inside, fun l hl => by cases hl⟩
  | ok head =>
    cases head with
    | some head => exact ha.lastBlock head
    | none =>
      have hrounds := ha.append (nothing [] (.ok (optionalLines (update.map Step.line))))
      rw [List.append_nil, List.append_nil, List.append_nil] at hrounds
      have hloop := hrounds.lastBlock ("while " ++ (c.map Condition.text).getD "True" ++ ":")
      exact (nothing [] (.ok (optionalLines (first.map Binding.line)))).append hloop

end Declares

theorem infix_braced (vs : List Lexeme) : vs <:+: braced vs :=
  ⟨[sign .leftBrace], [sign .rightBrace], rfl⟩

theorem infix_guarded (us vs : List Lexeme) : vs <:+: guarded us vs :=
  (infix_braced vs).trans ⟨sign .leftParen :: (us ++ [sign .rightParen]), [], by simp [guarded]⟩

mutual

theorem Statement.Spelled.declares : ∀ {s : Statement} {us : List Lexeme},
    s.Spelled .full us → ∃ ds, Declares s.declared us s.outline ds
  | _, _, .print hm hv => ⟨[], .nothing _ _⟩
  | _, _, @Statement.Spelled.declare _ k hk n v hv => by
    refine ⟨[⟨0, k, n, v, hk, hv⟩], rfl, List.Sublist.refl _, ?_, ?_⟩
    · intro d hd
      rw [List.mem_singleton] at hd
      rw [hd]
      exact List.infix_rfl
    · intro l hl
      cases hl
      exact List.Sublist.refl _
  | _, _, .step n d => ⟨[], .nothing _ _⟩
  | _, _, @Statement.Spelled.branch _ c body o us vs ws b hc hb ho => by
    obtain ⟨ds, hbody⟩ := hb.declares
    obtain ⟨es, hrest⟩ := ho.declares
    have hblock := (hbody.mono (infix_guarded us vs)).block ("if " ++ c.text ++ ":") hrest
    exact ⟨_, hblock.mono (List.suffix_cons _ _).isInfix⟩
  | _, _, @Statement.Spelled.repeatWhile _ c body us vs b hc hb => by
    obtain ⟨ds, hbody⟩ := hb.declares
    have hblock := (hbody.mono (infix_guarded us vs)).lastBlock ("while " ++ c.text ++ ":")
    exact ⟨_, hblock.mono (List.suffix_cons _ _).isInfix⟩
  | _, _, @Statement.Spelled.count _ first c update body fs us xs vs b hf hc hu hb => by
    obtain ⟨ds, hbody⟩ := hb.declares
    have hloop := hbody.count (Head.mk first c update).rangeLine? first c update
    refine ⟨_, (hloop.mono (infix_braced vs)).mono ?_⟩
    exact ⟨sign .forKeyword :: sign .leftParen :: (fs ++ sign .semicolon ::
      (us ++ sign .semicolon :: (xs ++ [sign .rightParen]))), [], by simp⟩

theorem Otherwise.Spelled.declares : ∀ {o : Otherwise} {us : List Lexeme},
    o.Spelled .full us → ∃ ds, Declares o.declared us o.outline ds
  | _, _, .nothing => ⟨[], .nothing _ _⟩
  | _, _, @Otherwise.Spelled.elseIf _ c body o us vs ws b hc hb ho => by
    obtain ⟨ds, hbody⟩ := hb.declares
    obtain ⟨es, hrest⟩ := ho.declares
    have hblock := (hbody.mono (infix_guarded us vs)).block ("elif " ++ c.text ++ ":") hrest
    exact ⟨_, hblock.mono ((List.suffix_cons _ _).trans (List.suffix_cons _ _)).isInfix⟩
  | .elseDo [], _, .elseDo _ => ⟨[], .nothing _ _⟩
  | .elseDo (_ :: _), _, @Otherwise.Spelled.elseDo _ _ vs b hb => by
    obtain ⟨ds, hbody⟩ := hb.declares
    have hblock := (hbody.mono (infix_braced vs)).lastBlock "else:"
    exact ⟨_, hblock.mono (List.suffix_cons _ _).isInfix⟩

/-- The declarations of a body are written in order. -/
theorem SpelledBody.declares : ∀ {top after behind : Bool} {ss : List Statement}
    {us : List Lexeme}, SpelledBody .full top after behind ss us →
    ∃ ds, Declares (Statement.listDeclared ss) us (Statement.listOutline ss) ds
  | _, _, _, _, _, .nil => ⟨[], .nothing _ _⟩
  | _, _, _, _, _, .cons hs hb => by
    obtain ⟨ds, hfirst⟩ := hs.declares
    obtain ⟨es, hrest⟩ := hb.declares
    exact ⟨ds ++ es, hfirst.append hrest⟩
  | _, _, _, _, _, @SpelledBody.unknown _ _ _ _ ss js vs hj hb => by
    obtain ⟨ds, hrest⟩ := hb.declares
    exact ⟨ds, hrest.mono ((List.suffix_cons _ _).trans (List.suffix_append _ _)).isInfix⟩

end

/-! ## Values -/

/-- What the value of a declaration means: truth literals are capitalised, and a number loses its
suffix. -/
def Lexeme.meaning (v : Lexeme) : String :=
  match v.kind with
  | .floatNumber => String.ofList v.text.toList.dropLast
  | .trueLiteral => "True"
  | .falseLiteral => "False"
  | _ => v.text

/-- The text ends like a number with a suffix, and is more than that suffix. -/
def endsSuffixed (u : List Char) : Prop :=
  1 < u.length ∧ (u.getLast? = some 'f' ∨ u.getLast? = some 'F')

instance (u : List Char) : Decidable (endsSuffixed u) := inferInstanceAs (Decidable (_ ∧ _))

/-- An identifier that loses its last letter. -/
def Lexeme.isClipped (v : Lexeme) : Bool :=
  v.kind == .identifier && endsSuffixed v.text.toList

theorem valueText_of_ne {v : String} (ht : v ≠ "true") (hf : v ≠ "false") :
    valueText v = if endsSuffixed v.toList then String.ofList v.toList.dropLast else v := by
  rw [valueText, if_neg ht, if_neg hf]
  rfl

/-- A text that starts like no truth literal is none. -/
theorem valueText_of_start {v : String} {c : Char} {cs : List Char} (hv : v.toList = c :: cs)
    (ht : c ≠ 't') (hf : c ≠ 'f') :
    valueText v = if endsSuffixed v.toList then String.ofList v.toList.dropLast else v := by
  apply valueText_of_ne
  · intro he
    rw [he] at hv
    cases hv
    exact ht rfl
  · intro he
    rw [he] at hv
    cases hv
    exact hf rfl

/-- A literal between quotes is written as it is. -/
theorem valueText_quoted {v : String} {q : Char} (hq : q = '\x22' ∨ q = '\x27') {body : List Char}
    (hv : v.toList = q :: (body ++ [q])) : valueText v = v := by
  have hlast : v.toList.getLast? = some q := by
    rw [hv, ← List.cons_append, List.getLast?_concat]
  have hends : ¬ endsSuffixed v.toList := by
    intro hends
    rw [endsSuffixed, hlast] at hends
    obtain rfl | rfl := hq
    · exact absurd hends.2 (by decide)
    · exact absurd hends.2 (by decide)
  rw [valueText_of_start hv, if_neg hends]
  · obtain rfl | rfl := hq <;> decide
  · obtain rfl | rfl := hq <;> decide

theorem Numeral.isDecimal_of_getLast? {u : List Char} (hu : Numeral u) :
    ∀ c ∈ u.getLast?, Text.isDecimal c = true := by
  intro c hc
  cases hu with
  | whole hd => exact hd.decimal c (List.mem_of_getLast? hc)
  | @fraction ds es hd he =>
    obtain ⟨e, hlast⟩ := Option.ne_none_iff_exists'.1 (mt List.getLast?_eq_none_iff.1 he.ne_nil)
    rw [List.getLast?_append, List.getLast?_cons, hlast] at hc
    cases hc
    exact he.decimal e (List.mem_of_getLast? hlast)

/-- A number starts with a digit, and no truth literal does. -/
theorem Numeral.start {u : List Char} (hu : Numeral u) :
    ∃ c cs, u = c :: cs ∧ c ≠ 't' ∧ c ≠ 'f' := by
  obtain ⟨c, cs, rfl, hc⟩ := hu.exists_cons
  refine ⟨c, cs, rfl, ?_, ?_⟩
  · intro he
    rw [he] at hc
    exact absurd hc (by decide)
  · intro he
    rw [he] at hc
    exact absurd hc (by decide)

/-- A value is written with its meaning, if it is not clipped. -/
theorem Lexeme.valueText_eq {v : Lexeme} (hk : v.kind ∈ Kind.values)
    (hl : v.kind.Language v.text.toList) (hn : v.kind = .identifier → ¬ v.LooksReserved) :
    valueText v.text =
      if v.isClipped then String.ofList v.text.toList.dropLast else v.meaning := by
  obtain ⟨k, t⟩ := v
  simp only [Kind.values, List.mem_cons, List.not_mem_nil, or_false] at hk
  obtain rfl | rfl | rfl | rfl | rfl | rfl | rfl := hk
  · obtain ⟨body, -, hv⟩ := hl
    exact valueText_quoted (.inl rfl) hv
  · obtain ⟨body, -, hv⟩ := hl
    exact valueText_quoted (.inr rfl) hv
  · -- a number ends with a digit
    have hnumeral : Numeral t.toList := hl
    obtain ⟨c, cs, hv, ht, hf⟩ := hnumeral.start
    have hends : ¬ endsSuffixed t.toList := by
      intro hends
      obtain hlast | hlast := hends.2
      · exact absurd (hnumeral.isDecimal_of_getLast? _ hlast) (by decide)
      · exact absurd (hnumeral.isDecimal_of_getLast? _ hlast) (by decide)
    rw [valueText_of_start hv ht hf, if_neg hends]
    rfl
  · obtain ⟨ds, suffix, hnumeral, hsuffix, hv⟩ := hl
    obtain ⟨c, cs, rfl, ht, hf⟩ := hnumeral.start
    have hends : endsSuffixed t.toList := by
      rw [show t.toList = _ from hv]
      constructor
      · simp
      · rw [List.getLast?_concat]
        exact hsuffix.imp (congrArg some) (congrArg some)
    rw [valueText_of_start hv ht hf, if_pos hends]
    rfl
  · rw [show t = "true" from hl.eq_spelling rfl]
    rfl
  · rw [show t = "false" from hl.eq_spelling rfl]
    rfl
  · have htrue : t ≠ "true" := by
      intro he
      exact hn rfl ⟨.trueLiteral, by decide, congrArg some he.symm⟩
    have hfalse : t ≠ "false" := by
      intro he
      exact hn rfl ⟨.falseLiteral, by decide, congrArg some he.symm⟩
    have hclipped : (Lexeme.mk .identifier t).isClipped = decide (endsSuffixed t.toList) := rfl
    rw [valueText_of_ne htrue hfalse, hclipped]
    simp [Lexeme.meaning]

/-! ## Lines with line feeds -/

/-- A text whose last row is not blank is not the same text when it is indented. -/
theorem indent_ne_lineAtDepth {t : String} {as row : List Char} (ht : t.toList = as ++ '\n' :: row)
    (hrow : '\n' ∉ row) (hblank : isBlankText row = false) {d : Nat} (hd : d ≠ 0) :
    indent d (t ++ "\n") ≠ lineAtDepth d t := by
  intro he
  have hmoved : (indent d (t ++ "\n")).toList =
      indentChars d as ++ '\n' :: (indentLine d row ++ ['\n']) := by
    rw [indent, String.toList_ofList, String.toList_append, ht, List.append_assoc,
      List.cons_append, Text.indentChars_feed, show "\n".toList = ['\n'] from rfl,
      Text.indentChars_line d hrow, Text.indentChars_nil]
  have hkept : (lineAtDepth d t).toList =
      (List.replicate (4 * d) ' ' ++ as) ++ '\n' :: (row ++ ['\n']) := by
    simp [lineAtDepth, ht]
  -- both texts are cut into lines, and the last but one of them are compared
  have hrows := congrArg (fun u : String => Text.lines u.toList) he
  simp only [hmoved, hkept, Text.lines_feed, Text.lines_line hrow,
    Text.lines_line (Text.newline_not_mem_indentLine hrow d)] at hrows
  have hlast : indentLine d row = row := (List.cons.inj (List.append_inj_right' hrows rfl)).1
  rw [indentLine, hblank] at hlast
  have hlength := congrArg List.length hlast
  simp only [Bool.false_eq_true, if_false, List.length_append, List.length_replicate,
    Text.indentWidth] at hlength
  omega

/-- A text with a line feed has a last one. -/
theorem exists_last_row {u : List Char} (h : '\n' ∈ u) :
    ∃ as row, u = as ++ '\n' :: row ∧ '\n' ∉ row := by
  obtain ⟨as, row, hu, hrow⟩ := List.eq_append_cons_of_mem (List.mem_reverse.2 h)
  refine ⟨row.reverse, as.reverse, ?_, by simpa using hrow⟩
  rw [← List.reverse_reverse u, hu]
  simp

/-- A literal with a line feed in it ends with a quote, which no row of it is blank for. -/
theorem Kind.Language.last_row {k : Kind} {u : List Char} (h : k.Language u) (hu : '\n' ∈ u) :
    ∃ as row, u = as ++ '\n' :: row ∧ '\n' ∉ row ∧ isBlankText row = false := by
  have hquote : u.getLast? = some '\x22' ∨ u.getLast? = some '\x27' := by
    by_cases hs : k = .string
    · subst hs
      obtain ⟨body, -, rfl⟩ := h
      exact .inl (by rw [← List.cons_append, List.getLast?_concat])
    · by_cases hq : k = .charLiteral
      · subst hq
        obtain ⟨body, -, rfl⟩ := h
        exact .inr (by rw [← List.cons_append, List.getLast?_concat])
      · exact absurd hu (h.not_mem hs hq (.inl rfl))
  obtain ⟨as, row, rfl, hrow⟩ := exists_last_row hu
  refine ⟨as, row, rfl, hrow, ?_⟩
  rw [List.getLast?_append, List.getLast?_cons, Option.some_or] at hquote
  cases hlast : row.getLast? with
  | none =>
    rw [hlast] at hquote
    exact absurd hquote (by decide)
  | some c =>
    rw [hlast] at hquote
    have hc : isBlank c = false := by
      obtain he | he := hquote
      · cases he
        decide
      · cases he
        decide
    exact Text.isBlankText_of_mem (List.mem_of_getLast? hlast) hc

/-! ## Lines of declarations -/

theorem Lexeme.newline_not_mem_clipped {v : Lexeme} (hl : v.kind.Language v.text.toList)
    (h : v.isClipped = true) : '\n' ∉ v.text.toList := by
  have hkind : v.kind = .identifier := by
    have hboth : v.kind = .identifier ∧ endsSuffixed v.text.toList := by simpa [isClipped] using h
    exact hboth.1
  exact hl.not_mem (by simp [hkind]) (by simp [hkind]) (.inl rfl)

/-- A clipped identifier has not its meaning. -/
theorem Lexeme.meaning_ne_clipped {v : Lexeme} (h : v.isClipped = true) :
    String.ofList v.text.toList.dropLast ≠ v.meaning := by
  have hboth : v.kind = .identifier ∧ endsSuffixed v.text.toList := by simpa [isClipped] using h
  intro he
  have hlength := congrArg String.length he
  have hmeaning : v.meaning = v.text := by simp [meaning, hboth.1]
  have hlong := hboth.2.1
  rw [hmeaning, ← String.length_toList, ← String.length_toList, String.toList_ofList,
    List.length_dropLast] at hlength
  omega

/-- A line without line feeds is written at its depth, and one with some only at the margin. -/
theorem write_assignment_iff {n w : String} (hn : '\n' ∉ n.toList)
    (hw : '\n' ∈ w.toList → ∃ k : Kind, k.Language w.toList) (d : Nat) :
    (Line.mk d false (n ++ " = " ++ w)).write = lineAtDepth d (n ++ " = " ++ w) ↔
      d = 0 ∨ '\n' ∉ w.toList := by
  by_cases hfeed : '\n' ∈ w.toList
  · by_cases hd : d = 0
    · rw [hd, Line.write_margin]
      simp [lineAtDepth]
    · obtain ⟨k, hk⟩ := hw hfeed
      obtain ⟨as, row, hsplit, hrow, hblank⟩ := hk.last_row hfeed
      have htext : (n ++ " = " ++ w).toList = (n ++ " = ").toList ++ as ++ '\n' :: row := by
        rw [String.toList_append, hsplit, List.append_assoc]
      simp only [hd, hfeed, not_true_eq_false, or_false, iff_false]
      exact indent_ne_lineAtDepth htext hrow hblank hd
  · have hline : IsLine (n ++ " = " ++ w) :=
      isLine_of_mem '=' (by simp) (by decide) (by simp [hn, hfeed])
    simp only [hfeed, not_false_eq_true, or_true, iff_true]
    exact indent_line hline d

theorem lineAtDepth_inj {d : Nat} {t u : String} (h : lineAtDepth d t = lineAtDepth d u) :
    t = u := by
  have hchars := congrArg String.toList h
  exact String.toList_inj.1 (by simpa [lineAtDepth] using hchars)

/-- What is known of a declaration that was read from a text. -/
structure Declaration.Stands (d : Declaration) : Prop where
  name : isIdentifier d.name.toList = true
  value : d.value.kind.Language d.value.text.toList
  notReserved : d.value.kind = .identifier → ¬ d.value.LooksReserved

namespace Declaration.Stands

variable {d : Declaration}

theorem line_eq (h : d.Stands) : d.line = ⟨d.depth, false, d.name ++ " = " ++
    if d.value.isClipped then String.ofList d.value.text.toList.dropLast else d.value.meaning⟩ := by
  rw [← Lexeme.valueText_eq d.isValue h.value h.notReserved]
  rfl

/-- The line of a declaration has the meaning of the value exactly if the value is not clipped and
takes up one row, or any number of rows at the margin. -/
theorem write_line_iff (h : d.Stands) :
    d.line.write = lineAtDepth d.depth (d.name ++ " = " ++ d.value.meaning) ↔
      d.value.isClipped = false ∧ (d.depth = 0 ∨ '\n' ∉ d.value.text.toList) := by
  have hn : '\n' ∉ d.name.toList :=
    Kind.Language.not_mem (k := .identifier) h.name (by simp) (by simp) (.inl rfl)
  have hvalue := Lexeme.valueText_eq d.isValue h.value h.notReserved
  have hline := h.line_eq
  cases hclipped : d.value.isClipped with
  | true =>
    simp only [hclipped, if_true] at hvalue hline
    have hfeed := newline_not_mem_valueText (Lexeme.newline_not_mem_clipped h.value hclipped)
    rw [hvalue] at hfeed
    have hwrite := (write_assignment_iff hn (fun hm => absurd hm hfeed) d.depth).2 (.inr hfeed)
    simp only [Bool.true_eq_false, false_and, iff_false]
    intro he
    rw [hline, hwrite] at he
    have hsame := lineAtDepth_inj he
    exact Lexeme.meaning_ne_clipped hclipped (by simpa using hsame)
  | false =>
    simp only [hclipped, Bool.false_eq_true, if_false] at hvalue hline
    rw [hline]
    by_cases hq : d.value.kind = .string ∨ d.value.kind = .charLiteral
    · have hmeaning : d.value.meaning = d.value.text := by
        obtain hq | hq := hq <;> simp [Lexeme.meaning, hq]
      rw [hmeaning]
      simpa using write_assignment_iff hn (fun _ => ⟨_, h.value⟩) d.depth
    · have hfeed := h.value.not_mem (fun h => hq (.inl h)) (fun h => hq (.inr h)) (.inl rfl)
      have hmeaning := newline_not_mem_valueText hfeed
      rw [hvalue] at hmeaning
      simpa [hfeed] using
        (write_assignment_iff hn (fun hm => absurd hm hmeaning) d.depth).2 (.inr hmeaning)

end Declaration.Stands

/-! ## Conversion -/

/-- A text that is converted spells a program, up to what its end cuts off, and the lines of the
program are what is written. -/
theorem exists_lines_of_convert {s q : String} (h : convert s = .ok q) :
    ∃ ts p ls behind us, tokenize s = .ok ts ∧ parse ts = .ok p ∧ p.outline = .ok ls ∧
      q = writeLines ls ∧ us <:+: ts.map Token.lexeme ∧
      SpelledBody .full true false behind p.body us := by
  obtain ⟨lexemes, ss, hlexemes, haccepted, hrender⟩ := convert_eq_ok_iff.1 h
  obtain ⟨ts, ht, rfl⟩ := lexemesOf?_eq_some_iff.1 hlexemes
  have hp := (Grammar.parse_eq_ok_iff (closed_tokenize ht)).2 haccepted
  obtain ⟨behind, us, js, hsplit, hbody, -⟩ := haccepted
  have hin : us <:+: ts.map Token.lexeme := hsplit ▸ (List.prefix_append us _).isInfix
  rw [Program.render_eq] at hrender
  cases houtline : (⟨ss⟩ : Program).outline with
  | error e =>
    rw [houtline] at hrender
    cases hrender
  | ok ls =>
    rw [houtline] at hrender
    cases hrender
    exact ⟨ts, ⟨ss⟩, ls, behind, us, ht, hp, houtline, rfl, hin, hbody⟩

theorem language_of_mem_lexemes {s : String} {ts : List Token} (h : tokenize s = .ok ts)
    {l : Lexeme} (hl : l ∈ ts.map Token.lexeme) (hk : l.kind ≠ .eof) :
    l.kind.Language l.text.toList := by
  obtain ⟨us, m, rfl, hlanguage⟩ := language_tokenize h
  obtain ⟨t, ht, rfl⟩ := List.mem_map.1 hl
  obtain ht | ht := List.mem_append.1 ht
  · exact hlanguage t ht
  · rw [List.mem_singleton] at ht
    rw [ht] at hk
    exact absurd rfl hk

/-- Between `=` and `;` no identifier is spelled like a truth literal. -/
theorem Declaration.stands_of_infix {s : String} {ts : List Token} (h : tokenize s = .ok ts)
    {d : Declaration} (hd : d.lexemes <:+: ts.map Token.lexeme) : d.Stands := by
  have hmem : ∀ l ∈ d.lexemes, l ∈ ts.map Token.lexeme := fun l hl => hd.subset hl
  have hvalues : ∀ k ∈ Kind.values, k ≠ .eof := by decide
  constructor
  · exact language_of_mem_lexemes h (hmem (.name d.name) (by simp [lexemes])) (by simp)
  · exact language_of_mem_lexemes h (hmem d.value (by simp [lexemes])) (hvalues _ d.isValue)
  · have hlexemes := lexemesOf?_eq_some_iff.2 ⟨ts, h, rfl⟩
    have hbeside : [sign .assign, d.value, sign .semicolon] <:+: ts.map Token.lexeme :=
      (List.suffix_append [sign d.type, .name d.name] _).isInfix.trans hd
    exact not_looksReserved hlexemes hbeside (by decide) (by decide)

/-- The text for a source is the lines of its program, and each declaration that stands as a
statement, at any depth, has a line of its own there: its name, an equals sign and what is written
for its value. That is the meaning of the value, except that a clipped identifier loses its last
letter. The line stands in the text with the meaning of the value exactly if the value is not
clipped and, below a head, has no line feed. -/
theorem convert_declared_values {s q : String} (h : convert s = .ok q) :
    ∃ ts p ls, ∃ ds : List Declaration, tokenize s = .ok ts ∧ parse ts = .ok p ∧
      p.outline = .ok ls ∧ q = writeLines ls ∧ p.declared = ds.map Declaration.place ∧
      (ds.flatMap Declaration.lexemes).Sublist (ts.map Token.lexeme) ∧
      (ds.map Declaration.line).Sublist ls ∧
      ∀ d ∈ ds, d.lexemes <:+: ts.map Token.lexeme ∧
        d.line.text = d.name ++ " = " ++ (if d.value.isClipped then
          String.ofList d.value.text.toList.dropLast else d.value.meaning) ∧
        (d.line.write = lineAtDepth d.depth (d.name ++ " = " ++ d.value.meaning) ↔
          d.value.isClipped = false ∧ (d.depth = 0 ∨ '\n' ∉ d.value.text.toList)) := by
  obtain ⟨ts, p, ls, behind, us, ht, hp, houtline, rfl, hin, hbody⟩ := exists_lines_of_convert h
  obtain ⟨ds, hdeclares⟩ := hbody.declares
  have hall := hdeclares.mono hin
  refine ⟨ts, p, ls, ds, ht, hp, houtline, rfl, hall.places.symm, hall.inOrder,
    hall.written ls houtline, fun d hd => ?_⟩
  have hinside := hall.inside d hd
  have hstands := Declaration.stands_of_infix ht hinside
  exact ⟨hinside, congrArg Line.text hstands.line_eq, hstands.write_line_iff⟩

/-- An identifier that ends like a suffix: another variable is assigned. -/
theorem convert_declared_values_clipped : convert "int x=half;" = .ok "x = hal\n" ∧
    ∃ ts p ls, ∃ ds : List Declaration, tokenize "int x=half;" = .ok ts ∧ parse ts = .ok p ∧
      p.outline = .ok ls ∧ "x = hal\n" = writeLines ls ∧ p.declared = ds.map Declaration.place ∧
      (ds.flatMap Declaration.lexemes).Sublist (ts.map Token.lexeme) ∧
      (ds.map Declaration.line).Sublist ls ∧
      ∀ d ∈ ds, d.lexemes <:+: ts.map Token.lexeme ∧
        d.line.text = d.name ++ " = " ++ (if d.value.isClipped then
          String.ofList d.value.text.toList.dropLast else d.value.meaning) ∧
        (d.line.write = lineAtDepth d.depth (d.name ++ " = " ++ d.value.meaning) ↔
          d.value.isClipped = false ∧ (d.depth = 0 ∨ '\n' ∉ d.value.text.toList)) := by
  have hlexemes : lexemesOf? none "int x=half;".toList =
      some [sign .intType, name "x", sign .assign, name "half", sign .semicolon, eof] := by
    rw [lexemesOf?_eq_within]
    decide +kernel
  have hdeclare : Statement.Spelled .full (.declare ⟨"x", "half", "int"⟩)
      [sign .intType, name "x", sign .assign, name "half", sign .semicolon] :=
    .declare (k := .intType) (by decide) "x" (v := name "half") (by decide)
  have hconvert : convert "int x=half;" = .ok "x = hal\n" :=
    convert_eq_ok_iff.2 ⟨_, _, hlexemes,
      ⟨false, _, [], rfl, .cons hdeclare .nil, Grammar.passable_nil _ _⟩, rfl⟩
  exact ⟨hconvert, convert_declared_values hconvert⟩

/-- A literal that takes up two rows is changed below a head, where its second row is indented. -/
theorem convert_indents_literal : convert "if(a)\x7bString s=\"x\ny\";\x7d" =
    .ok "if a:\n    s = \"x\n    y\"\n" := by
  have hlexemes : lexemesOf? none "if(a)\x7bString s=\"x\ny\";\x7d".toList =
      some [sign .ifKeyword, sign .leftParen, name "a", sign .rightParen, sign .leftBrace,
        sign .stringType, name "s", sign .assign, ⟨.string, "\"x\ny\""⟩, sign .semicolon,
        sign .rightBrace, eof] := by
    rw [lexemesOf?_eq_within]
    decide +kernel
  have hdeclare : Statement.Spelled .full (.declare ⟨"s", "\"x\ny\"", "string"⟩)
      [sign .stringType, name "s", sign .assign, ⟨.string, "\"x\ny\""⟩, sign .semicolon] :=
    .declare (k := .stringType) (by decide) "s" (v := ⟨.string, "\"x\ny\""⟩) (by decide)
  have hbranch : SpelledBody .full true false true
      [.branch (.test "a" "" "") [.declare ⟨"s", "\"x\ny\"", "string"⟩] .nothing] _ :=
    .cons (.branch (.term (.name "a")) (.cons hdeclare .nil) .nothing) .nil
  exact convert_eq_ok_iff.2 ⟨_, _, hlexemes,
    ⟨true, _, [], rfl, hbranch, Grammar.passable_nil _ _⟩, rfl⟩

end Offside
