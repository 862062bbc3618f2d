import Offside.Proofs.Conversion

/-!
# What becomes of declarations

A type, an identifier and an equals sign in a row declare a variable. The grammar keeps
such a declaration wherever it reads a statement or the head of a counting loop, but an
unknown statement is passed over with all that it holds. `convert_declarations` accounts for
every declaration of a converted text: it is one of the bindings of the program, or it
stands in a piece that was passed over.
-/

namespace Offside

open Grammar (Accepted passable_nil)
open Lexeme (sign name eof next)

/-! ## Declarations in lexemes and in programs -/

/-- The declarations among the lexemes: at each type with an identifier and an equals sign
behind it, the name, the lexeme that follows and the type. -/
def declarations : List Lexeme → List Binding
  | [] => []
  | l :: ls =>
    if l.kind ∈ Kind.types ∧ next ls = .identifier ∧ next ls.tail = .assign then
      ⟨(ls.headD eof).text, (ls.getD 2 eof).text, Text.lower l.text⟩ :: declarations ls
    else declarations ls

mutual

/-- The bindings of a statement, those of its parts and of the heads of loops included. -/
def Statement.bindings : Statement → List Binding
  | .print _ => []
  | .declare binding => [binding]
  | .step _ => []
  | .branch _ body otherwise => Statement.listBindings body ++ otherwise.bindings
  | .repeatWhile _ body => Statement.listBindings body
  | .count first _ _ body => first.toList ++ Statement.listBindings body

/-- The bindings of statements. -/
def Statement.listBindings : List Statement → List Binding
  | [] => []
  | s :: ss => s.bindings ++ Statement.listBindings ss

/-- The bindings after the body of a branch. -/
def Otherwise.bindings : Otherwise → List Binding
  | .nothing => []
  | .elseIf _ body otherwise => Statement.listBindings body ++ otherwise.bindings
  | .elseDo body => Statement.listBindings body

end

/-- The bindings of a program. -/
def Program.bindings (p : Program) : List Binding := Statement.listBindings p.body

/-! ## Where declarations are cut -/

@[simp] theorem declarations_nil : declarations [] = [] := rfl

/-- A lexeme that is no type declares nothing. -/
theorem declarations_cons {l : Lexeme} (hl : l.kind ∉ Kind.types) (ls : List Lexeme) :
    declarations (l :: ls) = declarations ls := by
  simp [declarations, hl]

theorem declarations_append_of_no_type {us : List Lexeme} (hu : ∀ l ∈ us, l.kind ∉ Kind.types)
    (vs : List Lexeme) : declarations (us ++ vs) = declarations vs := by
  induction us with
  | nil => rfl
  | cons l us ih =>
    rw [List.cons_append, declarations_cons (hu l (by simp))]
    exact ih fun m hm => hu m (by simp [hm])

/-- A lexeme of this kind can only stand behind a declaration. -/
def Kind.severs (k : Kind) : Bool := !(Kind.identifier :: Kind.assign :: Kind.types).contains k

/-- No declaration reaches over such a lexeme. -/
theorem declarations_severed {l : Lexeme} (hl : l.kind.severs = true) (us vs : List Lexeme) :
    declarations (us ++ l :: vs) = declarations (us ++ [l]) ++ declarations vs := by
  have hkinds : l.kind ≠ .identifier ∧ l.kind ≠ .assign ∧ l.kind ∉ Kind.types := by
    simpa [Kind.severs] using hl
  obtain ⟨hname, hassign, htype⟩ := hkinds
  induction us with
  | nil => simp [declarations, htype]
  | cons a us ih =>
    rw [List.cons_append, List.cons_append, declarations, declarations, ih]
    match us with
    | [] => simp [hname]
    | [b] => simp [hassign]
    | b :: c :: us => cases us <;> simp [apply_ite (· ++ declarations vs)]

/-! ## Pieces that are passed over -/

/-- All that the grammar accepts, but with nothing before the semicolon of an unknown
statement. -/
def Dialect.bare : Dialect where
  start l := l.kind ≠ .eof
  unknown _ _ js := js = []

/-- Some pieces of the lexemes are passed over, each an unknown statement up to its
semicolon, which is kept with all the rest. -/
inductive Skips : List Lexeme → List (List Lexeme) → List Lexeme → Prop
  | nil : Skips [] [] []
  | keep (l : Lexeme) {us : List Lexeme} {pieces : List (List Lexeme)} {ks : List Lexeme}
      (h : Skips us pieces ks) : Skips (l :: us) pieces (l :: ks)
  | skip {js : List Lexeme} (hj : Dialect.full.unknown true false js) {us : List Lexeme}
      {pieces : List (List Lexeme)} {ks : List Lexeme} (h : Skips us pieces ks) :
      Skips (js ++ sign .semicolon :: us) ((js ++ [sign .semicolon]) :: pieces)
        (sign .semicolon :: ks)

theorem Skips.refl (us : List Lexeme) : Skips us [] us := by
  induction us with
  | nil => exact .nil
  | cons l us ih => exact .keep l ih

theorem Skips.append {us vs ks ms : List Lexeme} {ps qs : List (List Lexeme)}
    (hu : Skips us ps ks) (hv : Skips vs qs ms) : Skips (us ++ vs) (ps ++ qs) (ks ++ ms) := by
  induction hu with
  | nil => exact hv
  | keep l _ ih => exact .keep l ih
  | skip hj _ ih =>
    rw [List.append_assoc, List.cons_append]
    exact .skip hj ih

/-- Lexemes, the pieces of them that are passed over, what is kept of them, and the bindings
that this is read as: each declaration is in one of the pieces or is kept, those kept are
among the bindings in order, and no declaration reaches over the end of the lexemes. -/
structure Accounted (us : List Lexeme) (pieces : List (List Lexeme)) (ks : List Lexeme)
    (bs : List Binding) : Prop where
  skips : Skips us pieces ks
  all : ∀ (vs : List Lexeme) (b : Binding), (declarations (us ++ vs)).count b =
    (declarations ks).count b + (pieces.flatMap declarations).count b + (declarations vs).count b
  kept : ∀ vs : List Lexeme, declarations (ks ++ vs) = declarations ks ++ declarations vs
  sub : (declarations ks).Sublist bs

namespace Accounted

theorem append {us vs ks ms : List Lexeme} {ps qs : List (List Lexeme)} {bs cs : List Binding}
    (hu : Accounted us ps ks bs) (hv : Accounted vs qs ms cs) :
    Accounted (us ++ vs) (ps ++ qs) (ks ++ ms) (bs ++ cs) where
  skips := hu.skips.append hv.skips
  all ws b := by
    have h := hu.all (vs ++ ws) b
    have h' := hv.all ws b
    simp only [List.append_assoc, hu.kept, List.flatMap_append, List.count_append]
    omega
  kept ws := by
    simp only [List.append_assoc, hu.kept, hv.kept]
  sub := by
    rw [hu.kept]
    exact hu.sub.append hv.sub

/-- Lexemes that are all kept. -/
theorem of_kept {us : List Lexeme} {bs : List Binding}
    (h : ∀ vs : List Lexeme, declarations (us ++ vs) = bs ++ declarations vs) :
    Accounted us [] us bs := by
  have hself : declarations us = bs := by simpa using h []
  constructor
  · exact .refl us
  · intro vs b
    simp [h, hself]
  · intro vs
    rw [h, hself]
  · simp [hself]

/-- Lexemes without a type. -/
theorem of_no_type {us : List Lexeme} (hu : ∀ l ∈ us, l.kind ∉ Kind.types) :
    Accounted us [] us [] :=
  of_kept fun vs => declarations_append_of_no_type hu vs

theorem weaken {us ks : List Lexeme} {ps : List (List Lexeme)} {bs cs : List Binding}
    (h : Accounted us ps ks bs) (hs : bs.Sublist cs) : Accounted us ps ks cs :=
  ⟨h.skips, h.all, h.kept, h.sub.trans hs⟩

/-- An unknown statement is passed over. -/
theorem skip {top after : Bool} {js : List Lexeme} (hj : Dialect.full.unknown top after js) :
    Accounted (js ++ [sign .semicolon]) [js ++ [sign .semicolon]] [sign .semicolon] [] where
  skips := by
    have hpass : Passable true false js :=
      ⟨hj.1.inner, hj.1.start, by simp, by simp, hj.1.notPrint⟩
    exact .skip ⟨hpass, hj.2⟩ .nil
  all vs b := by
    rw [List.append_assoc, List.singleton_append, declarations_severed rfl]
    simp [declarations_cons (l := sign .semicolon) (by decide)]
  kept vs := by
    rw [List.singleton_append, declarations_cons (by decide), declarations_cons (by decide)]
    rfl
  sub := by
    rw [declarations_cons (by decide)]
    exact List.Sublist.refl []

end Accounted

/-! ## Parts of statements -/

mutual

theorem Condition.SpelledTerm.no_type : ∀ {c : Condition} {us : List Lexeme}, c.SpelledTerm us →
    ∀ l ∈ us, l.kind ∉ Kind.types
  | _, _, .name n => by simp [Kind.types]
  | _, _, @Condition.SpelledTerm.compare n k hk v hv => by
    have hoperand : ∀ x ∈ Kind.operands, x ∉ Kind.types := by decide
    have hcomparison : ∀ x ∈ Kind.comparisons, x ∉ Kind.types := by decide
    simp only [List.mem_cons, List.not_mem_nil, or_false, forall_eq_or_imp, forall_eq]
    exact ⟨by simp [Kind.types], hcomparison k hk, hoperand v.kind hv⟩
  | _, _, @Condition.SpelledTerm.truth k hk => by
    have htruth : ∀ x ∈ Kind.truths, x ∉ Kind.types := by decide
    simpa using htruth k hk
  | _, _, @Condition.SpelledTerm.group c us h => by
    have ih := h.no_type
    intro l hl
    simp only [List.mem_cons, List.mem_append, List.not_mem_nil, or_false] at hl
    obtain rfl | hl | rfl := hl
    · simp [Kind.types]
    · exact ih l hl
    · simp [Kind.types]

/-- A condition has no types. -/
theorem Condition.Spelled.no_type : ∀ {c : Condition} {us : List Lexeme}, c.Spelled us →
    ∀ l ∈ us, l.kind ∉ Kind.types
  | _, _, .term h => h.no_type
  | _, _, @Condition.Spelled.join l r us vs k hk hl hr => by
    have hconnective : ∀ x ∈ Kind.connectives, x ∉ Kind.types := by decide
    have ihl := hl.no_type
    have ihr := hr.no_type
    intro m hm
    simp only [List.mem_append, List.mem_cons] at hm
    obtain hm | rfl | hm := hm
    · exact ihl m hm
    · exact hconnective k hk
    · exact ihr m hm

end

theorem SpelledCondition.no_type {c : Option Condition} {us : List Lexeme}
    (h : SpelledCondition c us) : ∀ l ∈ us, l.kind ∉ Kind.types := by
  cases h with
  | absent => simp
  | present h => exact h.no_type

theorem SpelledUpdate.no_type {u : Option Step} {us : List Lexeme} (h : SpelledUpdate u us) :
    ∀ l ∈ us, l.kind ∉ Kind.types := by
  cases h with
  | absent => simp
  | present n d => cases d <;> simp [Kind.types, Direction.operator]

/-- A declaration up to its semicolon, whatever its value is. -/
theorem declarations_declare {k : Kind} (hk : k ∈ Kind.types) (n : String) (v : Lexeme)
    (vs : List Lexeme) :
    declarations (sign k :: name n :: sign .assign :: v :: sign .semicolon :: vs) =
      ⟨n, v.text, Text.lower (sign k).text⟩ :: declarations vs := by
  have hname : Kind.identifier ∉ Kind.types := by decide
  have hassign : Kind.assign ∉ Kind.types := by decide
  have hsemicolon : Kind.semicolon ∉ Kind.types := by decide
  simp [declarations, hk, hname, hassign, hsemicolon]

/-- The first binding of a counting loop is declared by it, or it has no type there. -/
theorem accounted_first {first : Option Binding} {fs : List Lexeme}
    (h : SpelledFirst .full first fs) :
    Accounted (fs ++ [sign .semicolon]) [] (fs ++ [sign .semicolon]) first.toList := by
  cases h with
  | absent => exact .of_no_type (by simp [Kind.types])
  | typed hk n hv => exact .of_kept fun vs => declarations_declare hk n _ vs
  | @untyped n v hv =>
    -- the value may be a type, but no identifier follows it
    refine Accounted.weaken (.of_kept fun vs => ?_) (List.nil_sublist _)
    have hname : Kind.identifier ∉ Kind.types := by decide
    have hassign : Kind.assign ∉ Kind.types := by decide
    have hsemicolon : Kind.semicolon ∉ Kind.types := by decide
    simp [declarations, hname, hassign, hsemicolon]

theorem SpelledFirst.bare {first : Option Binding} {fs : List Lexeme}
    (h : SpelledFirst .full first fs) : SpelledFirst .bare first fs := by
  cases h with
  | absent => exact .absent
  | typed hk n hv => exact .typed hk n hv
  | untyped n hv => exact .untyped n hv

/-! ## Statements -/

/-- What lexemes that spell something keep when unknown statements are passed over. -/
def Keeps (us : List Lexeme) (bs : List Binding) (Spelled : List Lexeme → Prop) : Prop :=
  ∃ pieces ks, Accounted us pieces ks bs ∧ Spelled ks

/-- A body between braces. -/
theorem Accounted.braced {us ks : List Lexeme} {pieces : List (List Lexeme)} {bs : List Binding}
    (h : Accounted us pieces ks bs) : Accounted (braced us) pieces (braced ks) bs := by
  have hopen : Accounted [sign .leftBrace] [] [sign .leftBrace] [] := .of_no_type (by decide)
  have hclose : Accounted [sign .rightBrace] [] [sign .rightBrace] [] := .of_no_type (by decide)
  simpa [Offside.braced] using hopen.append (h.append hclose)

/-- A condition between parentheses and a body between braces. -/
theorem Accounted.guarded {us vs ks : List Lexeme} {pieces : List (List Lexeme)}
    {bs : List Binding} (hu : ∀ l ∈ us, l.kind ∉ Kind.types) (h : Accounted vs pieces ks bs) :
    Accounted (guarded us vs) pieces (guarded us ks) bs := by
  have hopen : Accounted [sign .leftParen] [] [sign .leftParen] [] := .of_no_type (by decide)
  have hclose : Accounted [sign .rightParen] [] [sign .rightParen] [] := .of_no_type (by decide)
  simpa [Offside.guarded] using
    hopen.append ((Accounted.of_no_type hu).append (hclose.append h.braced))

/-- A word of control before the rest. -/
theorem Accounted.word {k : Kind} (hk : k ∉ Kind.types) {us ks : List Lexeme}
    {pieces : List (List Lexeme)} {bs : List Binding} (h : Accounted us pieces ks bs) :
    Accounted (sign k :: us) pieces (sign k :: ks) bs := by
  have hword : Accounted [sign k] [] [sign k] [] := .of_no_type (by simpa using hk)
  simpa using hword.append h

mutual

theorem Statement.Spelled.keeps : ∀ {s : Statement} {us : List Lexeme}, s.Spelled .full us →
    Keeps us s.bindings (s.Spelled .bare)
  | _, _, @Statement.Spelled.print _ m hm v hv => by
    have hprintable : ∀ x ∈ Kind.printables, x ∉ Kind.types := by decide
    have hvalue := hprintable v.kind hv
    exact ⟨[], _, .of_no_type (by simp [hvalue]; decide), .print hm hv⟩
  | _, _, @Statement.Spelled.declare _ k hk n v hv =>
    ⟨[], _, .of_kept fun vs => declarations_declare hk n v vs, .declare hk n hv⟩
  | _, _, .step n d =>
    ⟨[], _, .of_no_type (by cases d <;> simp [Kind.types, Direction.operator]), .step n d⟩
  | _, _, @Statement.Spelled.branch _ c body o us vs ws b hc hb ho => by
    obtain ⟨ps, ks, hbody, hspelled⟩ := hb.keeps
    obtain ⟨qs, ms, hrest, hotherwise⟩ := ho.keeps
    have hguarded := (Accounted.guarded hc.no_type hbody).append hrest
    exact ⟨ps ++ qs, _, hguarded.word (k := .ifKeyword) (by decide),
      .branch hc hspelled hotherwise⟩
  | _, _, @Statement.Spelled.repeatWhile _ c body us vs b hc hb => by
    obtain ⟨ps, ks, hbody, hspelled⟩ := hb.keeps
    have hguarded := Accounted.guarded hc.no_type hbody
    exact ⟨ps, _, hguarded.word (k := .whileKeyword) (by decide), .repeatWhile hc hspelled⟩
  | _, _, @Statement.Spelled.count _ first c update body fs us xs vs b hf hc hu hb => by
    obtain ⟨ps, ks, hbody, hspelled⟩ := hb.keeps
    have hcondition := Accounted.of_no_type hc.no_type
    have hupdate := Accounted.of_no_type hu.no_type
    have hround := hupdate.append (hbody.braced.word (k := .rightParen) (by decide))
    have htest := hcondition.append (hround.word (k := .semicolon) (by decide))
    have hhead := (accounted_first hf).append htest
    have hloop := (hhead.word (k := .leftParen) (by decide)).word (k := .forKeyword) (by decide)
    refine ⟨ps, _, ?_, .count hf.bare hc hu hspelled⟩
    simpa [Statement.bindings] using hloop

theorem Otherwise.Spelled.keeps : ∀ {o : Otherwise} {us : List Lexeme}, o.Spelled .full us →
    Keeps us o.bindings (o.Spelled .bare)
  | _, _, .nothing => ⟨[], [], .of_no_type (by simp), .nothing⟩
  | _, _, @Otherwise.Spelled.elseIf _ c body o us vs ws b hc hb ho => by
    obtain ⟨ps, ks, hbody, hspelled⟩ := hb.keeps
    obtain ⟨qs, ms, hrest, hotherwise⟩ := ho.keeps
    have hguarded := (Accounted.guarded hc.no_type hbody).append hrest
    have hword := hguarded.word (k := .ifKeyword) (by decide)
    exact ⟨ps ++ qs, _, hword.word (k := .elseKeyword) (by decide),
      .elseIf hc hspelled hotherwise⟩
  | _, _, @Otherwise.Spelled.elseDo _ body vs b hb => by
    obtain ⟨ps, ks, hbody, hspelled⟩ := hb.keeps
    exact ⟨ps, _, hbody.braced.word (k := .elseKeyword) (by decide), .elseDo hspelled⟩

/-- A body keeps what its statements keep. -/
theorem SpelledBody.keeps : ∀ {top after behind : Bool} {ss : List Statement} {us : List Lexeme},
    SpelledBody .full top after behind ss us →
    Keeps us (Statement.listBindings ss) (SpelledBody .bare top after behind ss)
  | _, _, _, _, _, .nil => ⟨[], [], .of_no_type (by simp), .nil⟩
  | _, _, _, _, _, @SpelledBody.cons _ _ _ _ s ss us vs hs hb => by
    obtain ⟨ps, ks, hfirst, hspelled⟩ := hs.keeps
    obtain ⟨qs, ms, hrest, hbody⟩ := hb.keeps
    exact ⟨ps ++ qs, _, hfirst.append hrest, .cons hspelled hbody⟩
  | _, _, _, _, _, @SpelledBody.unknown _ _ _ _ ss js vs hj hb => by
    obtain ⟨ps, ks, hrest, hbody⟩ := hb.keeps
    have hskip := (Accounted.skip hj).append hrest
    rw [List.append_assoc, List.singleton_append] at hskip
    exact ⟨_, [] ++ sign .semicolon :: ks, hskip, .unknown rfl hbody⟩

end

/-! ## Programs -/

/-- The lexemes spell the program, and what is kept of them spells it without unknown
statements. The pieces that are passed over are these, up to their semicolons, and last what
the end of the text cuts off. -/
def PassedOver (ls : List Lexeme) (pieces : List (List Lexeme)) (kept : List Lexeme)
    (p : Program) : Prop :=
  ∃ behind us skipped js, ls = us ++ (js ++ [eof]) ∧ Passable true behind js ∧
    SpelledBody .full true false behind p.body us ∧ Skips us skipped kept ∧
    SpelledBody .bare true false behind p.body kept ∧ pieces = skipped ++ [js]

/-- What the end of the text cuts off declares as much with the end as without it. -/
theorem declarations_append_eof (js : List Lexeme) :
    declarations (js ++ [eof]) = declarations js := by
  induction js with
  | nil => rfl
  | cons a js ih =>
    rw [List.cons_append, declarations, declarations, ih]
    match js with
    | [] => simp
    | [b] => simp
    | [b, c] => simp
    | b :: c :: d :: js => simp

/-- Accepted lexemes are kept or passed over, and with them their declarations. -/
theorem Grammar.Accepted.accounted {ls : List Lexeme} {ss : List Statement}
    (h : Accepted ls ss) : ∃ pieces kept, PassedOver ls pieces kept ⟨ss⟩ ∧
      (declarations ls).Perm (declarations kept ++ pieces.flatMap declarations) ∧
      (declarations kept).Sublist (Program.bindings ⟨ss⟩) := by
  obtain ⟨behind, us, js, rfl, hb, hj⟩ := h
  obtain ⟨skipped, kept, hu, hspelled⟩ := hb.keeps
  refine ⟨skipped ++ [js], kept,
    ⟨behind, us, skipped, js, rfl, hj, hb, hu.skips, hspelled, rfl⟩, ?_, hu.sub⟩
  rw [List.perm_iff_count]
  intro b
  rw [hu.all, declarations_append_eof]
  simp [Nat.add_assoc]

/-- Every declaration of a converted text is a binding of the program of its own, or stands in
a piece that the grammar passes over. -/
theorem convert_declarations {s q : String} (h : convert s = .ok q) :
    ∃ ts p pieces kept, tokenize s = .ok ts ∧ parse ts = .ok p ∧
      PassedOver (ts.map Token.lexeme) pieces kept p ∧
      (declarations (ts.map Token.lexeme)).Perm
        (declarations kept ++ pieces.flatMap declarations) ∧
      (declarations kept).Sublist p.bindings ∧
      (declarations (ts.map Token.lexeme)).length ≤
        p.bindings.length + (pieces.flatMap declarations).length := by
  obtain ⟨ls, ss, hlexemes, haccepted, -⟩ := convert_eq_ok_iff.1 h
  obtain ⟨ts, htokens, rfl⟩ := lexemesOf?_eq_some_iff.1 hlexemes
  obtain ⟨pieces, kept, hpassed, hall, hkept⟩ := haccepted.accounted
  refine ⟨ts, ⟨ss⟩, pieces, kept, htokens,
    (Grammar.parse_eq_ok_iff (closed_tokenize htokens)).2 haccepted, hpassed, hall, hkept, ?_⟩
  have hlength := hkept.length_le
  rw [hall.length_eq, List.length_append]
  omega

/-- One declaration that is kept, and one in an unknown statement. -/
theorem convert_declarations_unknown : convert "int x=1;f int y=2;" = .ok "x = 1\n" ∧
    ∃ ts p pieces kept, tokenize "int x=1;f int y=2;" = .ok ts ∧ parse ts = .ok p ∧
      PassedOver (ts.map Token.lexeme) pieces kept p ∧
      (declarations (ts.map Token.lexeme)).Perm
        (declarations kept ++ pieces.flatMap declarations) ∧
      (declarations kept).Sublist p.bindings ∧
      (declarations (ts.map Token.lexeme)).length ≤
        p.bindings.length + (pieces.flatMap declarations).length := by
  have hlexemes : lexemesOf? none "int x=1;f int y=2;".toList =
      some ([sign .intType, name "x", sign .assign, ⟨.number, "1"⟩, sign .semicolon] ++
        ([name "f", sign .intType, name "y", sign .assign, ⟨.number, "2"⟩] ++
          [sign .semicolon, eof])) := by
    rw [lexemesOf?_eq_within]
    decide +kernel
  have hunknown : Dialect.full.unknown true false
      [name "f", sign .intType, name "y", sign .assign, ⟨.number, "2"⟩] := by
    refine ⟨⟨?_, ?_, ?_, ?_, ?_⟩, ?_⟩ <;> decide
  have hdeclare : Statement.Spelled .full (.declare ⟨"x", "1", "int"⟩)
      [sign .intType, name "x", sign .assign, ⟨.number, "1"⟩, sign .semicolon] :=
    .declare (k := .intType) (by decide) "x" (v := ⟨.number, "1"⟩) (by decide)
  have hconvert : convert "int x=1;f int y=2;" = .ok "x = 1\n" :=
    convert_eq_ok_iff.2 ⟨_, _, hlexemes,
      ⟨false, _, [], rfl, .cons hdeclare (.unknown hunknown .nil), passable_nil _ _⟩, rfl⟩
  exact ⟨hconvert, convert_declarations hconvert⟩

/-- A declaration in the body of a statement that the grammar does not know is lost. -/
theorem convert_forgets_declaration : convert "do\x7bint x=5;\x7dwhile(a);" = .ok "" ∧
    ∃ ts p, tokenize "do\x7bint x=5;\x7dwhile(a);" = .ok ts ∧ parse ts = .ok p ∧
      p.bindings = [] ∧ declarations (ts.map Token.lexeme) = [⟨"x", "5", "int"⟩] := by
  have hlexemes : lexemesOf? none "do\x7bint x=5;\x7dwhile(a);".toList =
      some ([name "do", sign .leftBrace, sign .intType, name "x", sign .assign, ⟨.number, "5"⟩] ++
        sign .semicolon :: ([sign .rightBrace, sign .whileKeyword, sign .leftParen, name "a",
          sign .rightParen] ++ [sign .semicolon, eof])) := by
    rw [lexemesOf?_eq_within]
    decide +kernel
  have hdo : Dialect.full.unknown true false
      [name "do", sign .leftBrace, sign .intType, name "x", sign .assign, ⟨.number, "5"⟩] := by
    refine ⟨⟨?_, ?_, ?_, ?_, ?_⟩, ?_⟩ <;> decide
  have hwhile : Dialect.full.unknown true false
      [sign .rightBrace, sign .whileKeyword, sign .leftParen, name "a", sign .rightParen] := by
    refine ⟨⟨?_, ?_, ?_, ?_, ?_⟩, ?_⟩ <;> decide
  have haccepted : Accepted _ [] :=
    ⟨false, _, [], rfl, .unknown hdo (.unknown hwhile .nil), passable_nil _ _⟩
  obtain ⟨ts, htokens, hmap⟩ := lexemesOf?_eq_some_iff.1 hlexemes
  refine ⟨convert_eq_ok_iff.2 ⟨_, _, hlexemes, haccepted, rfl⟩, ts, ⟨[]⟩, htokens, ?_, rfl, ?_⟩
  · rw [Grammar.parse_eq_ok_iff (closed_tokenize htokens), hmap]
    exact haccepted
  · rw [hmap]
    decide

end Offside
