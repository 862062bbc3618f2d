import Mathlib.Data.List.Infix
import Mathlib.Data.List.TakeWhile
import Offside.Command.Invocation

/-!
# What the words of a command line are

A word names a file, asks for a dry run or for help, or is at fault, and this is said here without
the reader of words: by the spellings of the options, of which any beginning will do, and by the
characters of the word (`IsName`, `IsDryRun`, `IsHelp`, `Misused`, `Ambiguous`).

The reader agrees. Each sort of word is classified as it should be (`classify_of_isName` and its
kin), and every word but `--` is of one of these sorts or starts with a dash for nothing (`taken`).
Between them stands one fact on words with two dashes (`Long.classify_eq`): such a word is what the
part of it before an equals sign is short for, whether or not it is spelled out, although the reader
looks at the two cases in different places.
-/

namespace Offside.Command

open Text (isDecimal)

/-! ## Sorts of words -/

/-- The options that start with two dashes. -/
def longOptions : List (String × Flag) := [("--help", .help), ("--dry-run", .dryRun)]

/-- The word is a beginning of an option, and goes past its two dashes. -/
def Shortens (w option : String) : Prop := 2 < w.length ∧ w.toList <+: option.toList

/-- The word asks for a dry run. -/
def IsDryRun (w : String) : Prop := Shortens w "--dry-run"

/-- What may follow `-h` in a word that asks for help. -/
inductive Letters (release : Release) : List Char → Prop
  /-- The same letter, any number of times. -/
  | again (n : Nat) : Letters release (List.replicate n 'h')
  /-- The earlier release has it behind an equals sign too. -/
  | assigned (n : Nat) (hr : release = .earlier) :
      Letters release ('=' :: List.replicate (n + 1) 'h')
  /-- The later release leaves over what starts with another letter. -/
  | others (n : Nat) {c : Char} {cs : List Char} (hr : release = .later)
      (hc : c ∉ ['h', '=', '-']) : Letters release (List.replicate n 'h' ++ c :: cs)

/-- The word asks for help. -/
inductive IsHelp (release : Release) (w : String) : Prop
  | long (h : Shortens w "--help")
  | letters {cs : List Char} (h : w.toList = '-' :: 'h' :: cs) (hc : Letters release cs)

/-- The word is an option with a value. -/
inductive Misused (release : Release) (w : String) : Prop
  | long {p v : String} {o : String × Flag} (ho : o ∈ longOptions) (hp : Shortens p o.1)
      (h : w = p ++ "=" ++ v)
  | letters {cs : List Char} (h : w.toList = '-' :: 'h' :: cs) (hc : ¬ Letters release cs)

/-- The word has a value and names no option before it. -/
def Ambiguous (w : String) : Prop := ['-', '-', '='] <+: w.toList

/-- A minus sign and a number. -/
inductive Negative : List Char → Prop
  | whole {ds : List Char} (hne : ds ≠ []) (hd : ∀ c ∈ ds, isDecimal c = true) :
      Negative ('-' :: ds)
  | fraction {ds es : List Char} (hd : ∀ c ∈ ds, isDecimal c = true) (hne : es ≠ [])
      (he : ∀ c ∈ es, isDecimal c = true) : Negative ('-' :: (ds ++ '.' :: es))

/-- The word has a value, behind two dashes at least and no more than an option. -/
def Valued (w : String) : Prop :=
  ∃ o ∈ longOptions, ∃ p v, w = p ++ "=" ++ v ∧ ['-', '-'] <+: p.toList ∧ p.toList <+: o.1.toList

/-- The word names a file. -/
inductive IsName (w : String) : Prop
  | bare (h : w.toList.head? ≠ some '-')
  | dash (h : w = "-")
  | negative {cs : List Char} (h : Negative cs) (hw : w.toList = cs ∨ w.toList = cs ++ ['\n'])
  /-- A word with a space is a name in spite of its dash, unless it is an option with a value. -/
  | spaced (hs : ' ' ∈ w.toList) (hh : ¬ ['-', 'h'] <+: w.toList) (hv : ¬ Valued w)

/-! ## Spellings -/

theorem mem_spellings {s : String} {f : Flag} (h : Flag.ofSpelling? s = some f) :
    (s, f) ∈ Flag.spellings := by
  obtain ⟨l₁, l₂, hl, -⟩ := List.lookup_eq_some_iff.1 h
  rw [hl]
  simp

theorem ofSpelling?_eq_none {s : String} (h : ∀ f, (s, f) ∉ Flag.spellings) :
    Flag.ofSpelling? s = none :=
  Option.eq_none_iff_forall_ne_some.2 fun f hf => h f (mem_spellings hf)

theorem splitEquals_eq_none {cs : List Char} (h : '=' ∉ cs) : splitEquals cs = none := by
  have hall : cs.dropWhile (· != '=') = [] := by
    rw [List.dropWhile_eq_nil_iff]
    intro c hc
    exact bne_iff_ne.2 fun he => h (he ▸ hc)
  rw [splitEquals, hall]

theorem splitEquals_append {p : List Char} (h : '=' ∉ p) (v : List Char) :
    splitEquals (p ++ '=' :: v) = some (p, v) := by
  have hp : ∀ c ∈ p, (c != '=') = true := fun c hc => bne_iff_ne.2 fun he => h (he ▸ hc)
  rw [splitEquals, List.dropWhile_append_of_pos hp, List.takeWhile_append_of_pos hp]
  simp

/-- What stands before the first equals sign, if there is one. -/
theorem eq_or_append_equals (cs : List Char) :
    '=' ∉ cs ∨ ∃ p v, cs = p ++ '=' :: v ∧ '=' ∉ p := by
  by_cases h : '=' ∈ cs
  · obtain ⟨p, v, rfl, hp⟩ := List.eq_append_cons_of_mem h
    exact .inr ⟨p, v, rfl, hp⟩
  · exact .inl h

/-- The options that the part of a word between two dashes and an equals sign is short for. -/
def longFlags (name : List Char) : List (String × Flag) :=
  (if name.isPrefixOf "help".toList then [("--help", .help)] else []) ++
    (if name.isPrefixOf "dry-run".toList then [("--dry-run", .dryRun)] else [])

theorem filter_spellings (name : List Char) :
    (Flag.spellings.filter fun s => ('-' :: '-' :: name).isPrefixOf s.1.toList) =
      longFlags name := by
  have hletter : ('-' :: '-' :: name).isPrefixOf "-h".toList = false := by simp [List.isPrefixOf]
  have hhelp : ('-' :: '-' :: name).isPrefixOf "--help".toList = name.isPrefixOf "help".toList := by
    simp [List.isPrefixOf]
  have hdry : ('-' :: '-' :: name).isPrefixOf "--dry-run".toList =
      name.isPrefixOf "dry-run".toList := by
    simp [List.isPrefixOf]
  simp only [longFlags, Flag.spellings, List.filter, hletter, hhelp, hdry]
  cases name.isPrefixOf "help".toList <;> cases name.isPrefixOf "dry-run".toList <;> rfl

theorem assigned?_eq_none {cs : List Char} (h : ∀ p v, cs = p ++ '=' :: v →
    Flag.ofSpelling? (String.ofList p) = none) : assigned? cs = none := by
  rcases eq_or_append_equals cs with hno | ⟨p, v, rfl, hno⟩
  · rw [assigned?, splitEquals_eq_none hno]
    rfl
  · rw [assigned?, splitEquals_append hno, Option.bind_some, h p v rfl]
    rfl

theorem assigned?_append {p : List Char} {f : Flag} (hp : '=' ∉ p)
    (hf : Flag.ofSpelling? (String.ofList p) = some f) (v : List Char) :
    assigned? (p ++ '=' :: v) = some (.flag f (String.ofList p) (some ⟨true, v⟩)) := by
  rw [assigned?, splitEquals_append hp, Option.bind_some, hf]
  rfl

/-! ## How words are classified -/

/-- A word with a dash that spells no option has one before an equals sign, or is short for some. -/
theorem classify_of_dash {w : String} {c : Char} {cs : List Char} (h : w.toList = '-' :: c :: cs)
    (hw : Flag.ofSpelling? w = none) : Word.classify w =
      (assigned? w.toList).elim (Word.ofCandidates w (candidates w.toList)) .ok := by
  have hhead : w.toList.head? = some '-' := by rw [h]; rfl
  have hlength : w.toList.length ≠ 1 := by rw [h]; simp
  simp only [Word.classify, hhead, hw, hlength, ne_eq, not_true_eq_false, if_false]
  cases assigned? w.toList <;> rfl

/-- A word with one dash before a letter that is no option. -/
theorem classify_short {w : String} {c : Char} {cs : List Char} (h : w.toList = '-' :: c :: cs)
    (hc : c ≠ 'h') (hd : c ≠ '-') : Word.classify w = .ok (.other w) := by
  have hsecond : ∀ p ∈ Flag.spellings, p.1.toList[1]? = some 'h' ∨ p.1.toList[1]? = some '-' := by
    decide
  have hassigned : assigned? w.toList = none := by
    refine assigned?_eq_none fun p v hp => ofSpelling?_eq_none fun f hf => ?_
    have hsecond := hsecond _ hf
    rw [h] at hp
    rw [String.toList_ofList] at hsecond
    rcases p with _ | ⟨a, _ | ⟨b, p⟩⟩
    · simp at hsecond
    · simp at hsecond
    · obtain ⟨-, rfl, -⟩ : '-' = a ∧ c = b ∧ _ := by simpa using hp
      simp [hc, hd] at hsecond
  have hnone : candidates w.toList = [] := by
    rw [h, candidates]
    · simp [Flag.spellings, Ne.symm hc]
    · rintro _ ⟨⟩
      exact hd rfl
  have hone : Flag.ofSpelling? w = none := ofSpelling?_eq_none fun f hf => by
    simpa [h, hc, hd] using hsecond _ hf
  rw [classify_of_dash h hone, hassigned, hnone]
  rfl

/-- What is attached to `-h` by the characters that follow it. -/
def attachedTo : List Char → Option Attached
  | [] => none
  | c :: cs => some (if c = '=' then ⟨true, cs⟩ else ⟨false, c :: cs⟩)

/-- The word `-h` with what is attached to it. -/
theorem classify_letter {w : String} {cs : List Char} (h : w.toList = '-' :: 'h' :: cs) :
    Word.classify w = .ok (.flag .help "-h" (attachedTo cs)) := by
  have hshort : ∀ p ∈ Flag.spellings, p.1.toList[1]? = some 'h' → p.1.toList.length = 2 := by
    decide
  have hw : w = String.ofList ('-' :: 'h' :: cs) := by rw [← h, String.ofList_toList]
  rcases cs with _ | ⟨c, cs⟩
  · rw [hw]
    rfl
  have hone : Flag.ofSpelling? w = none := ofSpelling?_eq_none fun f hf => by
    simpa [h] using hshort _ hf
  by_cases hc : c = '='
  · subst hc
    have hassigned : assigned? w.toList = some (.flag .help "-h" (some ⟨true, cs⟩)) := by
      rw [h]
      exact assigned?_append (p := ['-', 'h']) (by decide) rfl cs
    rw [classify_of_dash h hone, hassigned]
    rfl
  · have hassigned : assigned? w.toList = none := by
      refine assigned?_eq_none fun p v hp => ofSpelling?_eq_none fun f hf => ?_
      have hshort := hshort _ hf
      rw [h] at hp
      rw [String.toList_ofList] at hshort
      rcases p with _ | ⟨a, _ | ⟨b, _ | ⟨d, p⟩⟩⟩
      · simp at hp
      · simp at hp
      · simp [hc] at hp
      · obtain ⟨-, rfl, -⟩ : '-' = a ∧ 'h' = b ∧ _ := by simpa using hp
        simp at hshort
    have hcandidates : candidates w.toList = [("-h", .help, some ⟨false, c :: cs⟩)] := by
      rw [h]
      rfl
    rw [classify_of_dash h hone, hassigned, hcandidates, attachedTo, if_neg hc]
    rfl

/-- A word with two dashes, the part of it before an equals sign, and what is behind that. -/
inductive Long (w : String) : List Char → Option Attached → Prop
  | whole {name : List Char} (h : w.toList = '-' :: '-' :: name) (hne : name ≠ [])
      (hn : '=' ∉ name) : Long w name none
  | parted {name : List Char} (v : List Char) (h : w.toList = '-' :: '-' :: (name ++ '=' :: v))
      (hn : '=' ∉ name) : Long w name (some ⟨true, v⟩)

theorem Long.candidates_eq {w : String} {name : List Char} {attached : Option Attached}
    (h : Long w name attached) :
    candidates w.toList = (longFlags name).map fun s => (s.1, s.2, attached) := by
  rw [← filter_spellings]
  cases h with
  | whole h hne hn =>
    have hsplit : splitEquals ('-' :: '-' :: name) = none := splitEquals_eq_none (by simp [hn])
    simp only [h, candidates, hsplit]
  | parted v h hn =>
    have hsplit : splitEquals ('-' :: '-' :: (name ++ '=' :: v)) = some ('-' :: '-' :: name, v) :=
      splitEquals_append (p := '-' :: '-' :: name) (by simp [hn]) v
    simp only [h, candidates, hsplit]

/-- A name that is spelled out is short for its option only. -/
theorem longFlags_of_spelled {name : List Char} {f : Flag}
    (h : Flag.ofSpelling? (String.ofList ('-' :: '-' :: name)) = some f) :
    longFlags name = [(String.ofList ('-' :: '-' :: name), f)] := by
  have hall : ∀ p ∈ Flag.spellings, p.1.toList.take 2 = ['-', '-'] →
      longFlags (p.1.toList.drop 2) = [p] := by decide
  simpa using hall _ (mem_spellings h) (by simp)

/-- A word with two dashes is what it is short for, whether or not it is spelled out. -/
theorem Long.classify_eq {w : String} {name : List Char} {attached : Option Attached}
    (h : Long w name attached) : Word.classify w =
      Word.ofCandidates w ((longFlags name).map fun s => (s.1, s.2, attached)) := by
  have hcandidates := h.candidates_eq
  cases h with
  | whole h hne hn =>
    have hw : w = String.ofList ('-' :: '-' :: name) := by rw [← h, String.ofList_toList]
    have hassigned : assigned? w.toList = none := by
      refine assigned?_eq_none fun p v hp => ?_
      rw [h] at hp
      exact absurd (hp ▸ by simp : '=' ∈ '-' :: '-' :: name) (by simp [hn])
    cases hf : Flag.ofSpelling? w with
    | some f =>
      rw [longFlags_of_spelled (hw ▸ hf), ← hw]
      simp [Word.classify, h, hf, Word.ofCandidates]
    | none =>
      cases name with
      | nil => exact absurd rfl hne
      | cons c cs => rw [classify_of_dash h hf, hassigned, hcandidates, Option.elim_none]
  | parted v h hn =>
    have hf : Flag.ofSpelling? w = none := by
      have hall : ∀ p ∈ Flag.spellings, '=' ∉ p.1.toList := by decide
      exact ofSpelling?_eq_none fun f hf => by simpa [h] using hall _ hf
    cases hs : Flag.ofSpelling? (String.ofList ('-' :: '-' :: name)) with
    | some f =>
      have hassigned := assigned?_append (p := '-' :: '-' :: name) (by simp [hn]) hs v
      rw [List.cons_append, List.cons_append, ← h] at hassigned
      rw [longFlags_of_spelled hs, classify_of_dash h hf, hassigned]
      rfl
    | none =>
      have hassigned : assigned? w.toList = none := by
        rw [h, assigned?, ← List.cons_append, ← List.cons_append,
          splitEquals_append (by simp [hn]), Option.bind_some, hs]
        rfl
      rw [classify_of_dash h hf, hassigned, hcandidates, Option.elim_none]

/-! ## Letters behind `-h` -/

theorem ofSpelling?_letter {c : Char} (hc : c ≠ 'h') :
    Flag.ofSpelling? (String.ofList ['-', c]) = none := by
  have hshort : ∀ p ∈ Flag.spellings, p.1.toList.length = 2 → p.1.toList[1]? = some 'h' := by
    decide
  exact ofSpelling?_eq_none fun f hf => by simpa [hc] using hshort _ hf

theorem letters_cons_h {release : Release} {cs : List Char} (h : Letters release cs)
    (he : cs.head? ≠ some '=') : Letters release ('h' :: cs) := by
  cases h with
  | again n => exact .again (n + 1)
  | assigned n hr => simp at he
  | others n hr hc => exact .others (n + 1) hr hc

theorem letters_of_cons_h {release : Release} {cs : List Char} (h : Letters release ('h' :: cs)) :
    Letters release cs ∧ cs.head? ≠ some '=' := by
  generalize hds : 'h' :: cs = ds at h
  cases h with
  | again n =>
    cases n with
    | zero => cases hds
    | succ n =>
      obtain ⟨-, rfl⟩ := List.cons.inj hds
      exact ⟨.again n, by cases n <;> simp [List.replicate_succ]⟩
  | assigned n hr => cases hds
  | others n hr hc =>
    cases n with
    | zero =>
      obtain ⟨rfl, -⟩ := List.cons.inj hds
      simp at hc
    | succ n =>
      obtain ⟨-, rfl⟩ := List.cons.inj hds
      refine ⟨.others n hr hc, ?_⟩
      cases n with
      | zero =>
        rintro ⟨⟩
        simp at hc
      | succ n => simp [List.replicate_succ]

theorem letters_of_cons_ne {release : Release} {c : Char} {cs : List Char}
    (h : Letters release (c :: cs)) (hc : c ≠ 'h') (he : c ≠ '=') :
    release = .later ∧ c ≠ '-' := by
  generalize hds : c :: cs = ds at h
  cases h with
  | again n =>
    cases n with
    | zero => cases hds
    | succ n => exact absurd (List.cons.inj hds).1 hc
  | assigned n hr => exact absurd (List.cons.inj hds).1 he
  | others n hr hc' =>
    cases n with
    | zero =>
      obtain ⟨rfl, -⟩ := List.cons.inj hds
      simp only [List.mem_cons, List.not_mem_nil, or_false, not_or] at hc'
      exact ⟨hr, hc'.2.2⟩
    | succ n => exact absurd (List.cons.inj hds).1 hc

theorem letters_assigned {release : Release} {v : List Char} :
    Letters release ('=' :: v) ↔ release = .earlier ∧ ∃ n, v = List.replicate (n + 1) 'h' := by
  constructor
  · intro h
    generalize hds : '=' :: v = ds at h
    cases h with
    | again n => cases n <;> cases hds
    | assigned n hr =>
      obtain ⟨-, rfl⟩ := List.cons.inj hds
      exact ⟨hr, n, rfl⟩
    | others n hr hc =>
      cases n with
      | zero =>
        obtain ⟨rfl, -⟩ := List.cons.inj hds
        simp at hc
      | succ n => cases hds
  · rintro ⟨hr, n, rfl⟩
    exact .assigned n hr

theorem cluster_h (release : Release) (cs : List Char) : cluster release .help ('h' :: cs) =
    if release = .later ∧ cs.head? = some '=' then
      .error (.ignoredValue .help (String.ofList cs.tail))
    else (cluster release .help cs).map (.help :: ·) := rfl

theorem cluster_of_ne (release : Release) {c : Char} (hc : c ≠ 'h') (cs : List Char) :
    cluster release .help (c :: cs) =
      if release = .earlier ∨ c = '-' then .error (.ignoredValue .help (String.ofList (c :: cs)))
      else .ok [.help] := by
  rw [cluster, ofSpelling?_letter hc]

/-- Letters behind `-h` stand for options, of which it is the first, or end in a value. -/
theorem cluster_cases (release : Release) (cs : List Char) (he : cs.head? ≠ some '=') :
    (∃ fs, cluster release .help cs = .ok (.help :: fs)) ∧ Letters release cs ∨
      (∃ e, cluster release .help cs = .error e) ∧ ¬ Letters release cs := by
  induction cs with
  | nil => exact .inl ⟨⟨[], rfl⟩, .again 0⟩
  | cons c cs ih =>
    by_cases hc : c = 'h'
    · subst hc
      by_cases heq : cs.head? = some '='
      · refine .inr ⟨?_, fun h => (letters_of_cons_h h).2 heq⟩
        obtain ⟨v, rfl⟩ := List.head?_eq_some_iff.1 heq
        cases release <;> exact ⟨_, rfl⟩
      · rw [cluster_h, if_neg fun h => heq h.2]
        obtain ⟨⟨fs, hfs⟩, h⟩ | ⟨⟨e, hf⟩, h⟩ := ih heq
        · exact .inl ⟨⟨_, by rw [hfs]; rfl⟩, letters_cons_h h heq⟩
        · exact .inr ⟨⟨e, by rw [hf]; rfl⟩, fun h' => h (letters_of_cons_h h').1⟩
    · -- the first letter that is no option: a value, or left over
      have hequals : c ≠ '=' := by simpa using he
      rw [cluster_of_ne release hc]
      split
      · next hvalue =>
        refine .inr ⟨⟨_, rfl⟩, fun h => ?_⟩
        obtain ⟨rfl, hdash⟩ := letters_of_cons_ne h hc hequals
        simp [hdash] at hvalue
      · next hvalue =>
        rw [not_or] at hvalue
        have hlater : release = .later := by
          cases release with
          | earlier => exact absurd rfl hvalue.1
          | later => rfl
        exact .inl ⟨⟨[], rfl⟩, .others 0 hlater (by simp [hc, hequals, hvalue.2])⟩

/-- Behind an equals sign, only the earlier release takes letters for options. -/
theorem flagsOf_assigned (release : Release) (v : List Char) :
    (∃ fs, flagsOf release .help "-h" (some ⟨true, v⟩) = .ok (.help :: fs)) ∧
        Letters release ('=' :: v) ∨
      (∃ e, flagsOf release .help "-h" (some ⟨true, v⟩) = .error e) ∧
        ¬ Letters release ('=' :: v) := by
  rw [letters_assigned]
  cases release with
  | later => exact .inr ⟨⟨_, by rw [flagsOf, if_pos (by simp)]⟩, fun h => nomatch h.1⟩
  | earlier =>
    cases v with
    | nil => exact .inr ⟨⟨_, rfl⟩, by simp⟩
    | cons d ds =>
      show (∃ fs, cluster .earlier .help (d :: ds) = .ok (.help :: fs)) ∧ _ ∨
        (∃ e, cluster .earlier .help (d :: ds) = .error e) ∧ _
      by_cases hd : d = '='
      · subst hd
        exact .inr ⟨⟨_, rfl⟩, by simp [List.replicate_succ]⟩
      · obtain ⟨hok, h⟩ | ⟨herror, h⟩ := cluster_cases .earlier (d :: ds) (by simpa using hd)
        · refine .inl ⟨hok, rfl, ?_⟩
          generalize hcs : d :: ds = cs at h
          cases h with
          | again n =>
            cases n with
            | zero => cases hcs
            | succ n => exact ⟨n, rfl⟩
          | assigned n hr => exact absurd (List.cons.inj hcs).1 hd
          | others n hr hc => cases hr
        · refine .inr ⟨herror, fun ⟨_, n, hn⟩ => h ?_⟩
          rw [hn]
          exact .again (n + 1)

/-- What is attached to `-h` stands for options, or is a value. -/
theorem flagsOf_letter (release : Release) (cs : List Char) :
    (∃ fs, flagsOf release .help "-h" (attachedTo cs) = .ok (.help :: fs)) ∧ Letters release cs ∨
      (∃ e, flagsOf release .help "-h" (attachedTo cs) = .error e) ∧ ¬ Letters release cs := by
  cases cs with
  | nil => exact .inl ⟨⟨[], rfl⟩, .again 0⟩
  | cons c cs =>
    by_cases hc : c = '='
    · subst hc
      rw [attachedTo, if_pos rfl]
      exact flagsOf_assigned release cs
    · have hflags : flagsOf release .help "-h" (attachedTo (c :: cs)) =
          cluster release .help (c :: cs) := by
        rw [attachedTo, if_neg hc]
        rfl
      rw [hflags]
      exact cluster_cases release (c :: cs) (by simpa using hc)

/-! ## Long options -/

theorem longFlags_nil : longFlags [] = [("--help", .help), ("--dry-run", .dryRun)] := rfl

/-- A beginning of a long option is short for that option only, and has no equals sign. -/
theorem longFlags_of_prefix {name : List Char} (hne : name ≠ []) {o : String × Flag}
    (ho : o ∈ longOptions) (hp : name <+: o.1.toList.drop 2) :
    longFlags name = [o] ∧ '=' ∉ name := by
  have hall : ∀ o ∈ longOptions, ∀ name ∈ (o.1.toList.drop 2).inits, name ≠ [] →
      longFlags name = [o] ∧ '=' ∉ name := by decide
  exact hall o ho name ((List.mem_inits _ _).2 hp) hne

theorem longFlags_eq_nil {name : List Char}
    (h : ∀ o ∈ longOptions, ¬ name <+: o.1.toList.drop 2) : longFlags name = [] := by
  have hhelp : name.isPrefixOf "help".toList = false := by
    rw [← Bool.not_eq_true, List.isPrefixOf_iff_prefix]
    exact h ("--help", .help) (by decide)
  have hdry : name.isPrefixOf "dry-run".toList = false := by
    rw [← Bool.not_eq_true, List.isPrefixOf_iff_prefix]
    exact h ("--dry-run", .dryRun) (by decide)
  rw [longFlags, hhelp, hdry]
  rfl

theorem toList_longOption {o : String × Flag} (ho : o ∈ longOptions) :
    o.1.toList = '-' :: '-' :: o.1.toList.drop 2 := by
  have hdashes : ∀ o ∈ longOptions, o.1.toList = '-' :: '-' :: o.1.toList.drop 2 := by decide
  exact hdashes o ho

/-- What shortens a long option goes on after two dashes. -/
theorem shortens_iff {w : String} {o : String × Flag} (ho : o ∈ longOptions) : Shortens w o.1 ↔
    ∃ name, name ≠ [] ∧ name <+: o.1.toList.drop 2 ∧ w.toList = '-' :: '-' :: name := by
  obtain ⟨rest, hrest, hoption⟩ : ∃ rest, o.1.toList.drop 2 = rest ∧
      o.1.toList = '-' :: '-' :: rest := ⟨_, rfl, toList_longOption ho⟩
  rw [Shortens, hrest, hoption, ← String.length_toList]
  constructor
  · rintro ⟨hlength, hp⟩
    rcases hw : w.toList with _ | ⟨a, _ | ⟨b, name⟩⟩
    · simp [hw] at hlength
    · simp [hw] at hlength
    · rw [hw] at hp hlength
      simp only [List.cons_prefix_cons] at hp
      obtain ⟨rfl, rfl, hname⟩ := hp
      refine ⟨name, ?_, hname, rfl⟩
      rintro rfl
      simp at hlength
  · rintro ⟨name, hne, hp, hw⟩
    rw [hw]
    constructor
    · simpa [List.length_pos_iff] using hne
    · simpa using hp

/-- A value stands behind a beginning of an option, which may be its dashes alone. -/
theorem valued_iff {w : String} : Valued w ↔ ∃ o ∈ longOptions, ∃ name v,
    name <+: o.1.toList.drop 2 ∧ w.toList = '-' :: '-' :: (name ++ '=' :: v) := by
  constructor
  · rintro ⟨o, ho, p, v, rfl, ⟨name, hname⟩, hp⟩
    rw [← hname, toList_longOption ho] at hp
    refine ⟨o, ho, name, v.toList, by simpa using hp, ?_⟩
    simp [← hname]
  · rintro ⟨o, ho, name, v, hp, hw⟩
    refine ⟨o, ho, String.ofList ('-' :: '-' :: name), String.ofList v, ?_, ?_, ?_⟩
    · rw [← String.toList_inj, hw]
      simp
    · rw [String.toList_ofList]
      exact ⟨name, rfl⟩
    · rw [String.toList_ofList, toList_longOption ho]
      simpa using hp

/-! ## What words are taken for -/

section Words

variable {release : Release} {w : String}

/-- A word that shortens an option is that option. -/
theorem classify_of_shortens {o : String × Flag} (ho : o ∈ longOptions) (h : Shortens w o.1) :
    Word.classify w = .ok (.flag o.2 o.1 none) := by
  obtain ⟨name, hne, hp, hw⟩ := (shortens_iff ho).1 h
  obtain ⟨hflags, hequals⟩ := longFlags_of_prefix hne ho hp
  rw [(Long.whole hw hne hequals).classify_eq, hflags]
  rfl

theorem classify_of_isDryRun (h : IsDryRun w) :
    Word.classify w = .ok (.flag .dryRun "--dry-run" none) :=
  classify_of_shortens (o := ("--dry-run", .dryRun)) (by decide) h

theorem classify_of_isHelp (h : IsHelp release w) : ∃ spelling attached fs,
    Word.classify w = .ok (.flag .help spelling attached) ∧
      flagsOf release .help spelling attached = .ok (.help :: fs) := by
  cases h with
  | long h =>
    exact ⟨_, _, [], classify_of_shortens (o := ("--help", .help)) (by decide) h, rfl⟩
  | @letters cs h hc =>
    obtain ⟨⟨fs, hfs⟩, -⟩ | ⟨-, hn⟩ := flagsOf_letter release cs
    · exact ⟨_, _, fs, classify_letter h, hfs⟩
    · exact absurd hc hn

theorem classify_of_misused (h : Misused release w) : ∃ f spelling attached e,
    Word.classify w = .ok (.flag f spelling attached) ∧
      flagsOf release f spelling attached = .error e := by
  cases h with
  | @long p v o ho hp h =>
    obtain ⟨name, hne, hp, hname⟩ := (shortens_iff ho).1 hp
    obtain ⟨hflags, hequals⟩ := longFlags_of_prefix hne ho hp
    have hw : w.toList = '-' :: '-' :: (name ++ '=' :: v.toList) := by simp [h, hname]
    have hlong : ∀ o ∈ longOptions, o.1.toList[1]? = some '-' := by decide
    have hclassify : Word.classify w = .ok (.flag o.2 o.1 (some ⟨true, v.toList⟩)) := by
      rw [(Long.parted _ hw hequals).classify_eq, hflags]
      rfl
    refine ⟨_, _, _, .ignoredValue o.2 v, hclassify, ?_⟩
    simp [flagsOf, hlong o ho]
  | @letters cs h hc =>
    obtain ⟨-, hn⟩ | ⟨⟨e, he⟩, -⟩ := flagsOf_letter release cs
    · exact absurd hn hc
    · exact ⟨_, _, _, e, classify_letter h, he⟩

theorem classify_of_ambiguous (h : Ambiguous w) : ∃ e, Word.classify w = .error e := by
  obtain ⟨v, hv⟩ := h
  have hlong : Long w [] (some ⟨true, v⟩) := .parted v hv.symm (by simp)
  rw [hlong.classify_eq, longFlags_nil]
  exact ⟨_, rfl⟩

/-! ### Names -/

theorem isNegative_iff {cs : List Char} : isNegative cs = true ↔ Negative cs := by
  constructor
  · intro h
    unfold isNegative at h
    split at h
    · next digits =>
      have hdigits : ∀ c ∈ digits.takeWhile isDecimal, isDecimal c = true :=
        fun c hc => (List.mem_takeWhile_imp hc)
      have hsplit := List.takeWhile_append_dropWhile (p := isDecimal) (l := digits)
      split at h
      · next hdrop =>
        rw [hdrop, List.append_nil] at hsplit
        rw [hsplit] at hdigits
        exact .whole (by simpa using h) hdigits
      · next fraction hdrop =>
        rw [hdrop] at hsplit
        rw [← hsplit]
        simp only [Bool.and_eq_true, List.all_eq_true] at h
        exact .fraction hdigits (by simpa using h.1) h.2
      · cases h
    · cases h
  · intro h
    cases h with
    | @whole ds hne hd =>
      have hdrop : ds.dropWhile isDecimal = [] := List.dropWhile_eq_nil_iff.2 hd
      simp [isNegative, hdrop, hne]
    | @fraction ds es hd hne he =>
      have hpoint : isDecimal '.' = false := by decide
      have hdrop : (ds ++ '.' :: es).dropWhile isDecimal = '.' :: es := by
        rw [List.dropWhile_append_of_pos hd, List.dropWhile_cons_of_neg (by simp [hpoint])]
      simpa [isNegative, hdrop, hne] using he

/-- A number ends with a digit. -/
theorem Negative.exists_last {cs : List Char} (h : Negative cs) :
    ∃ ds c, cs = ds ++ [c] ∧ isDecimal c = true := by
  cases h with
  | whole hne hd =>
    obtain ⟨ds, c, rfl⟩ := (List.eq_nil_or_concat' _).resolve_left hne
    exact ⟨'-' :: ds, c, rfl, hd c (by simp)⟩
  | @fraction ds es hd hne he =>
    obtain ⟨es, c, rfl⟩ := (List.eq_nil_or_concat' _).resolve_left hne
    exact ⟨'-' :: (ds ++ '.' :: es), c, by simp, he c (by simp)⟩

theorem Negative.getLast? {cs : List Char} (h : Negative cs) : cs.getLast? ≠ some '\n' := by
  have hfeed : isDecimal '\n' = false := by decide
  obtain ⟨ds, c, rfl, hc⟩ := h.exists_last
  rw [List.getLast?_concat]
  rintro ⟨⟩
  rw [hfeed] at hc
  cases hc

theorem isNegativeNumber_iff {cs : List Char} : isNegativeNumber cs = true ↔
    ∃ ds, Negative ds ∧ (cs = ds ∨ cs = ds ++ ['\n']) := by
  rw [isNegativeNumber]
  by_cases hlast : cs.getLast? = some '\n'
  · rw [if_pos hlast, isNegative_iff]
    obtain ⟨ds, rfl⟩ := List.getLast?_eq_some_iff.1 hlast
    rw [List.dropLast_concat]
    constructor
    · exact fun h => ⟨ds, h, .inr rfl⟩
    · rintro ⟨es, h, he | he⟩
      · exact absurd (he ▸ hlast) h.getLast?
      · rwa [List.append_cancel_right he]
  · rw [if_neg hlast, isNegative_iff]
    constructor
    · exact fun h => ⟨cs, h, .inl rfl⟩
    · rintro ⟨ds, h, rfl | rfl⟩
      · exact h
      · simp at hlast

theorem Negative.second {cs : List Char} (h : Negative cs) :
    ∃ c ds, cs = '-' :: c :: ds ∧ c ≠ 'h' ∧ c ≠ '-' := by
  have hletters : isDecimal 'h' = false ∧ isDecimal '-' = false := by decide
  have hdigit : ∀ {c : Char}, isDecimal c = true → c ≠ 'h' ∧ c ≠ '-' := by
    rintro c hc
    constructor
    · rintro rfl
      rw [hletters.1] at hc
      cases hc
    · rintro rfl
      rw [hletters.2] at hc
      cases hc
  cases h with
  | @whole ds hne hd =>
    cases ds with
    | nil => exact absurd rfl hne
    | cons c ds => exact ⟨c, ds, rfl, hdigit (hd c (.head _))⟩
  | @fraction ds es hd hne he =>
    cases ds with
    | nil => exact ⟨'.', es, rfl, by decide⟩
    | cons c ds => exact ⟨c, _, rfl, hdigit (hd c (.head _))⟩

theorem other_eq_plain (h : isNegativeNumber w.toList = true ∨ ' ' ∈ w.toList) :
    Word.other w = .plain w := by
  rw [Word.other, if_pos (by simpa using h)]

theorem other_eq_unknown (h : ¬ (isNegativeNumber w.toList = true ∨ ' ' ∈ w.toList)) :
    Word.other w = .unknown w := by
  rw [Word.other, if_neg (by simpa using h)]

theorem exists_long {cs : List Char} (h : w.toList = '-' :: '-' :: cs) (hne : cs ≠ []) :
    ∃ name attached, Long w name attached := by
  obtain hno | ⟨name, v, rfl, hno⟩ := eq_or_append_equals cs
  · exact ⟨cs, none, .whole h hne hno⟩
  · exact ⟨name, some ⟨true, v⟩, .parted v h hno⟩

/-- A word with a space and two dashes is short for no option if it has no value. -/
theorem Long.flags_eq_nil {name : List Char} {attached : Option Attached} (h : Long w name attached)
    (hs : ' ' ∈ w.toList) (hv : ¬ Valued w) : longFlags name = [] := by
  refine longFlags_eq_nil fun o ho hp => ?_
  cases h with
  | whole h hne hn =>
    have hspace : ∀ o ∈ longOptions, ' ' ∉ o.1.toList.drop 2 := by decide
    rw [h] at hs
    exact hspace o ho (hp.subset (by simpa using hs))
  | parted v h hn => exact hv (valued_iff.2 ⟨o, ho, name, v, hp, h⟩)

theorem classify_of_isName (h : IsName w) : Word.classify w = .ok (.plain w) := by
  by_cases hdash : w.toList.head? = some '-'
  · cases h with
    | bare h => exact absurd hdash h
    | dash h =>
      rw [h]
      rfl
    | @negative cs h hw =>
      obtain ⟨c, ds, hcs, hh, hd⟩ := h.second
      have hshape : ∃ es, w.toList = '-' :: c :: es := by
        obtain hw | hw := hw
        · exact ⟨ds, by rw [hw, hcs]⟩
        · exact ⟨ds ++ ['\n'], by rw [hw, hcs]; rfl⟩
      obtain ⟨es, hes⟩ := hshape
      rw [classify_short hes hh hd, other_eq_plain (.inl (isNegativeNumber_iff.2 ⟨cs, h, hw⟩))]
    | spaced hs hh hv =>
      obtain ⟨cs, hcs⟩ := List.head?_eq_some_iff.1 hdash
      cases cs with
      | nil => simp [hcs] at hs
      | cons c cs =>
        by_cases hc : c = 'h'
        · subst hc
          simp [hcs] at hh
        by_cases hd : c = '-'
        · subst hd
          obtain ⟨name, attached, hlong⟩ := exists_long hcs (by rintro rfl; simp [hcs] at hs)
          rw [hlong.classify_eq, hlong.flags_eq_nil hs hv, ← other_eq_plain (.inr hs)]
          rfl
        · rw [classify_short hcs hc hd, other_eq_plain (.inr hs)]
  · simp [Word.classify, hdash]

/-- A word that is not short for an option is a name if it has a space. -/
theorem Long.isName {name : List Char} {attached : Option Attached} (h : Long w name attached)
    (hs : ' ' ∈ w.toList) (hnone : ∀ o ∈ longOptions, ¬ name <+: o.1.toList.drop 2) : IsName w := by
  refine .spaced hs ?_ fun hv => ?_
  · cases h with
    | whole h _ _ => simp [h]
    | parted v h _ => simp [h]
  · obtain ⟨o, ho, p, v, hp, hw⟩ := valued_iff.1 hv
    have hequals : ∀ o ∈ longOptions, '=' ∉ o.1.toList.drop 2 := by decide
    have hno : '=' ∉ p := fun hm => hequals o ho (hp.subset hm)
    have hsplit := splitEquals_append (p := '-' :: '-' :: p) (by simp [hno]) v
    rw [List.cons_append, List.cons_append, ← hw] at hsplit
    cases h with
    | whole h _ hn =>
      rw [h, splitEquals_eq_none (by simp [hn])] at hsplit
      cases hsplit
    | parted u h hn =>
      rw [h, ← List.cons_append, ← List.cons_append, splitEquals_append (by simp [hn])] at hsplit
      cases hsplit
      exact hnone o ho hp

/-- What a word can be. -/
inductive Taken (release : Release) (w : String) : Prop
  | name (h : IsName w)
  | dryRun (h : IsDryRun w)
  | help (h : IsHelp release w)
  | misused (h : Misused release w)
  | ambiguous (h : Ambiguous w)
  | unknown (h : Word.classify w = .ok (.unknown w))

theorem Long.taken {name : List Char} {attached : Option Attached} (h : Long w name attached)
    (release : Release) : Taken release w := by
  by_cases hp : ∃ o ∈ longOptions, name <+: o.1.toList.drop 2
  · obtain ⟨o, ho, hp⟩ := hp
    cases h with
    | whole h hne hn =>
      have hshortens := (shortens_iff ho).2 ⟨name, hne, hp, h⟩
      simp only [longOptions, List.mem_cons, List.not_mem_nil, or_false] at ho
      obtain rfl | rfl := ho
      · exact .help (.long hshortens)
      · exact .dryRun hshortens
    | parted v h hn =>
      by_cases hne : name = []
      · subst hne
        exact .ambiguous ⟨v, by simp [h]⟩
      · have hshortens : Shortens (String.ofList ('-' :: '-' :: name)) o.1 :=
          (shortens_iff ho).2 ⟨name, hne, hp, String.toList_ofList⟩
        refine .misused (.long ho hshortens (v := String.ofList v) ?_)
        rw [← String.toList_inj, h]
        simp
  · have hnone : ∀ o ∈ longOptions, ¬ name <+: o.1.toList.drop 2 := by simpa using hp
    by_cases hs : ' ' ∈ w.toList
    · exact .name (h.isName hs hnone)
    · have hnumber : isNegativeNumber w.toList ≠ true := by
        intro hn
        obtain ⟨ds, hds, heq⟩ := isNegativeNumber_iff.1 hn
        obtain ⟨c, es, rfl, -, hd⟩ := hds.second
        cases h with
        | whole h _ _ => simp [h, Ne.symm hd] at heq
        | parted v h _ => simp [h, Ne.symm hd] at heq
      refine .unknown ?_
      rw [h.classify_eq, longFlags_eq_nil hnone, ← other_eq_unknown (by simp [hnumber, hs])]
      rfl

/-- Every word but `--` is a name, an option, an option with a value, or nothing known. -/
theorem taken (release : Release) (hw : w ≠ "--") : Taken release w := by
  -- by the first two characters: two dashes, `-h`, another letter behind a dash, no dash
  rcases hcs : w.toList with _ | ⟨a, _ | ⟨b, cs⟩⟩
  · exact .name (.bare (by simp [hcs]))
  · by_cases ha : a = '-'
    · subst ha
      exact .name (.dash (String.toList_inj.1 hcs))
    · exact .name (.bare (by simp [hcs, ha]))
  by_cases ha : a = '-'
  · subst ha
    by_cases hb : b = 'h'
    · subst hb
      by_cases hl : Letters release cs
      · exact .help (.letters hcs hl)
      · exact .misused (.letters hcs hl)
    by_cases hd : b = '-'
    · subst hd
      obtain ⟨name, attached, hlong⟩ := exists_long hcs (by
        rintro rfl
        exact hw (String.toList_inj.1 hcs))
      exact hlong.taken release
    · by_cases hn : isNegativeNumber w.toList = true
      · obtain ⟨ds, hds, heq⟩ := isNegativeNumber_iff.1 hn
        exact .name (.negative hds heq)
      by_cases hs : ' ' ∈ w.toList
      · refine .name (.spaced hs (by simp [hcs, Ne.symm hb]) fun hv => ?_)
        obtain ⟨o, ho, name, v, -, hw⟩ := valued_iff.1 hv
        simp [hcs, hd] at hw
      · refine .unknown ?_
        rw [classify_short hcs hb hd, other_eq_unknown (by simp [hn, hs])]
  · exact .name (.bare (by simp [hcs, ha]))

end Words

end Offside.Command
