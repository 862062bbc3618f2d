import Offside.Proofs.Options

/-!
# What a command line asks for

`Asks` says what a list of words asks for, by the sorts of its words and their order: a conversion,
for which it has the names of the input and perhaps the output side by side, with words for a dry
run before or behind them; or help, which is given as soon as a word asks for it, unless a word that
cannot be understood comes first. A list of words that asks for nothing is one that cannot be used.

`ofArguments_eq_ok_iff` is that the reader of command lines finds exactly this. The reader gathers
names and leftover words as it goes (`Gathers` has its steps), and what counts is which words leave
nothing over: once there is one word too many, one is left over in the end
(`Gathers.leftover_ne_nil`).
-/

namespace Offside.Command

/-! ## Requests -/

/-- The part of a command line that names files, and the request that it makes. -/
inductive Naming : List String → Request → Prop
  /-- An input, perhaps an output, and nothing behind them but words for a dry run. -/
  | plain {input : String} {output : Option String} {behind : List String} (hi : IsName input)
      (ho : ∀ w ∈ output, IsName w) (hb : ∀ w ∈ behind, IsDryRun w) :
      Naming (input :: (output.toList ++ behind)) ⟨input, output, !behind.isEmpty⟩
  /-- After `--` all words are names. A second `--` in the place of the output is none. -/
  | marked (input : String) (output : Option String) :
      Naming ("--" :: input :: output.toList) ⟨input, output.filter (· != "--"), false⟩
  | between {input : String} (hi : IsName input) (output : Option String) :
      Naming (input :: "--" :: output.toList) ⟨input, output.filter (· != "--"), false⟩
  | closed {input output : String} (hi : IsName input) (ho : IsName output) :
      Naming [input, output, "--"] ⟨input, some output, false⟩

/-- What a command line asks for. -/
inductive Asks (release : Release) : List String → Invocation → Prop
  /-- Words for a dry run may stand before the names as well. -/
  | run {before names : List String} {r : Request} (hb : ∀ w ∈ before, IsDryRun w)
      (h : Naming names r) :
      Asks release (before ++ names) (.run { r with dryRun := !before.isEmpty || r.dryRun })
  /-- Help comes before all that is wrong with the names, and before words that mean nothing. It
  comes after options with a value to their left, and after ambiguous words anywhere before `--`,
  since all words are told apart before the first is obeyed. -/
  | help {us vs : List String} {w : String} (hu : ∀ u ∈ us, u ≠ "--" ∧ ¬ Misused release u)
      (hw : IsHelp release w) (ha : ∀ u ∈ (us ++ w :: vs).takeWhile (· != "--"), ¬ Ambiguous u) :
      Asks release (us ++ w :: vs) .help

/-! ## How words are gathered -/

section Reading

variable {release : Release} {g : Gathered} {run : List String} {s : String} {ss : List String}

theorem ne_dashes_of_classify {w : Word} (hw : Word.classify s = .ok w) : s ≠ "--" := by
  have hdashes : Word.classify "--" = .error (.ambiguous "--" ["--help", "--dry-run"]) := by decide
  rintro rfl
  rw [hdashes] at hw
  cases hw

/-- The first word is read, unless a later one is ambiguous. -/
theorem readWords_cons {w : Word} (hw : Word.classify s = .ok w) :
    readWords release g run (s :: ss) =
      (splitWords ss >>= fun p => gather release g run p.2 (w :: p.1)) := by
  rw [readWords, splitWords, if_neg (ne_dashes_of_classify hw), hw]
  cases splitWords ss <;> rfl

theorem readWords_name (h : IsName s) :
    readWords release g run (s :: ss) = readWords release g (run ++ [s]) ss := by
  rw [readWords_cons (classify_of_isName h)]
  rfl

theorem readWords_dryRun (h : IsDryRun s) :
    readWords release g run (s :: ss) =
      readWords release { g.addNames run with dryRun := true } [] ss := by
  rw [readWords_cons (classify_of_isDryRun h)]
  rfl

theorem readWords_unknown (h : Word.classify s = .ok (.unknown s)) :
    readWords release g run (s :: ss) = readWords release
      { g.addNames run with leftover := (g.addNames run).leftover ++ [s] } [] ss := by
  rw [readWords_cons h]
  rfl

theorem readWords_help (h : IsHelp release s) :
    readWords release g run (s :: ss) = (splitWords ss).map fun _ => none := by
  obtain ⟨spelling, attached, fs, hclassify, hflags⟩ := classify_of_isHelp h
  rw [readWords_cons hclassify]
  cases splitWords ss with
  | error e => rfl
  | ok p =>
    simp [bind, Except.bind, gather, hflags, Except.map, pure, Except.pure]

theorem readWords_misused (h : Misused release s) (g' : Option Gathered) :
    readWords release g run (s :: ss) ≠ .ok g' := by
  obtain ⟨f, spelling, attached, e, hclassify, hflags⟩ := classify_of_misused h
  rw [readWords_cons hclassify]
  cases splitWords ss with
  | error e => exact nofun
  | ok p =>
    simp [bind, Except.bind, gather, hflags]

theorem readWords_ambiguous (hs : s ≠ "--") (h : Ambiguous s) (g' : Option Gathered) :
    readWords release g run (s :: ss) ≠ .ok g' := by
  obtain ⟨e, he⟩ := classify_of_ambiguous h
  rw [readWords, splitWords, if_neg hs, he]
  exact nofun

/-- How words are gathered, one after the other. -/
inductive Gathers : Gathered → List String → List String → Gathered → Prop
  | nil (g : Gathered) (run : List String) : Gathers g run [] (g.addNames run)
  | dashes (g : Gathered) (run after : List String) :
      Gathers g run ("--" :: after) (g.addLast run after)
  | name {g g' : Gathered} {run ss : List String} {s : String} (hs : IsName s)
      (h : Gathers g (run ++ [s]) ss g') : Gathers g run (s :: ss) g'
  | dryRun {g g' : Gathered} {run ss : List String} {s : String} (hs : IsDryRun s)
      (h : Gathers { g.addNames run with dryRun := true } [] ss g') : Gathers g run (s :: ss) g'
  | unknown {g g' : Gathered} {run ss : List String} {s : String}
      (hs : Word.classify s = .ok (.unknown s))
      (h : Gathers { g.addNames run with leftover := (g.addNames run).leftover ++ [s] } [] ss g') :
      Gathers g run (s :: ss) g'

theorem readWords_of_gathers {g' : Gathered} (h : Gathers g run ss g') :
    readWords release g run ss = .ok (some g') := by
  induction h with
  | nil g run => rfl
  | dashes g run after => rfl
  | name hs h ih => rw [readWords_name hs, ih]
  | dryRun hs h ih => rw [readWords_dryRun hs, ih]
  | unknown hs h ih => rw [readWords_unknown hs, ih]

theorem gathers_of_readWords {g' : Gathered} (h : readWords release g run ss = .ok (some g')) :
    Gathers g run ss g' := by
  induction ss generalizing g run with
  | nil =>
    cases h
    exact .nil g run
  | cons s ss ih =>
    by_cases hs : s = "--"
    · subst hs
      cases h
      exact .dashes g run ss
    cases taken release hs with
    | name hn => exact .name hn (ih (readWords_name hn ▸ h))
    | dryRun hd => exact .dryRun hd (ih (readWords_dryRun hd ▸ h))
    | unknown hu => exact .unknown hu (ih (readWords_unknown hu ▸ h))
    | misused hm => exact absurd h (readWords_misused hm _)
    | ambiguous ha => exact absurd h (readWords_ambiguous hs ha _)
    | help hh =>
      rw [readWords_help hh] at h
      cases hp : splitWords ss with
      | error e =>
        rw [hp] at h
        cases h
      | ok p =>
        rw [hp] at h
        cases h

/-! ### Words that are left over -/

theorem Gathered.leftover_addNames (g : Gathered) (names : List String) :
    g.leftover <+: (g.addNames names).leftover := by
  unfold addNames
  split <;> simp

theorem Gathered.leftover_addLast (g : Gathered) (before after : List String) :
    g.leftover <+: (g.addLast before after).leftover := by
  unfold addLast
  split
  · simp
  · simp
  · simp
  · simp
  · exact g.leftover_addNames _

/-- Words that are left over stay so. -/
theorem Gathers.leftover {g' : Gathered} (h : Gathers g run ss g') :
    g.leftover <+: g'.leftover := by
  induction h with
  | nil g run => exact g.leftover_addNames run
  | dashes g run after => exact g.leftover_addLast run after
  | name hs h ih => exact ih
  | dryRun hs h ih => exact (Gathered.leftover_addNames _ _).trans ih
  | unknown hs h ih =>
    exact ((Gathered.leftover_addNames _ _).trans (List.prefix_append _ _)).trans ih

/-- Too many names: more than two side by side, or any after these are settled. -/
def Gathered.Full (g : Gathered) (run : List String) : Prop :=
  g.names ≠ none ∧ run ≠ [] ∨ 2 < run.length

theorem Gathered.Full.addNames {g : Gathered} {run : List String} (h : g.Full run) :
    (g.addNames run).leftover ≠ [] := by
  obtain ⟨names, dryRun, leftover⟩ := g
  cases names with
  | some n =>
    have hne : run ≠ [] := by
      obtain ⟨-, hne⟩ | hlength := h
      · exact hne
      · exact List.ne_nil_of_length_pos (by omega)
    simp [Gathered.addNames, hne]
  | none =>
    obtain ⟨hn, -⟩ | hlength := h
    · exact absurd rfl hn
    · match run, hlength with
      | a :: b :: c :: cs, _ => simp [Gathered.addNames]

theorem Gathered.Full.addLast {g : Gathered} {run : List String} (h : g.Full run)
    (after : List String) : (g.addLast run after).leftover ≠ [] := by
  have hmore : g.Full (run ++ "--" :: after) := by
    obtain ⟨hn, -⟩ | hlength := h
    · exact .inl ⟨hn, by simp⟩
    · exact .inr (by rw [List.length_append]; omega)
  have heq : g.addLast run after = g.addNames (run ++ "--" :: after) := by
    obtain ⟨names, dryRun, leftover⟩ := g
    cases names with
    | some n => rfl
    | none =>
      obtain ⟨hn, -⟩ | hlength := h
      · exact absurd rfl hn
      · match run, hlength with
        | a :: b :: c :: cs, _ => rfl
  rw [heq]
  exact hmore.addNames

theorem Gathers.leftover_ne_nil {g' : Gathered} (h : Gathers g run ss g') (hf : g.Full run) :
    g'.leftover ≠ [] := by
  have hkeep : ∀ {l l' : List String}, l <+: l' → l ≠ [] → l' ≠ [] := by
    rintro l l' hp hne rfl
    exact hne (List.prefix_nil.1 hp)
  induction h with
  | nil g run => exact hf.addNames
  | dashes g run after => exact hf.addLast after
  | name hs h ih =>
    -- one name more is still too many; any other word takes the names, and leaves the rest over
    refine ih ?_
    obtain ⟨hn, -⟩ | hl := hf
    · exact .inl ⟨hn, by simp⟩
    · exact .inr (by rw [List.length_append]; omega)
  | dryRun hs h ih => exact hkeep h.leftover hf.addNames
  | unknown hs h ih => exact hkeep h.leftover (by simp)

/-! ### Requests -/

/-- Once the names are settled, only options follow. -/
theorem Gathers.settled {n : String × Option String} {d : Bool} {g' : Gathered}
    (h : Gathers ⟨some n, d, []⟩ [] ss g') (hl : g'.leftover = []) :
    (∀ w ∈ ss, IsDryRun w) ∧ g' = ⟨some n, d || !ss.isEmpty, []⟩ := by
  induction ss generalizing d with
  | nil =>
    cases h
    exact ⟨by simp, by simp [Gathered.addNames]⟩
  | cons s ss ih =>
    cases h with
    | dashes => simp [Gathered.addLast, Gathered.addNames] at hl
    | name hs h => exact absurd hl (h.leftover_ne_nil (.inl ⟨by simp, by simp⟩))
    | unknown hs h => simpa [hl] using h.leftover
    | dryRun hs h =>
      obtain ⟨hall, rfl⟩ := ih h
      exact ⟨List.forall_mem_cons.2 ⟨hs, hall⟩, by simp⟩

/-- Two names side by side are the input and the output. -/
theorem Gathers.naming_two {input output : String} {d : Bool} {g' : Gathered} (hi : IsName input)
    (ho : IsName output) (h : Gathers ⟨none, d, []⟩ [input, output] ss g') (hl : g'.leftover = []) :
    ∃ r, Naming (input :: output :: ss) r ∧
      g' = ⟨some (r.input, r.output), d || r.dryRun, []⟩ := by
  cases h with
  | nil =>
    exact ⟨_, @Naming.plain _ (some output) [] hi (by simpa using ho) (by simp),
      by simp [Gathered.addNames]⟩
  | dashes _ _ after =>
    obtain rfl : after = [] := by simpa [Gathered.addLast] using hl
    exact ⟨_, .closed hi ho, by simp [Gathered.addLast]⟩
  | name hs h => exact absurd hl (h.leftover_ne_nil (.inr (by simp)))
  | unknown hs h => simpa [hl] using h.leftover
  | dryRun hs h =>
    obtain ⟨hall, rfl⟩ := h.settled hl
    exact ⟨_, @Naming.plain _ (some output) (_ :: _) hi (by simpa using ho)
      (List.forall_mem_cons.2 ⟨hs, hall⟩), by simp⟩

theorem outputName_eq (output : Option String) : outputName output = output.filter (· != "--") := by
  cases output with
  | none => rfl
  | some w => by_cases h : w = "--" <;> simp [outputName, Option.filter, h]

theorem tail_toList (output : Option String) : output.toList.tail = [] := by
  cases output <;> rfl

/-- A list of at most one word is an optional word. -/
theorem exists_option_of_tail {ws : List String} (h : ws.tail = []) :
    ∃ o : Option String, ws = o.toList ∧ ws.head? = o := by
  match ws, h with
  | [], _ => exact ⟨none, rfl, rfl⟩
  | [w], _ => exact ⟨some w, rfl, rfl⟩

/-- A name is the input, and an output may follow it. -/
theorem Gathers.naming_one {input : String} {d : Bool} {g' : Gathered} (hi : IsName input)
    (h : Gathers ⟨none, d, []⟩ [input] ss g') (hl : g'.leftover = []) :
    ∃ r, Naming (input :: ss) r ∧ g' = ⟨some (r.input, r.output), d || r.dryRun, []⟩ := by
  cases h with
  | nil =>
    exact ⟨_, @Naming.plain _ none [] hi (by simp) (by simp),
      by simp [Gathered.addNames]⟩
  | dashes _ _ after =>
    obtain ⟨output, rfl, ho⟩ := exists_option_of_tail (by simpa [Gathered.addLast] using hl)
    exact ⟨_, .between hi output, by simp [Gathered.addLast, ho, outputName_eq, tail_toList]⟩
  | name hs h => exact h.naming_two hi hs hl
  | unknown hs h => simpa [hl] using h.leftover
  | dryRun hs h =>
    obtain ⟨hall, rfl⟩ := h.settled hl
    exact ⟨_, @Naming.plain _ none (_ :: _) hi (by simp)
      (List.forall_mem_cons.2 ⟨hs, hall⟩), by simp⟩

/-- Words from which names are gathered and nothing is left over make a request. -/
theorem Gathers.asks {d : Bool} {g' : Gathered} {n : String × Option String}
    (h : Gathers ⟨none, d, []⟩ [] ss g') (hl : g'.leftover = []) (hn : g'.names = some n) :
    ∃ before names r, ss = before ++ names ∧ (∀ w ∈ before, IsDryRun w) ∧ Naming names r ∧
      g' = ⟨some (r.input, r.output), d || (!before.isEmpty || r.dryRun), []⟩ := by
  induction ss generalizing d with
  | nil =>
    cases h
    cases hn
  | cons s ss ih =>
    cases h with
    | dashes =>
      cases ss with
      | nil => cases hl
      | cons input rest =>
        obtain ⟨output, rfl, ho⟩ := exists_option_of_tail (by simpa [Gathered.addLast] using hl)
        exact ⟨[], _, _, rfl, by simp, .marked input output,
          by simp [Gathered.addLast, ho, outputName_eq, tail_toList]⟩
    | name hs h =>
      obtain ⟨r, hr, rfl⟩ := h.naming_one hs hl
      exact ⟨[], _, r, rfl, by simp, hr, by simp⟩
    | unknown hs h => simpa [hl] using h.leftover
    | dryRun hs h =>
      obtain ⟨before, names, r, rfl, hb, hr, rfl⟩ := ih h
      exact ⟨s :: before, names, r, rfl, List.forall_mem_cons.2 ⟨hs, hb⟩, hr, by simp⟩

/-! ### Requests are gathered -/

theorem gathers_behind {n : String × Option String} {d : Bool} (h : ∀ w ∈ ss, IsDryRun w) :
    Gathers ⟨some n, d, []⟩ [] ss ⟨some n, d || !ss.isEmpty, []⟩ := by
  induction ss generalizing d with
  | nil => simpa [Gathered.addNames] using Gathers.nil ⟨some n, d, []⟩ []
  | cons s ss ih =>
    obtain ⟨hs, hall⟩ := List.forall_mem_cons.1 h
    have hrest := ih (d := true) hall
    rw [Bool.true_or] at hrest
    simpa using @Gathers.dryRun ⟨some n, d, []⟩ _ [] _ _ hs hrest

theorem gathers_before {d : Bool} {before names : List String} {g' : Gathered}
    (hb : ∀ w ∈ before, IsDryRun w)
    (h : Gathers ⟨none, d || !before.isEmpty, []⟩ [] names g') :
    Gathers ⟨none, d, []⟩ [] (before ++ names) g' := by
  induction before generalizing d with
  | nil => simpa using h
  | cons s before ih =>
    obtain ⟨hs, hall⟩ := List.forall_mem_cons.1 hb
    exact .dryRun hs (ih (d := true) hall (by simpa using h))

theorem Naming.gathers {names : List String} {r : Request} (h : Naming names r) (d : Bool) :
    Gathers ⟨none, d, []⟩ [] names ⟨some (r.input, r.output), d || r.dryRun, []⟩ := by
  cases h with
  | @plain input output behind hi ho hb =>
    refine .name hi ?_
    cases output with
    | none =>
      cases behind with
      | nil => simpa [Gathered.addNames] using Gathers.nil ⟨none, d, []⟩ [input]
      | cons s behind =>
        obtain ⟨hs, hall⟩ := List.forall_mem_cons.1 hb
        simpa using @Gathers.dryRun ⟨none, d, []⟩ _ [input] _ _ hs (gathers_behind hall)
    | some output =>
      refine .name (ho output rfl) ?_
      cases behind with
      | nil => simpa [Gathered.addNames] using Gathers.nil ⟨none, d, []⟩ [input, output]
      | cons s behind =>
        obtain ⟨hs, hall⟩ := List.forall_mem_cons.1 hb
        simpa using
          @Gathers.dryRun ⟨none, d, []⟩ _ [input, output] _ _ hs (gathers_behind hall)
  | marked input output =>
    have h := Gathers.dashes ⟨none, d, []⟩ [] (input :: output.toList)
    simpa [Gathered.addLast, outputName_eq, tail_toList] using h
  | @between input hi output =>
    refine .name hi ?_
    simpa [Gathered.addLast, outputName_eq, tail_toList] using
      Gathers.dashes ⟨none, d, []⟩ [input] output.toList
  | @closed input output hi ho =>
    refine .name hi (.name ho ?_)
    simpa [Gathered.addLast] using Gathers.dashes ⟨none, d, []⟩ [input, output] []

/-! ### Help -/

theorem classify_ok_iff (hs : s ≠ "--") : (∃ w, Word.classify s = .ok w) ↔ ¬ Ambiguous s := by
  constructor
  · rintro ⟨w, hw⟩ ha
    obtain ⟨e, he⟩ := classify_of_ambiguous ha
    rw [hw] at he
    cases he
  · intro ha
    cases taken .later hs with
    | name h => exact ⟨_, classify_of_isName h⟩
    | dryRun h => exact ⟨_, classify_of_isDryRun h⟩
    | help h =>
      obtain ⟨spelling, attached, fs, h, -⟩ := classify_of_isHelp h
      exact ⟨_, h⟩
    | misused h =>
      obtain ⟨f, spelling, attached, e, h, -⟩ := classify_of_misused h
      exact ⟨_, h⟩
    | ambiguous h => exact absurd h ha
    | unknown h => exact ⟨_, h⟩

theorem splitWords_cons_ok_iff (hs : s ≠ "--") : (∃ p, splitWords (s :: ss) = .ok p) ↔
    ¬ Ambiguous s ∧ ∃ p, splitWords ss = .ok p := by
  rw [← classify_ok_iff hs, splitWords, if_neg hs]
  cases Word.classify s <;> cases splitWords ss <;> simp [bind, Except.bind, pure, Except.pure]

/-- Words can be told apart unless one of them is ambiguous. -/
theorem splitWords_ok_iff : (∃ p, splitWords ss = .ok p) ↔
    ∀ u ∈ ss.takeWhile (· != "--"), ¬ Ambiguous u := by
  induction ss with
  | nil => exact ⟨fun _ => by simp, fun _ => ⟨_, rfl⟩⟩
  | cons s ss ih =>
    by_cases hs : s = "--"
    · subst hs
      exact ⟨fun _ => by simp, fun _ => ⟨_, rfl⟩⟩
    · rw [splitWords_cons_ok_iff hs, List.takeWhile_cons_of_pos (by simpa using hs),
        List.forall_mem_cons, ih]

theorem readWords_help_iff (h : IsHelp release s) :
    readWords release g run (s :: ss) = .ok none ↔ ∃ p, splitWords ss = .ok p := by
  rw [readWords_help h]
  cases splitWords ss <;> simp [Except.map]

/-- A word that is no option with a value does not stand before a request for help. -/
theorem Asks.cons (hs : s ≠ "--") (hm : ¬ Misused release s) (ha : ¬ Ambiguous s)
    (h : Asks release ss .help) : Asks release (s :: ss) .help := by
  generalize hi : Invocation.help = i at h
  cases h with
  | run => cases hi
  | @help us vs w hu hw hall =>
    refine @Asks.help _ (s :: us) vs w (List.forall_mem_cons.2 ⟨⟨hs, hm⟩, hu⟩) hw ?_
    rw [List.cons_append, List.takeWhile_cons_of_pos (by simpa using hs)]
    exact List.forall_mem_cons.2 ⟨ha, hall⟩

theorem asks_help_of_readWords (h : readWords release g run ss = .ok none) :
    Asks release ss .help := by
  induction ss generalizing g run with
  | nil => cases h
  | cons s ss ih =>
    by_cases hs : s = "--"
    · subst hs
      cases h
    have hambiguous : ¬ Ambiguous s := fun ha => readWords_ambiguous hs ha _ h
    have hmisused : ¬ Misused release s := fun hm => readWords_misused hm _ h
    cases taken release hs with
    | name hn => exact (ih (readWords_name hn ▸ h)).cons hs hmisused hambiguous
    | dryRun hd => exact (ih (readWords_dryRun hd ▸ h)).cons hs hmisused hambiguous
    | unknown hu => exact (ih (readWords_unknown hu ▸ h)).cons hs hmisused hambiguous
    | misused hm => exact absurd hm hmisused
    | ambiguous ha => exact absurd ha hambiguous
    | help hh =>
      refine @Asks.help _ [] ss s (by simp) hh (splitWords_ok_iff.1 ?_)
      rw [List.nil_append, splitWords_cons_ok_iff hs]
      exact ⟨hambiguous, (readWords_help_iff hh).1 h⟩

theorem readWords_of_asks_help {us vs : List String} {w : String}
    (hu : ∀ u ∈ us, u ≠ "--" ∧ ¬ Misused release u) (hw : IsHelp release w)
    (hs : ∃ p, splitWords (us ++ w :: vs) = .ok p) :
    readWords release g run (us ++ w :: vs) = .ok none := by
  induction us generalizing g run with
  | nil =>
    obtain ⟨spelling, attached, fs, hclassify, -⟩ := classify_of_isHelp hw
    have hrest := (splitWords_cons_ok_iff (ne_dashes_of_classify hclassify)).1 hs
    exact (readWords_help_iff hw).2 hrest.2
  | cons u us ih =>
    obtain ⟨⟨hdashes, hmisused⟩, hall⟩ := List.forall_mem_cons.1 hu
    obtain ⟨hambiguous, hrest⟩ := (splitWords_cons_ok_iff hdashes).1 hs
    rw [List.cons_append]
    cases taken release hdashes with
    | name hn => rw [readWords_name hn, ih hall hrest]
    | dryRun hd => rw [readWords_dryRun hd, ih hall hrest]
    | unknown hn => rw [readWords_unknown hn, ih hall hrest]
    | help hh => exact (readWords_help_iff hh).2 hrest
    | misused hm => exact absurd hm hmisused
    | ambiguous ha => exact absurd ha hambiguous

end Reading

/-- The reader takes a command line for what it asks for, and fails if it asks for nothing. -/
theorem ofArguments_eq_ok_iff {release : Release} {arguments : List String} {i : Invocation} :
    Invocation.ofArguments release arguments = .ok i ↔ Asks release arguments i := by
  constructor
  · intro h
    -- what was gathered decides, and its leftover words must be none
    cases hread : readWords release ⟨none, false, []⟩ [] arguments with
    | error e =>
      rw [Invocation.ofArguments, hread] at h
      cases h
    | ok g =>
      rw [Invocation.ofArguments, hread] at h
      match g, h with
      | none, h =>
        cases h
        exact asks_help_of_readWords hread
      | some ⟨none, _, _⟩, h => cases h
      | some ⟨some (input, output), dryRun, leftover⟩, h =>
        have hg := gathers_of_readWords hread
        cases leftover with
        | cons s ss => cases h
        | nil =>
          cases h
          obtain ⟨before, names, r, rfl, hb, hr, heq⟩ := hg.asks rfl rfl
          cases heq
          exact .run hb hr
  · rintro (⟨hb, hr⟩ | ⟨hu, hw, ha⟩)
    · rw [Invocation.ofArguments, readWords_of_gathers (gathers_before hb (hr.gathers _))]
      rfl
    · rw [Invocation.ofArguments, readWords_of_asks_help hu hw (splitWords_ok_iff.2 ha)]
      rfl

end Offside.Command
