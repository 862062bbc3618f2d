import Mathlib.Data.List.TakeWhile
import Offside.Command.FileTree
import Offside.Command.Run
import Offside.Proofs.Conversion
import Offside.Proofs.Encoding
import Offside.Proofs.Requests

/-!
# What the converting command does to files

The command is run over any file system that keeps two promises (`Disk`): a path that cannot be
opened for writing leaves all files as they are, and one that can be opened gives its file the
content that is written and no other file another. Trees of files are such a file system
(`FileTree.files_disk`). What it prints goes to any console, which shows some characters and not
others.

There are eight courses that a run can take, each with its own report and its own effect on the
files (`Course`). They are told apart by what the command line asks for (`Asks`), by what stands in
the files, and by the lines of the input (`Uniform`). What is promised about all runs is read off
from them in `run_accounted`: when files change and how, what is printed, and which faults lead to
which ending. A run that is asked for help prints no conversion, dry or not (`run_help_dry`).
-/

namespace Offside.Command

open Lexeme (sign name eof)
open Text (normalizeNewlines decodeUtf8_eq_ok_iff)

variable {σ : Type}

/-! ## File systems -/

/-- A file system with states `σ`. To write, a path is opened first; if it can be opened, its file
gets the content, and the others keep theirs. -/
structure Disk (σ : Type) where
  /-- Where files stand. -/
  Place : Type
  /-- The content of the file at a place. -/
  content? : σ → Place → Option ByteArray
  /-- The content of the file with a path. -/
  read? : σ → String → Except FileError ByteArray
  /-- The place at which a path is opened for writing. -/
  open? : σ → String → Except FileError Place
  /-- Give the file at a place a content. -/
  put : σ → Place → ByteArray → σ
  content?_put : ∀ {s path p}, open? s path = .ok p → ∀ b, content? (put s p b) p = some b
  content?_put_ne : ∀ {p q}, q ≠ p → ∀ s b, content? (put s p b) q = content? s q

/-- The file system as the commands use it. -/
def Disk.files (disk : Disk σ) : Files (StateM σ) where
  read path := do return disk.read? (← get) path
  write path content := do
    match disk.open? (← get) path with
    | .error e => return .error e
    | .ok p =>
      modify (disk.put · p content)
      return .ok ()

theorem Disk.files_write_error {disk : Disk σ} {path : String} {s : σ} {e : FileError}
    (h : disk.open? s path = .error e) (b : ByteArray) :
    disk.files.write path b s = (.error e, s) := by
  show (match disk.open? s path with
    | .error e => pure (.error e)
    | .ok p => do
      modify (disk.put · p b)
      return .ok () : StateM σ (Except FileError Unit)) s = _
  rw [h]
  rfl

theorem Disk.files_write_ok {disk : Disk σ} {path : String} {s : σ} {p : disk.Place}
    (h : disk.open? s path = .ok p) (b : ByteArray) :
    disk.files.write path b s = (.ok (), disk.put s p b) := by
  show (match disk.open? s path with
    | .error e => pure (.error e)
    | .ok p => do
      modify (disk.put · p b)
      return .ok () : StateM σ (Except FileError Unit)) s = _
  rw [h]
  rfl

namespace FileTree

/-- The content of the file at a place of a tree. -/
def content? (t : FileTree) (place : List String) : Option ByteArray :=
  (t.find? place).bind fun e => match e.node with
    | .file content => some content
    | .directory => none

/-- What stands at a place after a file was put somewhere. -/
theorem find?_put (t : FileTree) (place : List String) (content : ByteArray) {other : List String}
    (hne : other ≠ []) : (t.put place content).find? other =
      if other = place then
        some ((t.find? place).elim ⟨place, .file content, .full⟩ ({ · with node := .file content }))
      else t.find? other := by
  have hempty : other.isEmpty = false := by simpa using hne
  unfold put find?
  by_cases hany : t.entries.any (·.place == place) = true
  · -- entries are changed where they stand, and keep their places
    have hplace : ((fun e : Entry => e.place == other) ∘ fun e : Entry =>
        if e.place == place then { e with node := .file content } else e) =
        fun e => e.place == other := by
      funext e
      simp only [Function.comp]
      split <;> rfl
    simp only [hany, hempty, if_true, List.find?_map, hplace]
    by_cases ho : other = place
    · subst ho
      obtain ⟨e, he⟩ := Option.isSome_iff_exists.1 (List.find?_isSome.2 (List.any_eq_true.1 hany))
      have heq : e.place = other := by simpa using List.find?_some he
      simp [he, heq, hempty]
    · cases he : t.entries.find? (·.place == other) with
      | none => simp [ho]
      | some e =>
        have heq : e.place = other := by simpa using List.find?_some he
        simp [ho, heq]
  · simp only [hany, hempty]
    by_cases ho : other = place
    · subst ho
      have hnone : t.entries.find? (·.place == other) = none := by
        simpa using hany
      simp [List.find?_append, hnone, hempty]
    · have hnew : ¬ place = other := fun h => ho h.symm
      simp [List.find?_append, ho, hnew]

theorem ne_nil_of_writable? {t : FileTree} {path : String} {place : List String}
    (h : t.writable? path = .ok place) : place ≠ [] := by
  unfold writable? at h
  split at h
  · cases h
  · simp only at h
    cases hd : t.descend []
        ((((pathParts path).reverse.dropWhile (· == "")).reverse).dropLast ++ ["."]) with
    | error e =>
      rw [hd] at h
      cases h
    | ok here =>
      rw [hd] at h
      simp only [bind, Except.bind] at h
      repeat' split at h
      all_goals cases h
      all_goals simp

theorem content?_put {t : FileTree} {path : String} {place : List String}
    (h : t.writable? path = .ok place) (b : ByteArray) :
    (t.put place b).content? place = some b := by
  rw [content?, find?_put _ _ _ (ne_nil_of_writable? h), if_pos rfl]
  cases t.find? place <;> rfl

theorem content?_put_ne {place other : List String} (hne : other ≠ place) (t : FileTree)
    (b : ByteArray) : (t.put place b).content? other = t.content? other := by
  cases other with
  | nil => rfl
  | cons name names => rw [content?, find?_put _ _ _ (by simp), if_neg hne, content?]

/-- A tree as a file system. -/
def disk : Disk FileTree where
  Place := List String
  content? := content?
  read? t path := (t.read? path).mapError (⟨·, path⟩)
  open? t path := (t.writable? path).mapError (⟨·, path⟩)
  put := put
  content?_put {t path place} h b := by
    cases hw : t.writable? path with
    | error r =>
      rw [hw] at h
      cases h
    | ok p =>
      rw [hw] at h
      cases h
      exact content?_put hw b
  content?_put_ne := content?_put_ne

/-- The file system of a tree is the one that the commands are given. -/
theorem files_disk : disk.files = files := by
  have hwrite : disk.files.write = files.write := by
    funext path content t
    cases hw : t.writable? path with
    | error r =>
      rw [Disk.files_write_error (by show (t.writable? path).mapError _ = _; rw [hw]; rfl)]
      simp only [files, bind, StateT.bind, get, getThe, MonadStateOf.get, StateT.get, pure, hw]
      rfl
    | ok p =>
      rw [Disk.files_write_ok (by show (t.writable? path).mapError _ = _; rw [hw]; rfl)]
      simp only [files, bind, StateT.bind, get, getThe, MonadStateOf.get, StateT.get, pure, hw]
      rfl
  show Files.mk disk.files.read disk.files.write = Files.mk files.read files.write
  rw [hwrite]
  rfl

end FileTree

/-! ## Line ends -/

/-- What ends a line, before the rest of the text. A carriage return before a line feed does not end
a line of its own. -/
inductive LineEnd : List Char → List Char → Prop
  | feed (rest : List Char) : LineEnd ['\n'] rest
  | both (rest : List Char) : LineEnd ['\r', '\n'] rest
  | lone {rest : List Char} (h : rest.head? ≠ some '\n') : LineEnd ['\r'] rest

/-- The second text has the lines of the first, and ends each with a line feed. -/
inductive Uniform : List Char → List Char → Prop
  | last {line : List Char} (h : ∀ c ∈ line, c ≠ '\r' ∧ c ≠ '\n') : Uniform line line
  | line {line close rest lines : List Char} (h : ∀ c ∈ line, c ≠ '\r' ∧ c ≠ '\n')
      (hclose : LineEnd close rest) (hrest : Uniform rest lines) :
      Uniform (line ++ close ++ rest) (line ++ '\n' :: lines)

theorem Uniform.cons {c : Char} {cs ds : List Char} (hc : c ≠ '\r' ∧ c ≠ '\n')
    (h : Uniform cs ds) : Uniform (c :: cs) (c :: ds) := by
  cases h with
  | last h => exact .last (List.forall_mem_cons.2 ⟨hc, h⟩)
  | @line line _ _ _ h hclose hrest =>
    exact Uniform.line (List.forall_mem_cons.2 ⟨hc, h⟩ : ∀ d ∈ c :: line, _) hclose hrest

theorem normalizeNewlines_cons {c : Char} (h : c ≠ '\r') (cs : List Char) :
    normalizeNewlines (c :: cs) = c :: normalizeNewlines cs := by
  rw [normalizeNewlines, if_neg h]
  rintro _ rfl
  exact absurd rfl h

theorem normalizeNewlines_append {line : List Char} (h : ∀ c ∈ line, c ≠ '\r' ∧ c ≠ '\n')
    (rest : List Char) : normalizeNewlines (line ++ rest) = line ++ normalizeNewlines rest := by
  induction line with
  | nil => rfl
  | cons c line ih =>
    obtain ⟨hc, hline⟩ := List.forall_mem_cons.1 h
    rw [List.cons_append, normalizeNewlines_cons hc.1, ih hline, List.cons_append]

theorem normalizeNewlines_lineEnd {close rest : List Char} (h : LineEnd close rest) :
    normalizeNewlines (close ++ rest) = '\n' :: normalizeNewlines rest := by
  cases h with
  | feed => exact normalizeNewlines_cons (by decide) rest
  | both => rfl
  | lone h =>
    rw [List.singleton_append, normalizeNewlines, if_pos rfl]
    rintro tail - rfl
    exact h rfl

theorem uniform_normalizeNewlines (cs : List Char) : Uniform cs (normalizeNewlines cs) := by
  fun_induction normalizeNewlines cs with
  | case1 => exact .last (by simp)
  | case2 cs ih => exact @Uniform.line [] _ _ _ (by simp) (.both cs) ih
  | case3 c cs hcs ih =>
    by_cases hreturn : c = '\r'
    · subst hreturn
      refine @Uniform.line [] _ _ _ (by simp) (.lone fun hfeed => ?_) ih
      obtain ⟨tail, rfl⟩ := List.head?_eq_some_iff.1 hfeed
      exact hcs tail rfl rfl
    rw [if_neg hreturn]
    by_cases hfeed : c = '\n'
    · subst hfeed
      exact @Uniform.line [] _ _ _ (by simp) (.feed cs) ih
    · exact ih.cons ⟨hreturn, hfeed⟩

/-- Line ends are made uniform as they should be, and in one way. -/
theorem uniform_iff {cs ds : List Char} : Uniform cs ds ↔ ds = normalizeNewlines cs := by
  constructor
  · intro h
    induction h with
    | last h => simpa [normalizeNewlines] using (normalizeNewlines_append h []).symm
    | line h hclose hrest ih =>
      rw [List.append_assoc, normalizeNewlines_append h, normalizeNewlines_lineEnd hclose, ih]
  · rintro rfl
    exact uniform_normalizeNewlines cs

/-! ## The courses of a run -/

/-- The text with uniform line ends. -/
def uniform (source : String) : String := String.ofList (normalizeNewlines source.toList)

theorem uniform_toList_iff {source lines : String} :
    Uniform source.toList lines.toList ↔ lines = uniform source := by
  rw [uniform_iff, uniform, ← String.toList_inj, String.toList_ofList]

theorem decodeSource_toUTF8 (source : String) :
    decodeSource source.toUTF8 = .ok (uniform source) := by
  have hdecode : Text.decodeUtf8 source.toUTF8 = .ok source.toList :=
    decodeUtf8_eq_ok_iff.2 (by rw [String.ofList_toList])
  rw [decodeSource, hdecode]
  rfl

/-- A content that is decoded encodes a text, and one that is not encodes none. -/
theorem decodeSource_cases (content : ByteArray) :
    (∃ source : String, content = source.toUTF8) ∨
      ¬ content.IsValidUTF8 ∧ ∃ e, decodeSource content = .error e := by
  cases hd : Text.decodeUtf8 content with
  | ok cs => exact .inl ⟨_, decodeUtf8_eq_ok_iff.1 hd⟩
  | error e =>
    refine .inr ⟨?_, e, ?_⟩
    · intro hvalid
      have hok : Text.decodeUtf8 content = .ok (String.ofByteArray content hvalid).toList :=
        decodeUtf8_eq_ok_iff.2 (by rw [String.ofList_toList]; rfl)
      rw [hd] at hok
      cases hok
    · rw [decodeSource, hd]
      rfl

/-- The courses that a run can take from a state of the files: what the command line asks for, what
is found on the way, and what it ends with. -/
inductive Course (release : Release) (console : Console) (disk : Disk σ) (s : σ)
    (arguments : List String) : Report → σ → Prop
  | misused (ha : ∀ i, ¬ Asks release arguments i) (message : String) :
      Course release console disk s arguments (.failure 2 message) s
  | explained (ha : Asks release arguments .help) :
      Course release console disk s arguments (.closing console helpText) s
  | unreadable {r : Request} {e : FileError} (ha : Asks release arguments (.run r))
      (hr : disk.read? s r.input = .error e) :
      Course release console disk s arguments (readFailure e) s
  | undecodable {r : Request} {content : ByteArray} {e : Text.DecodeError}
      (ha : Asks release arguments (.run r)) (hr : disk.read? s r.input = .ok content)
      (hd : ¬ content.IsValidUTF8) :
      Course release console disk s arguments (.crashed "" (.decode e)) s
  | unconverted {r : Request} {source : String} {e : ConvertError}
      (ha : Asks release arguments (.run r)) (hr : disk.read? s r.input = .ok source.toUTF8)
      (hc : convert (uniform source) = .error e) :
      Course release console disk s arguments (convertFailure e) s
  | printed {r : Request} {source text : String} (ha : Asks release arguments (.run r))
      (hr : disk.read? s r.input = .ok source.toUTF8) (hc : convert (uniform source) = .ok text)
      (ht : r.target = none) :
      Course release console disk s arguments (.closing console text) s
  | unwritable {r : Request} {source text path : String} {e : FileError}
      (ha : Asks release arguments (.run r)) (hr : disk.read? s r.input = .ok source.toUTF8)
      (hc : convert (uniform source) = .ok text) (ht : r.target = some path)
      (ho : disk.open? s path = .error e) :
      Course release console disk s arguments (writeFailure e) s
  | written {r : Request} {source text path : String} {p : disk.Place}
      (ha : Asks release arguments (.run r)) (hr : disk.read? s r.input = .ok source.toUTF8)
      (hc : convert (uniform source) = .ok text) (ht : r.target = some path)
      (ho : disk.open? s path = .ok p) :
      Course release console disk s arguments (.closing console (doneText r.input path))
        (disk.put s p text.toUTF8)

section Runs

variable (release : Release) (console : Console) (disk : Disk σ) (s : σ)

theorem report_apply (report : Report) (s : σ) :
    (pure report : StateM σ Report) s = (report, s) := rfl

/-- A request is met step by step, and the first step that fails ends it. -/
theorem course_runRequest {arguments : List String} {r : Request}
    (ha : Asks release arguments (.run r)) :
    Course release console disk s arguments (runRequest console disk.files r s).1
      (runRequest console disk.files r s).2 := by
  have hread : ∀ k : Except FileError ByteArray → StateM σ Report,
      (disk.files.read r.input >>= k) s = k (disk.read? s r.input) s := fun _ => rfl
  unfold runRequest
  rw [hread]
  cases hr : disk.read? s r.input with
  | error e => exact .unreadable ha hr
  | ok content =>
    rcases decodeSource_cases content with ⟨source, rfl⟩ | ⟨hvalid, e, he⟩
    · simp only [decodeSource_toUTF8]
      cases hc : convert (uniform source) with
      | error e => exact .unconverted ha hr hc
      | ok text =>
        simp only
        cases ht : r.target with
        | none =>
          simp only [report_apply]
          exact .printed ha hr hc ht
        | some path =>
          cases ho : disk.open? s path with
          | error e =>
            simp only [bind, StateT.bind, Disk.files_write_error ho]
            exact .unwritable ha hr hc ht ho
          | ok p =>
            simp only [bind, StateT.bind, Disk.files_write_ok ho, report_apply]
            exact .written ha hr hc ht ho
    · simp only [he]
      exact .undecodable ha hr hvalid

/-- Every run of the command takes one of the courses. -/
theorem course_run (arguments : List String) :
    Course release console disk s arguments (run release console disk.files arguments s).1
      (run release console disk.files arguments s).2 := by
  unfold run
  cases ha : Invocation.ofArguments release arguments with
  | error e =>
    refine .misused (fun i hi => ?_) _
    rw [ofArguments_eq_ok_iff.2 hi] at ha
    cases ha
  | ok invocation =>
    have hasks := ofArguments_eq_ok_iff.1 ha
    cases invocation with
    | help =>
      simp only [report_apply]
      exact .explained hasks
    | run r => exact course_runRequest release console disk s hasks

end Runs

/-! ## What holds of every run -/

/-- The console has all characters of a text. -/
def Console.Shows (console : Console) (text : String) : Prop :=
  ∀ c ∈ text.toList, console.encodes c = true

/-- The text that the command makes of its input: the input can be read, encodes a text, and the
lines of this text are converted. -/
def Disk.Converts (disk : Disk σ) (s : σ) (input text : String) : Prop :=
  ∃ source lines : String, disk.read? s input = .ok source.toUTF8 ∧
    Uniform source.toList lines.toList ∧ convert lines = .ok text

/-- The input cannot be read, or the output cannot be opened for the text that was made. -/
def Disk.Refuses (disk : Disk σ) (s : σ) (r : Request) : Prop :=
  (∃ e, disk.read? s r.input = .error e) ∨
    ∃ text path e, disk.Converts s r.input text ∧ r.output = some path ∧ r.dryRun = false ∧
      disk.open? s path = .error e

/-- The input can be read and encodes a text, the lines of which are not converted. -/
def Disk.Rejects (disk : Disk σ) (s : σ) (r : Request) : Prop :=
  ∃ (source lines : String) (e : ConvertError), disk.read? s r.input = .ok source.toUTF8 ∧
    Uniform source.toList lines.toList ∧ convert lines = .error e

/-- What is printed at the end of a run that does what it is asked for. -/
inductive Disk.Says (disk : Disk σ) (s : σ) : Invocation → String → Prop
  | explained : disk.Says s .help helpText
  | printed {r : Request} {text : String} (hc : disk.Converts s r.input text)
      (hr : r.output = none ∨ r.dryRun = true) : disk.Says s (.run r) text
  | written {r : Request} {text path : String} {p : disk.Place}
      (hc : disk.Converts s r.input text) (hr : r.output = some path) (hd : r.dryRun = false)
      (ho : disk.open? s path = .ok p) : disk.Says s (.run r) (doneText r.input path)

/-- What holds of a run that leads from one state of the files to another. -/
structure Accounted (release : Release) (console : Console) (disk : Disk σ)
    (arguments : List String) (s s' : σ) (report : Report) : Prop where
  /-- Files change only if an output is asked for and no dry run. The run ends well then, unless the
  console does not show that it did. -/
  changed : s' ≠ s → ∃ r path, Asks release arguments (.run r) ∧ r.output = some path ∧
    r.dryRun = false ∧ (report.ending = .exit 0 ∨ ¬ console.Shows (doneText r.input path))
  /-- Then the output holds the text made of the input as it was, and no other file changes. -/
  written : ∀ r path, Asks release arguments (.run r) → r.output = some path → r.dryRun = false →
    report.ending = .exit 0 ∨ s' ≠ s →
      ∃ text p, disk.Converts s r.input text ∧ disk.open? s path = .ok p ∧
        disk.content? s' p = some text.toUTF8 ∧ ∀ q, q ≠ p → disk.content? s' q = disk.content? s q
  /-- Without an output, or in a dry run, the text is printed. -/
  printed : ∀ r, Asks release arguments (.run r) → r.output = none ∨ r.dryRun = true →
    report.ending = .exit 0 → ∃ text, disk.Converts s r.input text ∧ report.stdout = text ++ "\n"
  /-- Where help is asked for, it is printed and no file changes. -/
  explained : Asks release arguments .help → s' = s ∧
    (report.ending = .exit 0 → report.stdout = helpText ++ "\n")
  /-- A run that ends badly leaves all files as they are. -/
  failed : ∀ n, report.ending = .exit n → n ≠ 0 → s' = s ∧ (n = 1 ∨ n = 2)
  /-- A run ends well if there is something to print and the console shows it. -/
  succeeded : report.ending = .exit 0 ↔
    ∃ i text, Asks release arguments i ∧ disk.Says s i text ∧ console.Shows text
  /-- The first bad ending is for files that are refused. -/
  refused : report.ending = .exit 1 ↔ ∃ r, Asks release arguments (.run r) ∧ disk.Refuses s r
  /-- The second is for command lines without a meaning and for texts that are not converted. -/
  rejected : report.ending = .exit 2 ↔ (∀ i, ¬ Asks release arguments i) ∨
    ∃ r, Asks release arguments (.run r) ∧ disk.Rejects s r
  /-- An input that can be read and encodes no text is not handled, nor is a text that the console
  does not show. -/
  crashed : (∃ e, report.ending = .crash e) ↔
    (∃ r content, Asks release arguments (.run r) ∧ disk.read? s r.input = .ok content ∧
      ¬ content.IsValidUTF8) ∨
    ∃ i text, Asks release arguments i ∧ disk.Says s i text ∧ ¬ console.Shows text

theorem Request.target_eq_none {r : Request} :
    r.target = none ↔ r.output = none ∨ r.dryRun = true := by
  unfold Request.target
  cases r.dryRun <;> simp

theorem Request.target_eq_some {r : Request} {path : String} :
    r.target = some path ↔ r.output = some path ∧ r.dryRun = false := by
  unfold Request.target
  cases r.dryRun <;> simp

@[simp] theorem ending_failure (status : Nat) (message : String) :
    (Report.failure status message).ending = .exit status := rfl

@[simp] theorem ending_crashed (printed : String) (error : Crash) :
    (Report.crashed printed error).ending = .crash error := rfl

@[simp] theorem ending_readFailure (e : FileError) : (readFailure e).ending = .exit 1 := rfl

@[simp] theorem ending_writeFailure (e : FileError) : (writeFailure e).ending = .exit 1 := rfl

@[simp] theorem ending_convertFailure (e : ConvertError) :
    (convertFailure e).ending = .exit 2 := rfl

theorem Console.fault?_eq_none_iff {console : Console} {text : String} :
    console.fault? text = none ↔ console.Shows text := by
  rw [Console.Shows, ← List.dropWhile_eq_nil_iff, Console.fault?]
  cases text.toList.dropWhile console.encodes <;> simp

/-- A text ends a run well if the console shows it, and is not handled otherwise. -/
theorem closing_cases (console : Console) (text : String) :
    console.Shows text ∧ Report.closing console text = .success text ∨
      ¬ console.Shows text ∧ ∃ e, Report.closing console text = .crashed "" (.encode e) := by
  rw [← Console.fault?_eq_none_iff]
  unfold Report.closing
  cases console.fault? text with
  | none => exact .inl ⟨rfl, rfl⟩
  | some e => exact .inr ⟨nofun, e, rfl⟩

@[simp] theorem closing_exit_iff {console : Console} {text : String} {n : Nat} :
    (Report.closing console text).ending = .exit n ↔ n = 0 ∧ console.Shows text := by
  obtain ⟨hshows, h⟩ | ⟨hshows, e, h⟩ := closing_cases console text
  · simp [h, hshows, Report.success, eq_comm]
  · simp [h, hshows]

@[simp] theorem closing_crash_iff {console : Console} {text : String} :
    (∃ e, (Report.closing console text).ending = .crash e) ↔ ¬ console.Shows text := by
  obtain ⟨hshows, h⟩ | ⟨hshows, e, h⟩ := closing_cases console text
  · simp [h, hshows, Report.success]
  · simp [h, hshows]

theorem closing_stdout {console : Console} {text : String}
    (h : (Report.closing console text).ending = .exit 0) :
    (Report.closing console text).stdout = text ++ "\n" := by
  obtain ⟨-, hclosing⟩ | ⟨hshows, -⟩ := closing_cases console text
  · rw [hclosing]
    rfl
  · exact absurd (closing_exit_iff.1 h).2 hshows

/-- A command line asks for one thing. -/
theorem Asks.iff_eq {release : Release} {arguments : List String} {i j : Invocation}
    (h : Asks release arguments i) : Asks release arguments j ↔ i = j := by
  rw [← ofArguments_eq_ok_iff, ofArguments_eq_ok_iff.2 h, Except.ok.injEq]

/-- What an input that encodes a text is converted to is decided by that text. -/
theorem Disk.converts_iff {disk : Disk σ} {s : σ} {input source : String}
    (hr : disk.read? s input = .ok source.toUTF8) {text : String} :
    disk.Converts s input text ↔ convert (uniform source) = .ok text := by
  constructor
  · rintro ⟨other, lines, ho, hlines, hc⟩
    rw [hr] at ho
    obtain rfl : source = other := String.toByteArray_inj.1 (Except.ok.inj ho)
    rwa [uniform_toList_iff.1 hlines] at hc
  · exact fun hc => ⟨source, _, hr, uniform_toList_iff.2 rfl, hc⟩

theorem Disk.rejects_iff {disk : Disk σ} {s : σ} {r : Request} {source : String}
    (hr : disk.read? s r.input = .ok source.toUTF8) :
    disk.Rejects s r ↔ ∃ e, convert (uniform source) = .error e := by
  constructor
  · rintro ⟨other, lines, e, ho, hlines, hc⟩
    rw [hr] at ho
    obtain rfl : source = other := String.toByteArray_inj.1 (Except.ok.inj ho)
    exact ⟨e, by rwa [uniform_toList_iff.1 hlines] at hc⟩
  · exact fun ⟨e, hc⟩ => ⟨source, _, e, hr, uniform_toList_iff.2 rfl, hc⟩

theorem Disk.refuses_iff {disk : Disk σ} {s : σ} {r : Request} {source : String}
    (hr : disk.read? s r.input = .ok source.toUTF8) :
    disk.Refuses s r ↔ ∃ text path e, convert (uniform source) = .ok text ∧
      r.target = some path ∧ disk.open? s path = .error e := by
  simp [Disk.Refuses, Disk.converts_iff hr, Request.target_eq_some, hr, and_assoc]

theorem Disk.says_help_iff {disk : Disk σ} {s : σ} {text : String} :
    disk.Says s .help text ↔ text = helpText := by
  constructor
  · rintro ⟨⟩
    rfl
  · rintro rfl
    exact .explained

theorem Disk.says_run_iff {disk : Disk σ} {s : σ} {r : Request} {text : String} :
    disk.Says s (.run r) text ↔ ∃ made, disk.Converts s r.input made ∧
      (r.target = none ∧ text = made ∨
        ∃ path p, r.target = some path ∧ disk.open? s path = .ok p ∧
          text = doneText r.input path) := by
  constructor
  · intro h
    cases h with
    | printed hc hr => exact ⟨_, hc, .inl ⟨Request.target_eq_none.2 hr, rfl⟩⟩
    | written hc hr hd ho => exact ⟨_, hc, .inr ⟨_, _, Request.target_eq_some.2 ⟨hr, hd⟩, ho, rfl⟩⟩
  · rintro ⟨made, hc, ⟨ht, rfl⟩ | ⟨path, p, ht, ho, rfl⟩⟩
    · exact .printed hc (Request.target_eq_none.1 ht)
    · exact .written hc (Request.target_eq_some.1 ht).1 (Request.target_eq_some.1 ht).2 ho

/-- Nothing is made of an input that encodes no text or cannot be read. -/
theorem Disk.not_converts {disk : Disk σ} {s : σ} {input : String}
    (h : ∀ source : String, disk.read? s input ≠ .ok source.toUTF8) (text : String) :
    ¬ disk.Converts s input text :=
  fun ⟨source, _, hr, _⟩ => h source hr

theorem Disk.not_rejects {disk : Disk σ} {s : σ} {r : Request}
    (h : ∀ source : String, disk.read? s r.input ≠ .ok source.toUTF8) : ¬ disk.Rejects s r :=
  fun ⟨source, _, _, hr, _⟩ => h source hr

theorem Disk.read?_ne_of_error {disk : Disk σ} {s : σ} {input : String} {e : FileError}
    (hr : disk.read? s input = .error e) (source : String) :
    disk.read? s input ≠ .ok source.toUTF8 := by
  rw [hr]
  exact nofun

theorem Disk.read?_ne_of_invalid {disk : Disk σ} {s : σ} {input : String} {content : ByteArray}
    (hr : disk.read? s input = .ok content) (hv : ¬ content.IsValidUTF8) (source : String) :
    disk.read? s input ≠ .ok source.toUTF8 := by
  rw [hr]
  rintro ⟨⟩
  exact hv source.isValidUTF8

section Courses

variable {release : Release} {console : Console} {disk : Disk σ} {s s' : σ}
  {arguments : List String} {report : Report}

theorem Course.refused (h : Course release console disk s arguments report s') :
    report.ending = .exit 1 ↔ ∃ r, Asks release arguments (.run r) ∧ disk.Refuses s r := by
  cases h with
  | misused ha => simp [ha]
  | explained ha => simp [ha.iff_eq]
  | unreadable ha hr => simp [ha.iff_eq, hr, Disk.Refuses]
  | undecodable ha hr hv =>
    simp [ha.iff_eq, Disk.Refuses, hr, Disk.not_converts (Disk.read?_ne_of_invalid hr hv)]
  | unconverted ha hr hc => simp [ha.iff_eq, Disk.refuses_iff hr, hc]
  | printed ha hr hc ht => simp [ha.iff_eq, Disk.refuses_iff hr, ht]
  | unwritable ha hr hc ht ho => simp [ha.iff_eq, Disk.refuses_iff hr, hc, ht, ho]
  | written ha hr hc ht ho => simp [ha.iff_eq, Disk.refuses_iff hr, ht, ho]

theorem Course.rejected (h : Course release console disk s arguments report s') :
    report.ending = .exit 2 ↔ (∀ i, ¬ Asks release arguments i) ∨
      ∃ r, Asks release arguments (.run r) ∧ disk.Rejects s r := by
  cases h with
  | misused ha => simp [ha]
  | explained ha => simp [ha.iff_eq]
  | unreadable ha hr => simp [ha.iff_eq, hr, Disk.Rejects]
  | undecodable ha hr hv => simp [ha.iff_eq, Disk.not_rejects (Disk.read?_ne_of_invalid hr hv)]
  | unconverted ha hr hc => simp [ha.iff_eq, Disk.rejects_iff hr, hc]
  | printed ha hr hc ht => simp [ha.iff_eq, Disk.rejects_iff hr, hc]
  | unwritable ha hr hc ht ho => simp [ha.iff_eq, Disk.rejects_iff hr, hc]
  | written ha hr hc ht ho => simp [ha.iff_eq, Disk.rejects_iff hr, hc]

theorem Course.succeeded (h : Course release console disk s arguments report s') :
    report.ending = .exit 0 ↔
      ∃ i text, Asks release arguments i ∧ disk.Says s i text ∧ console.Shows text := by
  cases h with
  | misused ha => simp [ha]
  | explained ha => simp [ha.iff_eq, Disk.says_help_iff]
  | unreadable ha hr =>
    simp [ha.iff_eq, Disk.says_run_iff, Disk.not_converts (Disk.read?_ne_of_error hr)]
  | undecodable ha hr hv =>
    simp [ha.iff_eq, Disk.says_run_iff, Disk.not_converts (Disk.read?_ne_of_invalid hr hv)]
  | unconverted ha hr hc => simp [ha.iff_eq, Disk.says_run_iff, Disk.converts_iff hr, hc]
  | printed ha hr hc ht => simp [ha.iff_eq, Disk.says_run_iff, Disk.converts_iff hr, hc, ht]
  | unwritable ha hr hc ht ho =>
    simp [ha.iff_eq, Disk.says_run_iff, Disk.converts_iff hr, hc, ht, ho]
  | written ha hr hc ht ho => simp [ha.iff_eq, Disk.says_run_iff, Disk.converts_iff hr, hc, ht, ho]

theorem Course.crashed (h : Course release console disk s arguments report s') :
    (∃ e, report.ending = .crash e) ↔
      (∃ r content, Asks release arguments (.run r) ∧ disk.read? s r.input = .ok content ∧
        ¬ content.IsValidUTF8) ∨
      ∃ i text, Asks release arguments i ∧ disk.Says s i text ∧ ¬ console.Shows text := by
  cases h with
  | misused ha => simp [ha]
  | explained ha => simp [ha.iff_eq, Disk.says_help_iff]
  | unreadable ha hr =>
    simp [ha.iff_eq, Disk.says_run_iff, hr, Disk.not_converts (Disk.read?_ne_of_error hr)]
  | undecodable ha hr hv => simp [ha.iff_eq, hr, hv]
  | unconverted ha hr hc =>
    simp [ha.iff_eq, Disk.says_run_iff, Disk.converts_iff hr, hr, hc, String.isValidUTF8]
  | printed ha hr hc ht =>
    simp [ha.iff_eq, Disk.says_run_iff, Disk.converts_iff hr, hr, hc, ht, String.isValidUTF8]
  | unwritable ha hr hc ht ho =>
    simp [ha.iff_eq, Disk.says_run_iff, Disk.converts_iff hr, hr, hc, ht, ho, String.isValidUTF8]
  | written ha hr hc ht ho =>
    simp [ha.iff_eq, Disk.says_run_iff, Disk.converts_iff hr, hr, hc, ht, ho, String.isValidUTF8]

theorem Course.status (h : Course release console disk s arguments report s') {n : Nat}
    (hend : report.ending = .exit n) : n = 0 ∨ n = 1 ∨ n = 2 := by
  cases h with
  | explained | printed | written => exact .inl (closing_exit_iff.1 hend).1
  | _ => cases hend <;> decide

/-- Only a request for a conversion changes files. -/
theorem Course.eq_or_asks (h : Course release console disk s arguments report s') :
    s' = s ∨ ∃ r, Asks release arguments (.run r) := by
  cases h with
  | written ha => exact .inr ⟨_, ha⟩
  | _ => exact .inl rfl

theorem Course.explains (h : Course release console disk s arguments report s')
    (ha : Asks release arguments .help) : s' = s ∧ report = .closing console helpText := by
  cases h with
  | misused ha' => exact absurd ha (ha' _)
  | explained => exact ⟨rfl, rfl⟩
  | unreadable ha' | undecodable ha' | unconverted ha'
  | printed ha' | unwritable ha' | written ha' => cases ha'.iff_eq.1 ha

/-- A request that is met ends with its text, printed or written. -/
theorem Course.met (h : Course release console disk s arguments report s') {r : Request}
    (ha : Asks release arguments (.run r)) (hend : report.ending = .exit 0 ∨ s' ≠ s) :
    ∃ text, disk.Converts s r.input text ∧
      (r.target = none ∧ s' = s ∧ report = .closing console text ∨
        ∃ path p, r.target = some path ∧ disk.open? s path = .ok p ∧
          s' = disk.put s p text.toUTF8 ∧ report = .closing console (doneText r.input path)) := by
  cases h with
  | misused ha' => exact absurd ha (ha' _)
  | explained ha' => cases ha'.iff_eq.1 ha
  | printed ha' hr hc ht =>
    cases ha'.iff_eq.1 ha
    exact ⟨_, (Disk.converts_iff hr).2 hc, .inl ⟨ht, rfl, rfl⟩⟩
  | written ha' hr hc ht ho =>
    cases ha'.iff_eq.1 ha
    exact ⟨_, (Disk.converts_iff hr).2 hc, .inr ⟨_, _, ht, ho, rfl, rfl⟩⟩
  | unreadable | undecodable | unconverted | unwritable =>
    -- the files are as they were, and the ending is none of the good ones
    obtain hexit | hne := hend
    · cases hexit
    · exact absurd rfl hne

end Courses

/-- Whatever the command line and the files are, a run of the command is accounted for: files
change only when they should and as they should, and every fault has its own ending. -/
theorem run_accounted (release : Release) (console : Console) (disk : Disk σ)
    (arguments : List String) (s : σ) :
    Accounted release console disk arguments s (run release console disk.files arguments s).2
      (run release console disk.files arguments s).1 := by
  have hcourse := course_run release console disk s arguments
  revert hcourse
  generalize run release console disk.files arguments s = outcome
  intro hcourse
  refine ⟨?_, ?_, ?_, ?_, ?_, hcourse.succeeded, hcourse.refused, hcourse.rejected,
    hcourse.crashed⟩
  · intro hne
    obtain ⟨r, ha⟩ := hcourse.eq_or_asks.resolve_left hne
    obtain ⟨text, -, ⟨-, heq, -⟩ | ⟨path, p, ht, -, -, hreport⟩⟩ := hcourse.met ha (.inr hne)
    · exact absurd heq hne
    · obtain ⟨hpath, hdry⟩ := Request.target_eq_some.1 ht
      refine ⟨r, path, ha, hpath, hdry, ?_⟩
      rw [hreport, closing_exit_iff]
      by_cases hshows : console.Shows (doneText r.input path)
      · exact .inl ⟨rfl, hshows⟩
      · exact .inr hshows
  · intro r path ha hpath hdry hend
    have ht : r.target = some path := Request.target_eq_some.2 ⟨hpath, hdry⟩
    obtain ⟨text, hconverts, ⟨hnone, -⟩ | ⟨path', p, ht', ho, hput, -⟩⟩ := hcourse.met ha hend
    · rw [ht] at hnone
      cases hnone
    · rw [ht] at ht'
      cases ht'
      rw [hput]
      exact ⟨text, p, hconverts, ho, disk.content?_put ho _,
        fun q hq => disk.content?_put_ne hq s _⟩
  · intro r ha hnone hend
    have ht : r.target = none := Request.target_eq_none.2 hnone
    obtain ⟨text, hconverts, ⟨-, -, hreport⟩ | ⟨path, p, ht', -⟩⟩ := hcourse.met ha (.inl hend)
    · rw [hreport] at hend ⊢
      exact ⟨text, hconverts, closing_stdout hend⟩
    · rw [ht] at ht'
      cases ht'
  · intro ha
    obtain ⟨heq, hreport⟩ := hcourse.explains ha
    refine ⟨heq, fun hend => ?_⟩
    rw [hreport] at hend ⊢
    exact closing_stdout hend
  · intro n hend hn
    refine ⟨?_, (hcourse.status hend).resolve_left hn⟩
    -- had a file changed, the run would have ended well or not been handled
    by_contra hne
    obtain ⟨r, ha⟩ := hcourse.eq_or_asks.resolve_left hne
    obtain ⟨text, -, ⟨-, heq, -⟩ | ⟨path, p, -, -, -, hreport⟩⟩ := hcourse.met ha (.inr hne)
    · exact hne heq
    · rw [hreport, closing_exit_iff] at hend
      exact hn hend.1

/-! ## A file that is converted -/

/-- A tree with one file, the line of which ends with a carriage return and a line feed. -/
def FileTree.single : FileTree := ⟨[⟨["a.java"], .file "int x=5;\r\n".toUTF8, .full⟩]⟩

theorem FileTree.converts_single {text : String} :
    disk.Converts single "a.java" text ↔ text = "x = 5\n" := by
  have hread : disk.read? single "a.java" = .ok "int x=5;\r\n".toUTF8 := by rfl
  have hlexemes : lexemesOf? none "int x=5;\n".toList =
      some [sign .intType, name "x", sign .assign, ⟨.number, "5"⟩, sign .semicolon, eof] := by
    rw [lexemesOf?_eq_within]
    decide +kernel
  have hdeclare : Statement.Spelled .full (.declare ⟨"x", "5", "int"⟩)
      [sign .intType, name "x", sign .assign, ⟨.number, "5"⟩, sign .semicolon] :=
    .declare (k := .intType) (by decide) "x" (v := ⟨.number, "5"⟩) (by decide)
  have hconvert : convert "int x=5;\n" = .ok "x = 5\n" :=
    convert_eq_ok_iff.2 ⟨_, _, hlexemes,
      ⟨false, _, [], rfl, .cons hdeclare .nil, Grammar.passable_nil _ _⟩, rfl⟩
  have huniform : uniform "int x=5;\r\n" = "int x=5;\n" := by decide
  rw [Disk.converts_iff hread, huniform, hconvert, Except.ok.injEq, eq_comm]

/-- A run that writes a file, and one that would but for the dry run. -/
theorem run_accounted_single :
    (Accounted .later .utf8 FileTree.disk ["a.java", "b.py"] .single
        (run .later .utf8 FileTree.disk.files ["a.java", "b.py"] .single).2
        (run .later .utf8 FileTree.disk.files ["a.java", "b.py"] .single).1 ∧
      (run .later .utf8 FileTree.disk.files ["a.java", "b.py"] .single).1.ending = .exit 0 ∧
      (run .later .utf8 FileTree.disk.files ["a.java", "b.py"] .single).2.content? ["b.py"] =
        some "x = 5\n".toUTF8) ∧
    Accounted .later .utf8 FileTree.disk ["--dry-run", "a.java", "b.py"] .single
        (run .later .utf8 FileTree.disk.files ["--dry-run", "a.java", "b.py"] .single).2
        (run .later .utf8 FileTree.disk.files ["--dry-run", "a.java", "b.py"] .single).1 ∧
      (run .later .utf8 FileTree.disk.files ["--dry-run", "a.java", "b.py"] .single).1.ending =
        .exit 0 ∧
      (run .later .utf8 FileTree.disk.files ["--dry-run", "a.java", "b.py"] .single).2 = .single ∧
      (run .later .utf8 FileTree.disk.files ["--dry-run", "a.java", "b.py"] .single).1.stdout =
        "x = 5\n\n" := by
  have hconverts : FileTree.disk.Converts .single "a.java" "x = 5\n" :=
    FileTree.converts_single.2 rfl
  have hopen : FileTree.disk.open? .single "b.py" = .ok ["b.py"] := by rfl
  have hshows : ∀ text, Console.utf8.Shows text := fun _ _ _ => rfl
  have hnaming : Naming ["a.java", "b.py"] ⟨"a.java", some "b.py", false⟩ :=
    @Naming.plain "a.java" (some "b.py") [] (.bare (by decide))
      (by rintro w ⟨⟩; exact .bare (by decide)) (by simp)
  constructor
  · have hasks : Asks .later ["a.java", "b.py"] (.run ⟨"a.java", some "b.py", false⟩) :=
      @Asks.run .later [] _ _ (by simp) hnaming
    have haccounted := run_accounted .later .utf8 FileTree.disk ["a.java", "b.py"] .single
    have hend := haccounted.succeeded.2
      ⟨_, _, hasks, .written hconverts rfl rfl hopen, hshows _⟩
    obtain ⟨text, p, htext, hp, hcontent, -⟩ :=
      haccounted.written _ _ hasks rfl rfl (.inl hend)
    rw [FileTree.converts_single] at htext
    rw [hopen] at hp
    cases htext
    cases hp
    exact ⟨haccounted, hend, hcontent⟩
  · have hdry : ∀ w ∈ ["--dry-run"], IsDryRun w := by
      simp only [List.mem_singleton, forall_eq]
      exact ⟨by decide, List.prefix_refl _⟩
    have hasks : Asks .later ["--dry-run", "a.java", "b.py"]
        (.run ⟨"a.java", some "b.py", true⟩) := .run hdry hnaming
    have haccounted :=
      run_accounted .later .utf8 FileTree.disk ["--dry-run", "a.java", "b.py"] .single
    have hend := haccounted.succeeded.2
      ⟨_, _, hasks, .printed hconverts (.inr rfl), hshows _⟩
    obtain ⟨text, htext, hout⟩ := haccounted.printed _ hasks (.inr rfl) hend
    cases FileTree.converts_single.1 htext
    refine ⟨haccounted, hend, ?_, hout⟩
    by_contra hne
    obtain ⟨r, path, hr, -, hlive, -⟩ := haccounted.changed hne
    cases hasks.iff_eq.1 hr
    cases hlive

/-- Help is given in a dry run too, and then the conversion is not printed. -/
theorem run_help_dry :
    (run .later .utf8 FileTree.disk.files ["--dry-run", "a.java", "-h"] .single).1.ending =
      .exit 0 ∧
    ∃ text, FileTree.disk.Converts .single "a.java" text ∧
      (run .later .utf8 FileTree.disk.files ["--dry-run", "a.java", "-h"] .single).1.stdout ≠
        text ++ "\n" := by
  have hasks : Asks .later ["--dry-run", "a.java", "-h"] .help :=
    ofArguments_eq_ok_iff.1 (by decide)
  obtain ⟨-, hreport⟩ := (course_run .later .utf8 FileTree.disk .single _).explains hasks
  have hend : (Report.closing .utf8 helpText).ending = .exit 0 :=
    closing_exit_iff.2 ⟨rfl, fun _ _ => rfl⟩
  rw [hreport]
  refine ⟨hend, _, FileTree.converts_single.2 rfl, ?_⟩
  rw [closing_stdout hend]
  decide

end Offside.Command
