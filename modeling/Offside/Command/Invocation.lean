import Offside.Text.Digit
import Offside.Text.Quoted

/-!
# Invocations

What the words of a command line ask for. Words that start with a dash are options,
which may be shortened as long as they stay unambiguous; the others name the input
and the output. Input and output are taken together, from the first words that
stand side by side: an option after the input settles that there is no output. The
word `--` ends the options. This is what `parse_args` finds for a command with the
arguments `input`, `output` and `--dry-run`.
-/

namespace Offside.Command

/-! ## Options -/

/-- An option of the command. -/
inductive Flag where
  | help
  | dryRun
deriving DecidableEq, Repr

/-- The spellings of all options. -/
def Flag.spellings : List (String × Flag) :=
  [("-h", .help), ("--help", .help), ("--dry-run", .dryRun)]

/-- The option of a spelling. -/
def Flag.ofSpelling? (s : String) : Option Flag := spellings.lookup s

/-- All spellings of an option, as errors name it. -/
def Flag.title (f : Flag) : String :=
  String.intercalate "/" ((spellings.filter (·.2 == f)).map (·.1))

/-- Why a command line asks for nothing that can be done. -/
inductive UsageError where
  | missingInput
  /-- Words that have no meaning. -/
  | unrecognized (words : List String)
  /-- A value was given to an option that takes none. -/
  | ignoredValue (flag : Flag) (value : String)
  /-- A shortened option that could be any of several. -/
  | ambiguous (word : String) (spellings : List String)
deriving DecidableEq, Repr

/-- The error as it is reported. -/
def UsageError.message : UsageError → String
  | missingInput => "the following arguments are required: input"
  | unrecognized words => "unrecognized arguments: " ++ String.intercalate " " words
  | ignoredValue flag value =>
    "argument " ++ flag.title ++ ": ignored explicit argument " ++ Text.quote value
  | ambiguous word spellings =>
    "ambiguous option: " ++ word ++ " could match " ++ String.intercalate ", " spellings

/-! ## Words -/

/-- A text that is attached to an option. -/
structure Attached where
  /-- Whether an equals sign stands before it. -/
  assigned : Bool
  text : List Char
deriving DecidableEq, Repr

/-- What a word of the command line is. -/
inductive Word where
  /-- A name. -/
  | plain (text : String)
  /-- An option, how it is spelled, and what is attached to it. -/
  | flag (flag : Flag) (spelling : String) (attached : Option Attached)
  /-- A word that looks like an option and is none. -/
  | unknown (text : String)
deriving DecidableEq, Repr

/-- A word before and after its first equals sign. -/
def splitEquals (cs : List Char) : Option (List Char × List Char) :=
  match cs.dropWhile (· != '=') with
  | [] => none
  | _ :: value => some (cs.takeWhile (· != '='), value)

/-- A minus sign and a whole or decimal number. -/
def isNegative : List Char → Bool
  | '-' :: digits =>
    match digits.dropWhile Text.isDecimal with
    | [] => !digits.isEmpty
    | '.' :: fraction => !fraction.isEmpty && fraction.all Text.isDecimal
    | _ => false
  | _ => false

/-- A minus sign and a number. A line feed may end it. -/
def isNegativeNumber (cs : List Char) : Bool :=
  isNegative (if cs.getLast? = some '\n' then cs.dropLast else cs)

/-- The options that a word may be short for, each with what is attached to it. After
two dashes any beginning of a spelling will do, and a text is attached by an equals
sign. After one dash the option is one letter, and the rest is attached directly. -/
def candidates (cs : List Char) : List (String × Flag × Option Attached) :=
  match cs with
  | '-' :: '-' :: _ =>
    let (name, attached) : List Char × Option Attached := match splitEquals cs with
      | some (name, value) => (name, some ⟨true, value⟩)
      | none => (cs, none)
    (Flag.spellings.filter fun s => name.isPrefixOf s.1.toList).map fun s =>
      (s.1, s.2, attached)
  | _ =>
    (Flag.spellings.filter fun s => s.1.toList == cs.take 2).map fun s =>
      (s.1, s.2, some ⟨false, cs.drop 2⟩)

/-- The option that a word spells out before its first equals sign. -/
def assigned? (cs : List Char) : Option Word :=
  (splitEquals cs).bind fun p =>
    (Flag.ofSpelling? (String.ofList p.1)).map fun f =>
      .flag f (String.ofList p.1) (some ⟨true, p.2⟩)

/-- A word with a dash that is short for no option: a name if it is a number or has a
space. -/
def Word.other (s : String) : Word :=
  if isNegativeNumber s.toList || s.toList.contains ' ' then .plain s else .unknown s

/-- A word that may be short for some options. -/
def Word.ofCandidates (s : String) : List (String × Flag × Option Attached) → Except UsageError Word
  | [(spelling, f, attached)] => .ok (.flag f spelling attached)
  | [] => .ok (.other s)
  | several => .error (.ambiguous s (several.map (·.1)))

/-- What a word is, before `--`. -/
def Word.classify (s : String) : Except UsageError Word :=
  let cs := s.toList
  if cs.head? ≠ some '-' then .ok (.plain s)
  else
    match Flag.ofSpelling? s with
    | some f => .ok (.flag f s none)
    | none =>
      if cs.length = 1 then .ok (.plain s)
      else
        match assigned? cs with
        | some w => .ok w
        | none => Word.ofCandidates s (candidates cs)

/-- The words before `--`, and those after it if it is there. -/
def splitWords : List String → Except UsageError (List Word × Option (List String))
  | [] => .ok ([], none)
  | s :: ss =>
    if s = "--" then .ok ([], some ss)
    else do
      let w ← Word.classify s
      let (ws, rest) ← splitWords ss
      return (w :: ws, rest)

/-! ## Requests -/

/-- What the command is to do. -/
structure Request where
  input : String
  output : Option String
  dryRun : Bool
deriving DecidableEq, Repr

/-- What a command line asks for. -/
inductive Invocation where
  | help
  | run (request : Request)
deriving DecidableEq, Repr

/-- What has been gathered from the words so far: the input and output once they are
settled, and the words without meaning. -/
structure Gathered where
  names : Option (String × Option String)
  dryRun : Bool
  leftover : List String
deriving DecidableEq, Repr

/-- Readers of options differ in how they take what is attached to a one-letter
option, and there are two releases of them. -/
inductive Release where
  /-- Letters are options in turn, also after an equals sign. From the first that is no
  option, they are a value. -/
  | earlier
  /-- Letters are options in turn, but what follows an equals sign is a value, and so is
  what starts with a dash. Other letters that are no options are left over. -/
  | later
deriving DecidableEq, Repr

/-- The options that a one-letter option `f` and the letters attached to it stand
for. No option takes a value. What the later release leaves over is not kept: the only
one-letter option asks for help, which is given before anything left over is reported. -/
def cluster (release : Release) (f : Flag) : List Char → Except UsageError (List Flag)
  | [] => .ok [f]
  | c :: cs =>
    match Flag.ofSpelling? (String.ofList ['-', c]) with
    | some g =>
      if release = .later ∧ cs.head? = some '=' then
        .error (.ignoredValue g (String.ofList cs.tail))
      else (cluster release g cs).map (f :: ·)
    | none =>
      if release = .earlier ∨ c = '-' then .error (.ignoredValue f (String.ofList (c :: cs)))
      else .ok [f]

/-- The options that one word stands for. Only a one-letter option can be followed by
others, and an empty text attached to it is a value too. -/
def flagsOf (release : Release) (f : Flag) (spelling : String) (attached : Option Attached) :
    Except UsageError (List Flag) :=
  match attached with
  | none => .ok [f]
  | some a =>
    if a.text.isEmpty || spelling.toList[1]? == some '-' || (a.assigned && release == .later) then
      .error (.ignoredValue f (String.ofList a.text))
    else cluster release f a.text

/-- Take a run of names that stand side by side. -/
def Gathered.addNames (g : Gathered) (names : List String) : Gathered :=
  match g.names, names with
  | none, input :: rest =>
    { g with names := some (input, rest.head?), leftover := g.leftover ++ rest.drop 1 }
  | _, names => { g with leftover := g.leftover ++ names }

/-- An output called `--` counts as none. -/
def outputName (s : Option String) : Option String := if s = some "--" then none else s

/-- Take the last run of names, `before` and `after` the word `--`. That word is passed
over where it stands next to a name that is taken, and is left over otherwise. -/
def Gathered.addLast (g : Gathered) (before after : List String) : Gathered :=
  match g.names, before, after with
  | none, [], [] => { g with leftover := g.leftover ++ ["--"] }
  | none, [], input :: rest =>
    { g with names := some (input, outputName rest.head?),
             leftover := g.leftover ++ rest.drop 1 }
  | none, [input], after =>
    { g with names := some (input, outputName after.head?),
             leftover := g.leftover ++ after.drop 1 }
  | none, [input, output], after =>
    { g with names := some (input, some output), leftover := g.leftover ++ after }
  | _, before, after => g.addNames (before ++ "--" :: after)

/-- Gather all words. `run` is the run of names directly before them. Help is given as
soon as it is asked for, which is the answer `none`. -/
def gather (release : Release) (g : Gathered) (run : List String) (rest : Option (List String)) :
    List Word → Except UsageError (Option Gathered)
  | [] =>
    match rest with
    | none => .ok (some (g.addNames run))
    | some after => .ok (some (g.addLast run after))
  | .plain s :: ws => gather release g (run ++ [s]) rest ws
  | .unknown s :: ws =>
    let g := g.addNames run
    gather release { g with leftover := g.leftover ++ [s] } [] rest ws
  | .flag f spelling attached :: ws => do
    let g := g.addNames run
    let flags ← flagsOf release f spelling attached
    if flags.contains .help then return none
    else gather release { g with dryRun := true } [] rest ws

/-- Gather the words of a command line. -/
def readWords (release : Release) (g : Gathered) (run : List String) (arguments : List String) :
    Except UsageError (Option Gathered) := do
  let (words, rest) ← splitWords arguments
  gather release g run rest words

/-- What the gathered words ask for. That the input is missing is reported before words
that are left over. -/
def Invocation.ofGathered : Option Gathered → Except UsageError Invocation
  | none => .ok .help
  | some ⟨none, _, _⟩ => .error .missingInput
  | some ⟨some (input, output), dryRun, leftover⟩ =>
    if leftover.isEmpty then .ok (.run ⟨input, output, dryRun⟩)
    else .error (.unrecognized leftover)

/-- What a command line asks for. -/
def Invocation.ofArguments (release : Release) (arguments : List String) :
    Except UsageError Invocation := do
  Invocation.ofGathered (← readWords release ⟨none, false, []⟩ [] arguments)

end Offside.Command
