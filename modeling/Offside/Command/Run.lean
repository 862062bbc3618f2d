import Offside.Command.Console
import Offside.Command.Files
import Offside.Command.Invocation
import Offside.Convert
import Offside.Text.Newlines
import Offside.Text.Utf8

/-!
# The commands

Two commands: one converts a file, the other lists its tokens. Each reads its
arguments and the files it names, and ends with a report: what it printed, and how
it ended. The commands work over any file system and with any console.
-/

namespace Offside.Command

/-- An error that a command does not handle. -/
inductive Crash where
  | noArgument
  | file (error : FileError)
  | decode (error : Text.DecodeError)
  | encode (error : EncodeError)
  | scan (error : ScanError)
deriving DecidableEq, Repr

/-- The error as it is reported. -/
def Crash.message : Crash → String
  | noArgument => "list index out of range"
  | file e => e.message
  | decode e => e.message
  | encode e => e.message
  | scan e => e.message

/-- How a command ends. -/
inductive Ending where
  | exit (status : Nat)
  | crash (error : Crash)
deriving DecidableEq, Repr

/-- What a command printed, and how it ended. -/
structure Report where
  stdout : String
  stderr : String
  ending : Ending
deriving DecidableEq, Repr

/-- End with a message on the error output. -/
def Report.failure (status : Nat) (message : String) : Report :=
  ⟨"", message ++ "\n", .exit status⟩

/-- End well with a text on the output. -/
def Report.success (text : String) : Report := ⟨text ++ "\n", "", .exit 0⟩

/-- End by an error that is not handled. -/
def Report.crashed (printed : String) (error : Crash) : Report := ⟨printed, "", .crash error⟩

/-- Print a text and end well, if the console shows it. That it cannot be encoded is not
handled. -/
def Report.closing (console : Console) (text : String) : Report :=
  match console.fault? text with
  | none => .success text
  | some e => .crashed "" (.encode e)

/-- The text of a file's content, with its line ends made uniform. -/
def decodeSource (content : ByteArray) : Except Text.DecodeError String := do
  return String.ofList (Text.normalizeNewlines (← Text.decodeUtf8 content))

/-! ## Converting a file -/

/-- How the command is called. -/
def usage : String := "usage: main.py [-h] [--dry-run] input [output]"

/-- The explanation of the command. -/
def helpText : String :=
  usage ++ "\n\n"
    ++ "Translate Java code to Python\n\n"
    ++ "positional arguments:\n"
    ++ "  input       Path to the input Java source file.\n"
    ++ "  output      Path to the output Python file. If omitted, prints to stdout.\n\n"
    ++ "options:\n"
    ++ "  -h, --help  show this help message and exit\n"
    ++ "  --dry-run   Print translated code instead of writing to a file."

/-- The report on an input that could not be read. -/
def readFailure (e : FileError) : Report :=
  .failure 1 <| match e.refusal with
    | .noEntry => "Error: Input file '" ++ e.path ++ "' not found."
    | .denied | .notPermitted => "Error: Permission denied reading '" ++ e.path ++ "'."
    | _ => "Error reading '" ++ e.path ++ "': " ++ e.message

/-- The report on an output that could not be written. -/
def writeFailure (e : FileError) : Report :=
  .failure 1 <| match e.refusal with
    | .denied | .notPermitted => "Error: Permission denied writing to '" ++ e.path ++ "'."
    | _ => "Error warning to '" ++ e.path ++ "': " ++ e.message

/-- The report on a source text that could not be converted. -/
def convertFailure (e : ConvertError) : Report :=
  .failure 2 ((if e.isSyntax then "Syntax error in Java code: " else "Translation error: ")
    ++ e.message)

/-- Where the result goes: nowhere but the output, or to a file. -/
def Request.target (r : Request) : Option String := if r.dryRun then none else r.output

/-- What is printed after a file was written. -/
def doneText (input output : String) : String :=
  "Successfully translated '" ++ input ++ "' to '" ++ output ++ "'"

/-- Convert a file. The console is asked last, after the file is written. -/
def runRequest {m : Type → Type} [Monad m] (console : Console) (files : Files m) (r : Request) :
    m Report := do
  match ← files.read r.input with
  | .error e => return readFailure e
  | .ok content =>
    match decodeSource content with
    | .error e => return .crashed "" (.decode e)
    | .ok source =>
      match convert source with
      | .error e => return convertFailure e
      | .ok text =>
        match r.target with
        | none => return .closing console text
        | some path =>
          match ← files.write path text.toUTF8 with
          | .error e => return writeFailure e
          | .ok () => return .closing console (doneText r.input path)

/-- The converting command. -/
def run {m : Type → Type} [Monad m] (release : Release) (console : Console) (files : Files m)
    (arguments : List String) : m Report :=
  match Invocation.ofArguments release arguments with
  | .error e => return .failure 2 (usage ++ "\nmain.py: error: " ++ e.message)
  | .ok .help => return .closing console helpText
  | .ok (.run request) => runRequest console files request

/-! ## Listing the tokens of a file -/

/-- A text filled up with spaces on the left. -/
def padLeft (width : Nat) (s : String) : String :=
  String.ofList (List.replicate (width - s.toList.length) ' ') ++ s

/-- A text filled up with spaces on the right. -/
def padRight (width : Nat) (s : String) : String :=
  s ++ String.ofList (List.replicate (width - s.toList.length) ' ')

/-- The line for the token with number `i`. -/
def tokenLine (i : Nat) (t : Token) : String :=
  padLeft 2 (toString i) ++ ": " ++ padRight 12 t.kind.name ++ " '" ++ t.text ++ "' at "
    ++ toString t.pos

/-- The lines for tokens that are numbered from `i`. -/
def tokenLines : Nat → List Token → List String
  | _, [] => []
  | i, t :: ts => tokenLine i t :: tokenLines (i + 1) ts

/-- The listing command. It handles no error; the tokens before one are printed. -/
def list {m : Type → Type} [Monad m] (console : Console) (files : Files m)
    (arguments : List String) : m Report := do
  match arguments with
  | [] => return .crashed "" .noArgument
  | path :: _ =>
    match ← files.read path with
    | .error e => return .crashed "" (.file e)
    | .ok content =>
      match decodeSource content with
      | .error e => return .crashed "" (.decode e)
      | .ok source =>
        let s := scan source
        match console.printLines ("TOKENS:" :: tokenLines 0 s.tokens), s.error with
        | (printed, some e), _ => return .crashed printed (.encode e)
        | (printed, none), some e => return .crashed printed (.scan e)
        | (printed, none), none => return ⟨printed, "", .exit 0⟩

end Offside.Command
