import Offside.Text.Quoted

/-!
# Files

What the commands ask of a file system: to read a file and to write one. Either can
be refused, for a reason that has a number and a wording.
-/

namespace Offside.Command

/-- Why a file could not be opened. -/
inductive Refusal where
  /-- There is no such file, or no directory to hold it. -/
  | noEntry
  /-- The user may not change this. -/
  | notPermitted
  /-- The user may not open this. -/
  | denied
  /-- A part of the path is a file and not a directory. -/
  | notDirectory
  /-- The path is that of a directory. -/
  | isDirectory
  /-- Any other reason, by its number and wording. -/
  | other (number : Nat) (wording : String)
deriving DecidableEq, Repr

/-- The number of a refusal. -/
def Refusal.number : Refusal → Nat
  | noEntry => 2
  | notPermitted => 1
  | denied => 13
  | notDirectory => 20
  | isDirectory => 21
  | other number _ => number

/-- The wording of a refusal. -/
def Refusal.wording : Refusal → String
  | noEntry => "No such file or directory"
  | notPermitted => "Operation not permitted"
  | denied => "Permission denied"
  | notDirectory => "Not a directory"
  | isDirectory => "Is a directory"
  | other _ wording => wording

/-- A path that could not be opened. -/
structure FileError where
  refusal : Refusal
  path : String
deriving DecidableEq, Repr

/-- The error as it is reported. -/
def FileError.message (e : FileError) : String :=
  "[Errno " ++ toString e.refusal.number ++ "] " ++ e.refusal.wording ++ ": "
    ++ Text.quote e.path

/-- A file system, as far as the commands use one. -/
structure Files (m : Type → Type) where
  /-- The content of a file. -/
  read : String → m (Except FileError ByteArray)
  /-- Give a file a content, and create it if it is not there. -/
  write : String → ByteArray → m (Except FileError Unit)

end Offside.Command
