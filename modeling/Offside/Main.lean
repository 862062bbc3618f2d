import Offside.Command.Run

/-!
# The command line

The converting command over the files of the machine.
-/

namespace Offside.Command

/-- The number of an error of the machine, which may come with a minus sign. -/
def errorNumber (n : UInt32) : Nat :=
  if n.toNat < 0x80000000 then n.toNat else UInt32.size - n.toNat

/-- The error of the machine for a path. -/
def FileError.ofMachine (path : String) (e : IO.Error) : FileError :=
  match e with
  | .noFileOrDirectory .. => ⟨.noEntry, path⟩
  | .permissionDenied .. => ⟨.denied, path⟩
  | .inappropriateType _ number wording =>
    if errorNumber number = 20 then ⟨.notDirectory, path⟩
    else if errorNumber number = 21 then ⟨.isDirectory, path⟩
    else ⟨.other (errorNumber number) wording, path⟩
  | e => ⟨.other 5 (toString e), path⟩

/-- The files of the machine. -/
def machineFiles : Files IO where
  read path := do
    try return .ok (← IO.FS.readBinFile path)
    catch e => return .error (.ofMachine path e)
  write path content := do
    try
      IO.FS.writeBinFile path content
      return .ok ()
    catch e => return .error (.ofMachine path e)

/-- Print what a command reports, and give its status. -/
def Report.perform (r : Report) : IO UInt32 := do
  IO.print r.stdout
  IO.eprint r.stderr
  match r.ending with
  | .exit status => return UInt32.ofNat status
  | .crash error =>
    IO.eprintln error.message
    return 1

end Offside.Command

/-- The converting command. -/
def main (arguments : List String) : IO UInt32 := do
  (← Offside.Command.run .later .utf8 Offside.Command.machineFiles arguments).perform
