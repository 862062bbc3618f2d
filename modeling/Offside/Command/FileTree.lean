import Offside.Command.Files

/-!
# File trees

A tree of directories and files, with what the user may do with each. Paths are
read from the top of the tree, one part after the other. Every part but the last
must be a directory that the user may search.
-/

namespace Offside.Command

/-- What the user may do with a file or directory. -/
inductive Access where
  | full
  /-- Reading and searching only. -/
  | readOnly
  | none
deriving DecidableEq, Repr

/-- What stands at a place of a tree. -/
inductive Node where
  | file (content : ByteArray)
  | directory

/-- Files are compared by their bytes. -/
instance : DecidableEq Node
  | .file a, .file b => decidable_of_iff (a.data = b.data) (by simp [ByteArray.ext_iff])
  | .directory, .directory => .isTrue rfl
  | .file _, .directory => .isFalse nofun
  | .directory, .file _ => .isFalse nofun

/-- A place of a tree, by the names that lead to it, and what stands there. -/
structure Entry where
  place : List String
  node : Node
  access : Access
deriving DecidableEq

/-- A tree of files. The top is a directory that is not listed. -/
structure FileTree where
  entries : List Entry
deriving DecidableEq

/-- The parts of a path between slashes. -/
def splitPath : List Char → List (List Char)
  | [] => [[]]
  | c :: cs =>
    if c = '/' then [] :: splitPath cs
    else match splitPath cs with
      | [] => [[c]]
      | p :: ps => (c :: p) :: ps

/-- The parts of a path. -/
def pathParts (path : String) : List String := (splitPath path.toList).map String.ofList

namespace FileTree

/-- What stands at a place. -/
def find? (t : FileTree) (place : List String) : Option Entry :=
  if place.isEmpty then some ⟨[], .directory, .full⟩
  else t.entries.find? (·.place == place)

/-- The place that parts lead to from `here`. Before each part, the place reached so
far must be a directory that may be searched. -/
def descend (t : FileTree) (here : List String) : List String → Except Refusal (List String)
  | [] => .ok here
  | part :: parts =>
    match t.find? here with
    | none => .error .noEntry
    | some e =>
      match e.node, e.access with
      | .file _, _ => .error .notDirectory
      | .directory, .none => .error .denied
      | .directory, _ =>
        if part = "" ∨ part = "." then t.descend here parts
        else if part = ".." then t.descend here.dropLast parts
        else t.descend (here ++ [part]) parts

/-- The content of the file at a path. -/
def read? (t : FileTree) (path : String) : Except Refusal ByteArray :=
  if path = "" then .error .noEntry
  else do
    let place ← t.descend [] (pathParts path)
    match t.find? place with
    | none => .error .noEntry
    | some ⟨_, _, .none⟩ => .error .denied
    | some ⟨_, .directory, _⟩ => .error .isDirectory
    | some ⟨_, .file content, _⟩ => .ok content

/-- The tree with `content` in the file at `place`. -/
def put (t : FileTree) (place : List String) (content : ByteArray) : FileTree :=
  if t.entries.any (·.place == place) then
    ⟨t.entries.map fun e => if e.place == place then { e with node := .file content } else e⟩
  else ⟨t.entries ++ [⟨place, .file content, .full⟩]⟩

/-- The place at which a file of this path is written. A path that ends with a slash
or with dots is that of a directory. -/
def writable? (t : FileTree) (path : String) : Except Refusal (List String) :=
  if path = "" then .error .noEntry
  else do
    let parts := pathParts path
    let named := (parts.reverse.dropWhile (· == "")).reverse
    let name := named.getLast?.getD "."
    let here ← t.descend [] (named.dropLast ++ ["."])
    if named.length < parts.length ∨ name = "." ∨ name = ".." then .error .isDirectory
    else
      match t.find? (here ++ [name]) with
      | some ⟨_, .directory, _⟩ => .error .isDirectory
      | some ⟨_, .file _, .full⟩ => .ok (here ++ [name])
      | some ⟨_, .file _, _⟩ => .error .denied
      | none =>
        if (t.find? here).any (·.access == .full) then .ok (here ++ [name])
        else .error .denied

/-- The files that `after` has and `before` has not, or not with that content. -/
def changes (before after : FileTree) : List (List String × ByteArray) :=
  after.entries.filterMap fun e =>
    match e.node with
    | .directory => none
    | .file content =>
      if (before.find? e.place).any (·.node == .file content) then none
      else some (e.place, content)

/-- A tree as a file system whose state is the tree. -/
def files : Files (StateM FileTree) where
  read path := do return (← get).read? path |>.mapError (⟨·, path⟩)
  write path content := do
    match (← get).writable? path with
    | .error r => return .error ⟨r, path⟩
    | .ok place =>
      modify (·.put place content)
      return .ok ()

end FileTree

end Offside.Command
