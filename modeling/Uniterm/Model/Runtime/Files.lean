import Uniterm.Model.Scan
import Uniterm.Posix.Files

/-! # File operations of a project

A client names a path, relative to the project's root or absolute, and the runtime creates, renames or deletes one entry.
It looks the path up and checks it first, and then makes a single call that changes the file system.
-/

namespace Uniterm.Model.Files

open Posix

/-- A mutation of the project's files. -/
inductive FileOperation where
  | createFile (parent name : Text)
  | createDirectory (parent name : Text)
  | rename (path name : Text)
  | delete (path : Text)
deriving DecidableEq, Repr

inductive ErrorKind where
  | permissionDenied
  | invalidInput
  | alreadyExists
deriving DecidableEq, Repr

/-- An `io::Error`: of a lookup, of a check, or of the call that was to change something. -/
inductive Fault where
  | lookup (errno : Errno)
  | check (kind : ErrorKind) (message : String)
  | call (errno : Errno)
deriving DecidableEq, Repr

/-- Errors of the system, as those of a lookup. -/
def looked {α : Type} (found : Except Errno α) : Except Fault α := found.mapError .lookup

section Paths

/-- The components of a path: `.` counts only in front of a relative one. -/
def components (path : Text) : List Text :=
  let pieces := path.splitOn '/'
  let body := pieces.filter fun piece => piece ≠ [] ∧ piece ≠ ['.']
  if path.head? = some '/' then ['/'] :: body
  else if pieces.head? = some ['.'] then ['.'] :: body
  else body

/-- `Path::is_absolute`. -/
def isAbsolute (path : Text) : Bool := path.head? = some '/'

/-- The pieces of a path that is joined to an absolute one. -/
def join (root : Place) (path : Text) : List Text := if isAbsolute path then path.splitOn '/' else root ++ path.splitOn '/'

/-- The components of an absolute path behind its root. -/
def normalized (pieces : List Text) : List Text := pieces.filter fun piece => piece ≠ [] ∧ piece ≠ ['.']

end Paths

section Checks

variable (system : System) (tree : FileTree)

def outside : Fault := .check .permissionDenied "path is outside the Project root"

def safeExistingDirectory (root : Place) (directory : Text) : Except Fault Place := do
  let canonical ← looked (tree.resolve FileTree.maxLinks [] (join root directory))
  if root <+: canonical ∧ tree.node canonical = some .directory then return canonical else throw outside

/-- The directory and the name of an entry. A path that ends with `..` has no name. -/
def safeEntryPath (root : Place) (value : Text) : Except Fault (Place × Text) :=
  match (normalized (join root value)).reverse with
  | [] => .error (.check .invalidInput "path has no parent")
  | name :: above => do
    let parent ← looked (tree.resolve FileTree.maxLinks [] above.reverse)
    if root <+: parent then
      if name = ['.', '.'] then throw (.check .invalidInput "path has no file name") else return (parent, name)
    else throw outside

def validateFileName (name : Text) : Except Fault Text :=
  let name := name.trim
  if name.isEmpty ∨ name = ['.'] ∨ name = ['.', '.'] ∨ (components name).length ≠ 1 ∨ '/' ∈ name then
    .error (.check .invalidInput "enter one file or folder name")
  else .ok name

/-- `Path::try_exists`: whether an entry leads anywhere. -/
def tryExists (place : Place) : Except Fault Bool :=
  match tree.stat place with
  | .ok _ => .ok true
  | .error .notFound => .ok false
  | .error errno => .error (.lookup errno)

/-- The call that is made when every check passes. -/
def checked (root : Text) (operation : FileOperation) : Except Fault Call := do
  let root ← looked (tree.realpath system.working root)
  match operation with
  | .createFile parent name =>
    let parent ← safeExistingDirectory tree root parent
    let name ← validateFileName name
    return .createFile parent name
  | .createDirectory parent name =>
    let parent ← safeExistingDirectory tree root parent
    let name ← validateFileName name
    return .createDirectory parent name
  | .rename path name =>
    let (parent, old) ← safeEntryPath tree root path
    if parent ++ [old] = root then throw (.check .permissionDenied "the Project root cannot be renamed") else
    let name ← validateFileName name
    let taken ← tryExists tree (parent ++ [name])
    if taken then throw (.check .alreadyExists "a file or folder with that name already exists")
    else return .rename parent old name
  | .delete path =>
    let (parent, name) ← safeEntryPath tree root path
    if parent ++ [name] = root then throw (.check .permissionDenied "the Project root cannot be deleted") else
    -- `symlink_metadata` follows no link at the entry itself.
    match ← looked (tree.entry parent name) with
    | .directory => return .removeAll parent name
    | _ => return .removeFile parent name

end Checks

def mutateProjectFile (system : System) (tree : FileTree) (root : Text) (operation : FileOperation) :
    Except Fault Unit × FileTree :=
  match checked system tree root operation with
  | .error fault => (.error fault, tree)
  | .ok call =>
    let (result, next) := system.run call tree
    (result.mapError .call, next)

end Uniterm.Model.Files
