import Mathlib.Data.List.Sort
import Uniterm.Model.Runtime.Files
import Uniterm.Model.Utf8

/-! # The file manager

The visible tree of a project and what its keys do. Listings arrive from the runtime for one directory at a time, and
the rows are the walk through the expanded directories. A walk that meets one of its own directories again has no end
and no rows.
-/

namespace Uniterm.Model

open Files

namespace FileManager

inductive FileSort where
  | name
  | recency
deriving DecidableEq, Repr

structure FileEntry where
  name : Text
  path : Text
  isDir : Bool
  isSymlink : Bool
  modifiedMs : Option ℕ
deriving DecidableEq, Repr

structure FileRow where
  path : Text
  name : Text
  depth : ℕ
  isDir : Bool
  isSymlink : Bool
  expanded : Bool
deriving DecidableEq, Repr

inductive PromptKind where
  | file
  | directory
  | rename
deriving DecidableEq, Repr

structure Prompt where
  kind : PromptKind
  buffer : Text
  /-- Creation parent for new entries, or the source path for a rename. -/
  target : Text
deriving DecidableEq, Repr

inductive FileAction where
  | none
  | redraw
  | refresh (directories : List Text)
  | mutate (operation : FileOperation)
  | open (path : Text)
  | copy (text : Text)
  | blur
deriving DecidableEq, Repr

inductive Key where
  | char (c : Char)
  | up
  | down
  | left
  | right
  | enter
  | escape
  | unknown
deriving DecidableEq, Repr

def decodeKey (input : Bytes) : Key :=
  match input with
  | [0x1b, 0x5b, 0x41] => .up
  | [0x1b, 0x5b, 0x42] => .down
  | [0x1b, 0x5b, 0x43] => .right
  | [0x1b, 0x5b, 0x44] => .left
  | [0x1b] | [0x03] => .escape
  | [0x0d] | [0x0a] => .enter
  | [value] => if 0x20 ≤ value ∧ value < 0x7f then .char (Char.ofNat value.toNat) else .unknown
  | _ => .unknown

section Paths

/-- Pieces that stand for no component. -/
def idle (piece : Text) : Bool := piece == [] || piece == ['.']

/-- `Path::parent` as text. -/
def parentPath (path : Text) : Option Text :=
  if path.head? = some '/' then
    let pieces := (path.tail.splitOn '/').rdropWhile idle
    if pieces = [] then none
    else some ('/' :: ['/'].intercalate (pieces.dropLast.rdropWhile idle))
  else
    let pieces := path.splitOn '/'
    let front : List Text := if pieces.head? = some ['.'] then [['.']] else []
    let body := (pieces.drop front.length).rdropWhile idle
    if body = [] then if front = [] then none else some []
    else some (['/'].intercalate (front ++ body.dropLast.rdropWhile idle))

/-- What is left of the pieces behind the components of a base. -/
def stripPieces : List Text → List Text → Option (List Text)
  | pieces, [] => some (pieces.dropWhile idle)
  | pieces, component :: rest =>
    match pieces.dropWhile idle with
    | [] => none
    | piece :: pieces => if piece = component then stripPieces pieces rest else none

/-- `Path::strip_prefix` of absolute paths. -/
def stripRoot (path root : Text) : Option Text :=
  if isAbsolute path = isAbsolute root then
    (stripPieces (path.splitOn '/') (normalized (root.splitOn '/'))).map fun pieces =>
      ['/'].intercalate (pieces.rdropWhile idle)
  else none

end Paths

section Sorting

variable (lowercase : Text → Text)

/-- Folders first, then the newest, then by name without and with its case. -/
def entryLe (sort : FileSort) (a b : FileEntry) : Bool :=
  let age := fun entry : FileEntry => if sort = .recency then entry.modifiedMs else none
  if a.isDir ≠ b.isDir then a.isDir
  else if age a ≠ age b then
    match age a, age b with
    | some newer, some older => decide (older ≤ newer)
    | some _, none => true
    | none, _ => false
  else if lowercase a.name ≠ lowercase b.name then decide (lowercase a.name ≤ lowercase b.name)
  else decide (a.name ≤ b.name)

def sortEntries (sort : FileSort) (entries : List FileEntry) : List FileEntry := entries.mergeSort (entryLe lowercase sort)

end Sorting

/-- The rows of a directory, down to so many levels. -/
def appendRows (listings : List (Text × List FileEntry)) (shows opens : FileEntry → Bool) :
    ℕ → Text → ℕ → Option (List FileRow)
  | 0, _, _ => none
  | levels + 1, directory, depth =>
    match listings.lookup directory with
    | none => some []
    | some entries =>
      ((entries.filter shows).mapM fun entry =>
        let row : FileRow := ⟨entry.path, entry.name, depth, entry.isDir, entry.isSymlink, opens entry⟩
        if opens entry then (appendRows listings shows opens levels entry.path (depth + 1)).map (row :: ·)
        else some [row]).map List.flatten

end FileManager

open FileManager

structure FileManager where
  project : ℕ
  root : Text
  focused : Bool := false
  selected : ℕ := 0
  showHidden : Bool := false
  sort : FileSort := .name
  error : Option Text := none
  viewportFirst : ℕ := 0
  listings : List (Text × List FileEntry) := []
  expanded : List Text := []
  pending : List Text := []
  prompt : Option Prompt := none
  confirmDelete : Bool := false
deriving DecidableEq

namespace FileManager

def new (project : ℕ) (root : Text) : FileManager := { project, root, expanded := [root] }

section Rows

def shows (s : FileManager) (entry : FileEntry) : Bool := s.showHidden || entry.name.head? != some '.'

def opens (s : FileManager) (entry : FileEntry) : Bool := entry.isDir && s.expanded.contains entry.path

/-- The rows, if the walk ends: every directory on its way down is listed and none comes twice. -/
def rows (s : FileManager) : Option (List FileRow) :=
  appendRows s.listings s.shows s.opens (s.listings.length + 1) s.root 0

def clampSelection (s : FileManager) : Option FileManager :=
  s.rows.map fun rows =>
    { s with
      selected := min s.selected (rows.length - 1)
      viewportFirst := min s.viewportFirst (rows.length - 1) }

/-- Without a directory and those below it among the expanded ones. -/
def folded (s : FileManager) (path : Text) : FileManager :=
  { s with expanded := s.expanded.filter fun expanded => expanded ≠ path ∧ ¬ (path ++ ['/']).isPrefixOf expanded }

def collapse (s : FileManager) (path : Text) : Option FileManager := (s.folded path).clampSelection

def unfolded (s : FileManager) (path : Text) : FileManager := { s with expanded := s.expanded.insert path }

end Rows

section Listings

variable (lowercase : Text → Text)

/-- Every listing in another order. -/
def sorted (s : FileManager) (sort : FileSort) : FileManager :=
  { s with sort, listings := s.listings.map fun (directory, entries) => (directory, sortEntries lowercase sort entries) }

def setSort (s : FileManager) (sort : FileSort) : Option FileManager :=
  if s.sort = sort then some s
  else do
    let before ← s.rows
    let sorted := s.sorted lowercase sort
    match before[s.selected]? with
    | some row =>
      let after ← sorted.rows
      return { sorted with selected := (after.findIdx? (·.path = row.path)).getD 0 }
    | none => return sorted

def listingLimit : ℕ := 10000

/-- What a listing brings, or the error in its place. -/
def listed (s : FileManager) (directory : Text) (entries : List FileEntry) (truncated : Bool) (error : Option Text) :
    FileManager :=
  let pending := s.pending.filter (· ≠ directory)
  match error with
  | some error => { s with pending, error := some error }
  | none =>
    { s with
      pending
      listings := (directory, sortEntries lowercase s.sort entries) :: s.listings.filter (·.1 ≠ directory)
      error := if truncated then some s!"Showing the first {listingLimit} entries".toList else none }

def finishListing (s : FileManager) (project : ℕ) (directory : Text) (entries : List FileEntry) (truncated : Bool)
    (error : Option Text) : Option FileManager :=
  if project ≠ s.project then some s
  else do
    let before ← s.rows
    let listed := s.listed lowercase directory entries truncated error
    match before[s.selected]? with
    | some row =>
      let after ← listed.rows
      clampSelection { listed with selected := (after.findIdx? (·.path = row.path)).getD listed.selected }
    | none => listed.clampSelection

end Listings

section Actions

def openSelected (s : FileManager) (rows : List FileRow) (openFile : Bool) : Option (FileAction × FileManager) :=
  match rows[s.selected]? with
  | none => some (.none, s)
  | some row =>
    if ¬ row.isDir then some (if openFile then .open row.path else .none, s)
    else if row.expanded then (s.collapse row.path).map (.redraw, ·)
    else some (.refresh [row.path], s.unfolded row.path)

def creationParent (s : FileManager) (rows : List FileRow) : Text :=
  match rows[s.selected]? with
  | none => s.root
  | some row => if row.isDir then row.path else (parentPath row.path).getD s.root

def relativePath (s : FileManager) (path : Text) : Text :=
  match (stripRoot path s.root).filter (¬ ·.isEmpty) with
  | some relative => relative
  | none => if path = s.root then ['.'] else path

def watchedDirectories (s : FileManager) : List Text := s.expanded.mergeSort (fun a b => decide (a ≤ b))

def selectAt (s : FileManager) (row first count : ℕ) : Option (Option FileRow × FileManager) :=
  if count ≤ row then some (none, s)
  else s.rows.map fun rows =>
    match rows[first + row]? with
    | none => (none, s)
    | some item => (some item, { s with focused := true, selected := first + row })

def openPath (s : FileManager) (path : Text) (isDir : Bool) : Option (FileAction × FileManager) :=
  if ¬ isDir then some (.open path, s)
  else if path ∈ s.expanded then (s.collapse path).map (.redraw, ·)
  else some (.refresh [path], s.unfolded path)

def beginCreate (s : FileManager) (path : Text) (targetIsDir directory : Bool) : FileAction × FileManager :=
  (.redraw, { s with
    focused := true
    prompt := some
      { kind := if directory then .directory else .file
        buffer := []
        target := if targetIsDir then path else (parentPath path).getD s.root } })

def beginRename (s : FileManager) (path name : Text) : FileAction × FileManager :=
  (.redraw, { s with focused := true, prompt := some { kind := .rename, buffer := name, target := path } })

def toggleHidden (s : FileManager) : Option (FileAction × FileManager) :=
  (clampSelection { s with showHidden := !s.showHidden }).map (.redraw, ·)

def click (s : FileManager) (row first count : ℕ) : Option (FileAction × FileManager) :=
  if count ≤ row then some (.none, s)
  else do
    let rows ← s.rows
    if rows.length ≤ first + row then return (.none, s)
    else openSelected { s with focused := true, selected := first + row } rows true

end Actions

section Keys

/-- Characters between words. -/
def wordBreak (c : Char) : Bool := isWhitespace c || c == '/' || c == '-' || c == '_' || c == '.'

def deleteWord (value : Text) : Text := (value.rdropWhile wordBreak).rdropWhile fun c => !wordBreak c

def typeByte (buffer : Text) (byte : UInt8) : Text :=
  if byte = 0x7f ∨ byte = 0x08 then buffer.dropLast
  else if byte = 0x15 then []
  else if 0x20 ≤ byte ∧ byte < 0x7f then buffer ++ [Char.ofNat byte.toNat]
  else buffer

/-- What an answered prompt asks for. -/
def Prompt.operation (prompt : Prompt) : FileOperation :=
  match prompt.kind with
  | .file => .createFile prompt.target prompt.buffer
  | .directory => .createDirectory prompt.target prompt.buffer
  | .rename => .rename prompt.target prompt.buffer

def handlePrompt (s : FileManager) (prompt : Prompt) (input : Bytes) : FileAction × FileManager :=
  if input = [0x1b] ∨ input = [0x03] then (.redraw, { s with prompt := none })
  else if input.head? = some 0x0d ∨ input.head? = some 0x0a then (.mutate prompt.operation, { s with prompt := none })
  else
    let buffer :=
      if [0x1b, 0x7f].isPrefixOf input ∨ [0x1b, 0x08].isPrefixOf input ∨ input = [0x17] then deleteWord prompt.buffer
      else input.foldl typeByte prompt.buffer
    (.redraw, { s with prompt := some { prompt with buffer } })

/-- Keys that confirm a deletion. -/
def confirms (input : Bytes) : Bool :=
  input.head? == some 0x0d || input.head? == some 0x0a || input.head? == some 0x64 || input.head? == some 0x44

def ask (s : FileManager) (kind : PromptKind) (buffer target : Text) : FileManager :=
  { s with prompt := some { kind, buffer, target } }

/-- A key while nothing is asked. -/
def handleKey (s : FileManager) (rows : List FileRow) (key : Key) : Option (FileAction × FileManager) :=
  match key with
  | .escape | .char 'q' => some (.blur, { s with focused := false })
  | .up | .char 'k' => some (.redraw, { s with selected := s.selected - 1 })
  | .down | .char 'j' =>
    some (.redraw, if s.selected + 1 < rows.length then { s with selected := s.selected + 1 } else s)
  | .left | .char 'h' =>
    match rows[s.selected]? with
    | none => some (.none, s)
    | some row =>
      if row.isDir ∧ row.expanded then (s.collapse row.path).map (.redraw, ·)
      else
        let parent := (parentPath row.path).bind fun parent => rows.findIdx? (·.path = parent)
        some (.redraw, { s with selected := parent.getD s.selected })
  | .right | .char 'l' => s.openSelected rows false
  | .enter | .char 'o' => s.openSelected rows true
  | .char 'r' => some (.refresh s.watchedDirectories, s)
  | .char '.' => s.toggleHidden
  | .char 'n' => some (.redraw, s.ask .file [] (s.creationParent rows))
  | .char 'N' => some (.redraw, s.ask .directory [] (s.creationParent rows))
  | .char 'R' =>
    some (.redraw, match rows[s.selected]? with
      | some row => s.ask .rename row.name row.path
      | none => s)
  | .char 'd' => some (.redraw, if rows.isEmpty then s else { s with confirmDelete := true })
  | .char 'y' => some ((rows[s.selected]?).elim .none fun row => .copy row.path, s)
  | .char 'Y' => some ((rows[s.selected]?).elim .none fun row => .copy (s.relativePath row.path), s)
  | _ => some (.none, s)

def handle (s : FileManager) (input : Bytes) : Option (FileAction × FileManager) :=
  match s.prompt with
  | some prompt => some (s.handlePrompt prompt input)
  | none =>
    if s.confirmDelete then
      let disarmed := { s with confirmDelete := false }
      if confirms input then
        s.rows.map fun rows =>
          match rows[s.selected]? with
          | some row => (.mutate (.delete row.path), disarmed)
          | none => (.redraw, disarmed)
      else some (.redraw, disarmed)
    else s.rows.bind fun rows => s.handleKey rows (decodeKey input)

end Keys

section Steps

/-- What reaches the file manager. -/
inductive Op where
  | handle (input : Bytes)
  | click (row first count : ℕ)
  | selectAt (row first count : ℕ)
  | openPath (path : Text) (isDir : Bool)
  | beginCreate (path : Text) (targetIsDir directory : Bool)
  | beginRename (path name : Text)
  | toggleHidden
  | setSort (sort : FileSort)
  | finishListing (project : ℕ) (directory : Text) (entries : List FileEntry) (truncated : Bool) (error : Option Text)
deriving DecidableEq

variable (lowercase : Text → Text)

/-- One operation, with the action it returns. -/
def step (s : FileManager) : Op → Option (FileAction × FileManager)
  | .handle input => s.handle input
  | .click row first count => s.click row first count
  | .selectAt row first count => (s.selectAt row first count).map fun found => (.none, found.2)
  | .openPath path isDir => s.openPath path isDir
  | .beginCreate path targetIsDir directory => some (s.beginCreate path targetIsDir directory)
  | .beginRename path name => some (s.beginRename path name)
  | .toggleHidden => s.toggleHidden
  | .setSort sort => (s.setSort lowercase sort).map (.none, ·)
  | .finishListing project directory entries truncated error =>
    (s.finishListing lowercase project directory entries truncated error).map (.none, ·)

end Steps

end FileManager

end Uniterm.Model
