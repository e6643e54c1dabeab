import Mathlib.Data.List.Infix

/-! # File systems with symbolic links

A file system is a tree of files, directories and symbolic links. Every place is named from the root without links.
Looking up a path follows links up to a limit; the calls that change an entry take it by its directory and its name and
follow no link there.
-/

namespace Uniterm.Posix

abbrev FileName := List Char

/-- The names from the root to an entry. -/
abbrev Place := List FileName

inductive Node where
  | file (content : List Char)
  | directory
  | link (target : List Char)
deriving DecidableEq, Repr

/-- What the name of an entry may be. -/
def Entitled (name : FileName) : Prop :=
  name ≠ [] ∧ name ≠ ['.'] ∧ name ≠ ['.', '.'] ∧ '/' ∉ name ∧ '\x00' ∉ name

instance (name : FileName) : Decidable (Entitled name) := inferInstanceAs (Decidable (_ ∧ _))

/-- Entries are in directories. -/
structure FileTree where
  node : Place → Option Node
  root : node [] = some .directory
  closed : ∀ place name, (node (place ++ [name])).isSome → node place = some .directory
  entitled : ∀ place name, (node (place ++ [name])).isSome → Entitled name

inductive Errno where
  | notFound
  | notDirectory
  | isDirectory
  | exists
  | tooManyLinks
  | invalid
  | refused
deriving DecidableEq, Repr

namespace FileTree

section Lookup

/-- Go on from a directory along the pieces of a path. What is left of it behind a link is handed on. -/
def walk (tree : FileTree) (follow : Place → List FileName → Except Errno Place) :
    Place → List FileName → Except Errno Place
  | place, [] => .ok place
  | place, piece :: rest =>
    if tree.node place ≠ some .directory then .error .notDirectory
    else if piece = [] ∨ piece = ['.'] then tree.walk follow place rest
    else if piece = ['.', '.'] then tree.walk follow place.dropLast rest
    else
      match tree.node (place ++ [piece]) with
      | none => .error .notFound
      | some (.link target) =>
        if target = [] then .error .notFound
        else follow (if target.head? = some '/' then [] else place) (target.splitOn '/' ++ rest)
      | some _ => tree.walk follow (place ++ [piece]) rest

/-- Follow a path through at most so many links. -/
def resolve (tree : FileTree) : ℕ → Place → List FileName → Except Errno Place
  | 0 => tree.walk fun _ _ => .error .tooManyLinks
  | links + 1 => tree.walk (tree.resolve links)

def maxLinks : ℕ := 40

/-- `realpath`, from the working directory. -/
def realpath (tree : FileTree) (working : Place) (path : List Char) : Except Errno Place :=
  if path = [] then .error .notFound
  else tree.resolve maxLinks (if path.head? = some '/' then [] else working) (path.splitOn '/')

/-- `lstat`: an entry of a directory, itself and not what it leads to. -/
def entry (tree : FileTree) (place : Place) (name : FileName) : Except Errno Node :=
  if tree.node place = some .directory then
    match tree.node (place ++ [name]) with
    | none => .error .notFound
    | some node => .ok node
  else .error .notDirectory

/-- `stat`: the place that an entry leads to. -/
def stat (tree : FileTree) (place : Place) : Except Errno Place := tree.resolve maxLinks [] place

end Lookup

section Reached

variable {tree : FileTree}

theorem entry_eq_ok {place : Place} {name : FileName} {node : Node} :
    tree.entry place name = .ok node ↔ tree.node (place ++ [name]) = some node := by
  rw [entry]
  constructor
  · intro looked
    split_ifs at looked
    split at looked
    · contradiction
    · next found =>
      rw [found, Except.ok.inj looked]
  · intro found
    rw [if_pos (tree.closed _ _ (Option.isSome_of_eq_some found)), found]

theorem entry_isSome {place : Place} {name : FileName} {node : Node} (looked : tree.entry place name = .ok node) :
    (tree.node (place ++ [name])).isSome := Option.isSome_of_eq_some (entry_eq_ok.mp looked)

/-- An entry that is no link. -/
def Real (tree : FileTree) (place : Place) : Prop := ∃ node, tree.node place = some node ∧ ∀ target, node ≠ .link target

theorem real_directory {place : Place} (is_directory : tree.node place = some .directory) : tree.Real place :=
  ⟨_, is_directory, nofun⟩

theorem directory_above {place : Place} {below : List FileName} (some_below : below ≠ [])
    (found : (tree.node (place ++ below)).isSome) : tree.node place = some .directory := by
  induction below using List.reverseRecOn with
  | nil => exact absurd rfl some_below
  | append_singleton below name ih =>
    rw [← List.append_assoc] at found
    have parent := tree.closed _ _ found
    by_cases last : below = []
    · rwa [last, List.append_nil] at parent
    · exact ih last (Option.isSome_of_eq_some parent)

/-- The names of an entry that is no link lead to it. -/
theorem walk_place {follow : Place → List FileName → Except Errno Place} {names : List FileName} : ∀ {place : Place},
    tree.Real (place ++ names) → tree.walk follow place names = .ok (place ++ names) := by
  induction names with
  | nil =>
    intro place real
    rw [walk, List.append_nil]
  | cons name rest ih =>
    intro place real
    have ends : place ++ name :: rest = place ++ [name] ++ rest := by simp
    obtain ⟨node, found, no_link⟩ := real
    have here : tree.Real (place ++ [name]) := by
      cases rest with
      | nil => exact ⟨node, found, no_link⟩
      | cons next more =>
        rw [ends] at found
        exact real_directory (directory_above (List.cons_ne_nil _ _) (Option.isSome_of_eq_some found))
    have is_directory := directory_above (List.cons_ne_nil _ _) (Option.isSome_of_eq_some found)
    obtain ⟨child, child_found, child_real⟩ := here
    obtain ⟨some_name, no_dot, no_dots, -⟩ := tree.entitled _ _ (Option.isSome_of_eq_some child_found)
    rw [walk, if_neg (not_not.mpr is_directory), if_neg (by simp [some_name, no_dot]), if_neg no_dots, child_found]
    rw [ends] at found ⊢
    have goes_on := ih ⟨node, found, no_link⟩
    cases child with
    | link target => exact absurd rfl (child_real target)
    | file content => exact goes_on
    | directory => exact goes_on

theorem stat_real {place : Place} (real : tree.Real place) : tree.stat place = .ok place := by
  have from_root : tree.Real ([] ++ place) := real
  exact walk_place from_root

end Reached

section Updates

theorem not_below (place : Place) (name : FileName) : ¬ place ++ [name] <+: place := fun within => by
  have shorter := within.length_le
  rw [List.length_append, List.length_singleton] at shorter
  omega

/-- A root without entries. -/
def bare : FileTree where
  node place := if place = [] then some .directory else none
  root := rfl
  closed place name found := by simp at found
  entitled place name found := by simp at found

variable (tree : FileTree) (place : Place) (name : FileName)

/-- A new entry without entries of its own. -/
def insert (node : Node) (is_directory : tree.node place = some .directory)
    (free : tree.node (place ++ [name]) = none) (entitled : Entitled name) : FileTree where
  node other := if other = place ++ [name] then some node else tree.node other
  root := by
    rw [if_neg (by simp)]
    exact tree.root
  closed other child found := by
    split_ifs at found with here
    · obtain ⟨rfl, -⟩ := List.append_inj' here rfl
      rw [if_neg (by simp)]
      exact is_directory
    · have parent := tree.closed other child found
      split_ifs with same
      · subst same
        rw [free] at parent
        contradiction
      · exact parent
  entitled other child found := by
    split_ifs at found with here
    · obtain ⟨-, same⟩ := List.append_inj' here rfl
      rw [List.singleton_inj] at same
      rwa [same]
    · exact tree.entitled other child found

/-- Take an entry away with everything below it. -/
def remove : FileTree where
  node other := if place ++ [name] <+: other then none else tree.node other
  root := by
    rw [if_neg (by simp)]
    exact tree.root
  closed other child found := by
    split_ifs at found with below
    · contradiction
    · rw [if_neg fun within => below (within.trans (List.prefix_append _ _))]
      exact tree.closed other child found
  entitled other child found := by
    split_ifs at found with below
    · contradiction
    · exact tree.entitled other child found

/-- Rename an entry within its directory, with everything below it. What had the name before is gone. -/
def move (old : FileName) (found : (tree.node (place ++ [old])).isSome) (entitled : Entitled name) : FileTree where
  node other :=
    if place ++ [name] <+: other then tree.node (place ++ [old] ++ other.drop (place ++ [name]).length)
    else if place ++ [old] <+: other then none
    else tree.node other
  root := by
    rw [if_neg (by simp), if_neg (by simp)]
    exact tree.root
  closed other child found' := by
    by_cases within : place ++ [name] <+: other
    · obtain ⟨rest, rfl⟩ := within
      rw [if_pos ⟨rest ++ [child], by simp⟩, List.append_assoc (place ++ [name]), List.drop_left,
        ← List.append_assoc] at found'
      rw [if_pos (List.prefix_append _ _), List.drop_left]
      exact tree.closed _ _ found'
    · rw [if_neg within]
      split_ifs at found' with below gone
      · -- The new entry itself stands in the directory.
        obtain ⟨rest, same⟩ := below
        cases rest using List.reverseRecOn with
        | nil =>
          rw [List.append_nil] at same
          obtain ⟨rfl, -⟩ := List.append_inj' same rfl
          rw [if_neg (not_below place old)]
          exact tree.closed place old found
        | append_singleton rest last =>
          rw [← List.append_assoc] at same
          obtain ⟨same, -⟩ := List.append_inj' same rfl
          exact absurd ⟨rest, same⟩ within
      · contradiction
      · rw [if_neg fun above => gone (above.trans (List.prefix_append _ _))]
        exact tree.closed other child found'
  entitled other child found' := by
    split_ifs at found' with below gone
    · obtain ⟨rest, same⟩ := below
      cases rest using List.reverseRecOn with
      | nil =>
        rw [List.append_nil] at same
        obtain ⟨-, same⟩ := List.append_inj' same rfl
        rw [List.singleton_inj] at same
        rwa [← same]
      | append_singleton rest last =>
        rw [← same, List.drop_left, ← List.append_assoc] at found'
        rw [← List.append_assoc] at same
        obtain ⟨-, same⟩ := List.append_inj' same rfl
        rw [List.singleton_inj] at same
        rw [← same]
        exact tree.entitled _ _ found'
    · contradiction
    · exact tree.entitled other child found'

end Updates

end FileTree

section Calls

/-- The calls that change one entry. -/
inductive Call where
  /-- `open` for a file that must be new. -/
  | createFile (place : Place) (name : FileName)
  | createDirectory (place : Place) (name : FileName)
  | rename (place : Place) (old new : FileName)
  | removeFile (place : Place) (name : FileName)
  /-- A directory and everything below it, following no link. -/
  | removeAll (place : Place) (name : FileName)
deriving DecidableEq, Repr

namespace FileTree

/-- A new entry takes a free name in a directory. -/
def create (tree : FileTree) (place : Place) (name : FileName) (node : Node) : Except Errno FileTree :=
  if is_directory : tree.node place = some .directory then
    if free : tree.node (place ++ [name]) = none then
      if entitled : Entitled name then .ok (tree.insert place name node is_directory free entitled)
      else .error .invalid
    else .error .exists
  else .error .notDirectory

/-- What a call does that the system does not refuse. -/
def perform (tree : FileTree) : Call → Except Errno FileTree
  | .createFile place name => tree.create place name (.file [])
  | .createDirectory place name => tree.create place name .directory
  | .rename place old new =>
    match found : tree.entry place old with
    | .error errno => .error errno
    | .ok moved =>
      if entitled : Entitled new then
        match tree.node (place ++ [new]) with
        | none => .ok (tree.move place new old (entry_isSome found) entitled)
        -- An empty directory makes room for a directory; here every directory stays.
        | some .directory => .error .exists
        | some _ =>
          if moved = .directory then .error .notDirectory
          else .ok (tree.move place new old (entry_isSome found) entitled)
      else .error .invalid
  | .removeFile place name =>
    match tree.entry place name with
    | .error errno => .error errno
    | .ok .directory => .error .isDirectory
    | .ok _ => .ok (tree.remove place name)
  | .removeAll place name =>
    match tree.entry place name with
    | .error errno => .error errno
    | .ok .directory => .ok (tree.remove place name)
    | .ok _ => .error .notDirectory

end FileTree

/-- What else a system decides: which calls it refuses, and what such a call leaves. -/
structure System where
  working : Place := []
  refuses : Call → FileTree → Option FileTree := fun _ _ => none

/-- Make a call. -/
def System.run (system : System) (call : Call) (tree : FileTree) : Except Errno Unit × FileTree :=
  match system.refuses call tree with
  | some left => (.error .refused, left)
  | none =>
    match tree.perform call with
    | .ok next => (.ok (), next)
    | .error errno => (.error errno, tree)

end Calls

end Uniterm.Posix
