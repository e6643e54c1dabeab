import Uniterm.Model.Runtime.Files

/-! # Operations stay inside the project

Every check follows links, so the directory of an entry is known by its real place. The changing calls take the entry
itself. Only the check of a new name follows a link where the rename that it guards does not.
-/

namespace Uniterm.Model.Files

open Posix

variable {system : System} {tree tree' : FileTree} {place : Place} {name old new : Text} {call : Call}

section Effects

/-- One entry is new. -/
def Created (tree tree' : FileTree) (place : Place) (name : Text) (node : Node) : Prop :=
  tree.node (place ++ [name]) = none ∧
    ∀ other, tree'.node other = if other = place ++ [name] then some node else tree.node other

/-- One entry has another name, which none had before. -/
def Renamed (tree tree' : FileTree) (place : Place) (old new : Text) : Prop :=
  (tree.node (place ++ [old])).isSome ∧ tree.node (place ++ [new]) = none ∧
    ∀ other, tree'.node other =
      if place ++ [new] <+: other then tree.node (place ++ [old] ++ other.drop (place ++ [new]).length)
      else if place ++ [old] <+: other then none
      else tree.node other

/-- One entry is gone with what was below it; below a link there is nothing. -/
def Removed (tree tree' : FileTree) (place : Place) (name : Text) : Prop :=
  (tree.node (place ++ [name])).isSome ∧
    (∀ other, tree'.node other = if place ++ [name] <+: other then none else tree.node other) ∧
    ∀ target, tree.node (place ++ [name]) = some (.link target) →
      ∀ other ≠ place ++ [name], tree'.node other = tree.node other

/-- The directory that a path leads to. -/
def Leads (tree : FileTree) (root : Place) (path : Text) (place : Place) : Prop :=
  tree.resolve FileTree.maxLinks [] (join root path) = .ok place

/-- The entry that a path names: its last component, in the directory that the components before it lead to. -/
def Names (tree : FileTree) (root : Place) (path : Text) (place : Place) (name : Text) : Prop :=
  ∃ above, normalized (join root path) = above ++ [name] ∧ tree.resolve FileTree.maxLinks [] above = .ok place

/-- What an operation may do in a directory: it changes the entry that its paths name. -/
def Changes (tree tree' : FileTree) (root place : Place) : FileOperation → Prop
  | .createFile parent name => Leads tree root parent place ∧ Created tree tree' place name.trim (.file [])
  | .createDirectory parent name => Leads tree root parent place ∧ Created tree tree' place name.trim .directory
  | .rename path name => ∃ old, Names tree root path place old ∧ Renamed tree tree' place old name.trim
  | .delete path => ∃ name, Names tree root path place name ∧ Removed tree tree' place name

/-- One entry of a directory inside the root changed, and the root and the directories above it did not. -/
def Confined (tree tree' : FileTree) (root : Place) (operation : FileOperation) : Prop :=
  (∃ place, root <+: place ∧ tree.node place = some .directory ∧ Changes tree tree' root place operation) ∧
    ∀ above, above <+: root → tree'.node above = tree.node above

/-- An operation that succeeds is confined to the root, and one that a lookup or a check rejects changes nothing. -/
def Safe (system : System) (tree : FileTree) (root : Text) (operation : FileOperation) : Prop :=
  match mutateProjectFile system tree root operation with
  | (.ok (), tree') => ∃ there, tree.realpath system.working root = .ok there ∧ Confined tree tree' there operation
  | (.error (.call _), _) => True
  | (.error _, tree') => tree' = tree

/-- A rename takes the name of a link that leads nowhere, and the system lets it. -/
def ReplacesLink (system : System) (tree : FileTree) (root : Text) : FileOperation → Prop
  | .rename path name => ∃ there place old new target node, tree.realpath system.working root = .ok there ∧
      safeEntryPath tree there path = .ok (place, old) ∧ validateFileName name = .ok new ∧
      tree.node (place ++ [new]) = some (.link target) ∧ tree.stat (place ++ [new]) = .error .notFound ∧
      tree.node (place ++ [old]) = some node ∧ node ≠ .directory ∧ system.refuses (.rename place old new) tree = none
  | _ => False

end Effects

section Checks

private theorem bind_eq_ok {α β : Type} {x : Except Fault α} {f : α → Except Fault β} {b : β} :
    (x >>= f) = .ok b ↔ ∃ a, x = .ok a ∧ f a = .ok b := by
  cases x with
  | error fault => exact iff_of_false nofun (fun ⟨_, found, _⟩ => nomatch found)
  | ok a =>
    constructor
    · exact fun goes => ⟨a, rfl, goes⟩
    · rintro ⟨_, found, goes⟩
      rwa [Except.ok.inj found]

private theorem looked_eq_ok {α : Type} {found : Except Errno α} {a : α} : looked found = .ok a ↔ found = .ok a := by
  cases found <;> simp [looked, Except.mapError]

variable {root : Place}

private theorem safeExistingDirectory_inside {directory : Text}
    (passes : safeExistingDirectory tree root directory = .ok place) :
    Leads tree root directory place ∧ root <+: place ∧ tree.node place = some .directory := by
  rw [safeExistingDirectory, bind_eq_ok] at passes
  obtain ⟨canonical, found, passes⟩ := passes
  split_ifs at passes with inside
  obtain rfl := Except.ok.inj passes
  exact ⟨looked_eq_ok.mp found, inside⟩

private theorem safeEntryPath_inside {value : Text} (passes : safeEntryPath tree root value = .ok (place, name)) :
    Names tree root value place name ∧ root <+: place := by
  rw [safeEntryPath] at passes
  split at passes
  · contradiction
  · next last above split =>
    rw [bind_eq_ok] at passes
    obtain ⟨parent, found, passes⟩ := passes
    split_ifs at passes with inside no_name
    rw [pure, Except.instMonad] at passes
    obtain ⟨rfl, rfl⟩ := Prod.mk.inj (Except.ok.inj passes)
    refine ⟨⟨above.reverse, ?_, looked_eq_ok.mp found⟩, inside⟩
    rw [← List.reverse_cons, ← split, List.reverse_reverse]

/-- A path names one entry. -/
theorem Names.unique {value : Text} {place' : Place} {name' : Text} (first : Names tree root value place name)
    (second : Names tree root value place' name') : place = place' ∧ name = name' := by
  obtain ⟨above, ends, leads⟩ := first
  obtain ⟨above', ends', leads'⟩ := second
  obtain ⟨rfl, last⟩ := List.append_inj' (ends.symm.trans ends') rfl
  exact ⟨Except.ok.inj (leads.symm.trans leads'), List.singleton_inj.mp last⟩

private theorem validateFileName_trim (passes : validateFileName name = .ok new) : new = name.trim := by
  rw [validateFileName] at passes
  split_ifs at passes
  exact (Except.ok.inj passes).symm

private theorem tryExists_free (passes : tryExists tree place = .ok false) : tree.stat place = .error .notFound := by
  rw [tryExists] at passes
  split at passes
  · simp at passes
  · assumption
  · contradiction

/-- An entry that leads nowhere is missing, or it is a link. -/
theorem stat_free (free : tree.stat place = .error .notFound) :
    tree.node place = none ∨ ∃ target, tree.node place = some (.link target) := by
  cases found : tree.node place with
  | none => exact .inl rfl
  | some node =>
    cases node with
    | link target => exact .inr ⟨target, rfl⟩
    | directory =>
      rw [FileTree.stat_real ⟨_, found, nofun⟩] at free
      contradiction
    | file content =>
      rw [FileTree.stat_real ⟨_, found, nofun⟩] at free
      contradiction

end Checks

section Calls

private theorem run_eq_ok (ran : system.run call tree = (.ok (), tree')) :
    system.refuses call tree = none ∧ tree.perform call = .ok tree' := by
  rw [System.run] at ran
  split at ran
  · simp at ran
  · next accepted =>
    split at ran
    · next performed =>
      obtain ⟨-, rfl⟩ := Prod.mk.inj ran
      exact ⟨accepted, performed⟩
    · simp at ran

private theorem create_created {node : Node} (made : tree.create place name node = .ok tree') :
    Created tree tree' place name node := by
  rw [FileTree.create] at made
  split_ifs at made with is_directory free entitled
  obtain rfl := Except.ok.inj made
  exact ⟨free, fun other => rfl⟩

/-- Only what is at or below the new entry differs. -/
theorem Created.above {node : Node} (made : Created tree tree' place name node) {root : Place} (inside : root <+: place)
    {above : Place} (higher : above <+: root) : tree'.node above = tree.node above := by
  rw [made.2, if_neg]
  rintro rfl
  exact FileTree.not_below place name (higher.trans inside)

theorem Renamed.above (moved : Renamed tree tree' place old new) {root : Place} (inside : root <+: place) {above : Place}
    (higher : above <+: root) : tree'.node above = tree.node above := by
  have outside (name : Text) : ¬ place ++ [name] <+: above := fun within =>
    FileTree.not_below place name (within.trans (higher.trans inside))
  rw [moved.2.2, if_neg (outside new), if_neg (outside old)]

theorem Removed.above (gone : Removed tree tree' place name) {root : Place} (inside : root <+: place) {above : Place}
    (higher : above <+: root) : tree'.node above = tree.node above := by
  rw [gone.2.1, if_neg]
  exact fun within => FileTree.not_below place name (within.trans (higher.trans inside))

/-- Nothing is below an entry that is no directory. -/
theorem remove_removed (found : (tree.node (place ++ [name])).isSome) : Removed tree (tree.remove place name) place name := by
  refine ⟨found, fun other => rfl, ?_⟩
  intro target is_link other differs
  rw [FileTree.remove]
  dsimp only
  split_ifs with below
  · obtain ⟨rest, rfl⟩ := below
    have some_rest : rest ≠ [] := fun none_rest => differs (by rw [none_rest, List.append_nil])
    cases beneath : tree.node (place ++ [name] ++ rest) with
    | none => rfl
    | some node =>
      have is_directory := FileTree.directory_above some_rest (Option.isSome_of_eq_some beneath)
      rw [is_link] at is_directory
      exact nomatch is_directory
  · rfl

private theorem rename_moves (performed : tree.perform (.rename place old new) = .ok tree') :
    (tree.node (place ++ [old])).isSome ∧ ∀ other, tree'.node other =
      if place ++ [new] <+: other then tree.node (place ++ [old] ++ other.drop (place ++ [new]).length)
      else if place ++ [old] <+: other then none
      else tree.node other := by
  rw [FileTree.perform] at performed
  split at performed
  · contradiction
  · next moved found =>
    refine ⟨FileTree.entry_isSome found, ?_⟩
    by_cases entitled : Entitled new
    · rw [dif_pos entitled] at performed
      split at performed
      · obtain rfl := Except.ok.inj performed
        exact fun other => rfl
      · contradiction
      · split_ifs at performed
        obtain rfl := Except.ok.inj performed
        exact fun other => rfl
    · rw [dif_neg entitled] at performed
      contradiction

/-- A link makes room for anything but a directory. -/
theorem rename_link {target : Text} (is_link : tree.node (place ++ [new]) = some (.link target)) :
    (∃ next, tree.perform (.rename place old new) = .ok next) ↔
      ∃ node, tree.node (place ++ [old]) = some node ∧ node ≠ .directory := by
  rw [FileTree.perform]
  split
  · next errno missing =>
    refine iff_of_false nofun ?_
    rintro ⟨node, found, -⟩
    rw [FileTree.entry_eq_ok.mpr found] at missing
    contradiction
  · next moved found =>
    have entitled := tree.entitled _ _ (Option.isSome_of_eq_some is_link)
    rw [dif_pos entitled, is_link]
    dsimp only
    split_ifs with is_directory
    · refine iff_of_false nofun ?_
      rintro ⟨node, found', no_directory⟩
      rw [FileTree.entry_eq_ok.mp found, Option.some.injEq] at found'
      exact no_directory (found'.symm.trans is_directory)
    · exact iff_of_true ⟨_, rfl⟩ ⟨moved, FileTree.entry_eq_ok.mp found, is_directory⟩

end Calls

section Operations

variable {there : Place}

/-- The calls that pass the checks. -/
theorem checked_rename {root path : Text} :
    checked system tree root (.rename path name) = .ok call ↔
      ∃ there place old new, tree.realpath system.working root = .ok there ∧
        safeEntryPath tree there path = .ok (place, old) ∧ place ++ [old] ≠ there ∧ validateFileName name = .ok new ∧
        tryExists tree (place ++ [new]) = .ok false ∧ call = .rename place old new := by
  rw [checked, bind_eq_ok]
  simp only [looked_eq_ok, bind_eq_ok, Prod.exists]
  constructor
  · rintro ⟨there, real, place, old, inside, passes⟩
    split_ifs at passes with is_root
    rw [bind_eq_ok] at passes
    obtain ⟨new, valid, passes⟩ := passes
    rw [bind_eq_ok] at passes
    obtain ⟨taken, exists', passes⟩ := passes
    cases taken with
    | true => contradiction
    | false => exact ⟨there, place, old, new, real, inside, is_root, valid, exists', (Except.ok.inj passes).symm⟩
  · rintro ⟨there, place, old, new, real, inside, is_root, valid, free, rfl⟩
    refine ⟨there, real, place, old, inside, ?_⟩
    rw [if_neg is_root, bind_eq_ok]
    refine ⟨new, valid, ?_⟩
    rw [bind_eq_ok]
    exact ⟨false, free, rfl⟩

private theorem mutateProjectFile_ok {root : Text} {operation : FileOperation}
    (done : mutateProjectFile system tree root operation = (.ok (), tree')) :
    ∃ call, checked system tree root operation = .ok call ∧ system.refuses call tree = none ∧
      tree.perform call = .ok tree' := by
  rw [mutateProjectFile] at done
  split at done
  · simp at done
  · next call passes =>
    generalize ran : system.run call tree = outcome at done
    obtain ⟨result, next⟩ := outcome
    cases result with
    | error errno => simp [Except.mapError] at done
    | ok =>
      obtain ⟨-, rfl⟩ := Prod.mk.inj done
      exact ⟨call, passes, run_eq_ok ran⟩

/-- Creating puts a new entry into a directory inside the root. -/
theorem create_confined {parent : Text} {node : Node} (inside : safeExistingDirectory tree there parent = .ok place)
    (valid : validateFileName name = .ok new) (made : tree.create place new node = .ok tree') :
    (∃ place, there <+: place ∧ tree.node place = some .directory ∧ Leads tree there parent place ∧
      Created tree tree' place name.trim node) ∧ ∀ above, above <+: there → tree'.node above = tree.node above := by
  obtain ⟨leads, within, is_directory⟩ := safeExistingDirectory_inside inside
  have created := create_created made
  rw [validateFileName_trim valid] at created
  exact ⟨⟨place, within, is_directory, leads, created⟩, fun above higher => created.above within higher⟩

private theorem createFile_confined {root parent : Text}
    (passes : checked system tree root (.createFile parent name) = .ok call) (performed : tree.perform call = .ok tree') :
    ∃ there, tree.realpath system.working root = .ok there ∧ Confined tree tree' there (.createFile parent name) := by
  simp only [checked, bind_eq_ok, looked_eq_ok] at passes
  obtain ⟨there, real, place, inside, new, valid, passes⟩ := passes
  obtain rfl := Except.ok.inj passes
  exact ⟨there, real, create_confined inside valid performed⟩

private theorem createDirectory_confined {root parent : Text}
    (passes : checked system tree root (.createDirectory parent name) = .ok call)
    (performed : tree.perform call = .ok tree') :
    ∃ there, tree.realpath system.working root = .ok there ∧
      Confined tree tree' there (.createDirectory parent name) := by
  simp only [checked, bind_eq_ok, looked_eq_ok] at passes
  obtain ⟨there, real, place, inside, new, valid, passes⟩ := passes
  obtain rfl := Except.ok.inj passes
  exact ⟨there, real, create_confined inside valid performed⟩

/-- Deleting removes the entry itself, also where it is a link. -/
theorem delete_confined {root path : Text} (passes : checked system tree root (.delete path) = .ok call)
    (performed : tree.perform call = .ok tree') :
    ∃ there, tree.realpath system.working root = .ok there ∧ Confined tree tree' there (.delete path) := by
  simp only [checked, bind_eq_ok, looked_eq_ok, Prod.exists] at passes
  obtain ⟨there, real, place, name, inside, passes⟩ := passes
  split_ifs at passes with is_root
  rw [bind_eq_ok] at passes
  obtain ⟨node, looked_up, passes⟩ := passes
  rw [looked_eq_ok] at looked_up
  have found := FileTree.entry_isSome looked_up
  obtain ⟨named, within⟩ := safeEntryPath_inside inside
  have removes : tree' = tree.remove place name := by
    cases node with
    | directory =>
      obtain rfl := Except.ok.inj passes
      rw [FileTree.perform, looked_up] at performed
      exact (Except.ok.inj performed).symm
    | file content =>
      obtain rfl := Except.ok.inj passes
      rw [FileTree.perform, looked_up] at performed
      exact (Except.ok.inj performed).symm
    | link target =>
      obtain rfl := Except.ok.inj passes
      rw [FileTree.perform, looked_up] at performed
      exact (Except.ok.inj performed).symm
  have removed := remove_removed found
  rw [← removes] at removed
  refine ⟨there, real, ⟨place, within, tree.closed _ _ found, name, named, removed⟩, ?_⟩
  exact fun above higher => removed.above within higher

/-- Renaming gives an entry a name that none has, unless it takes the one of a link. -/
theorem rename_confined {root path : Text} (passes : checked system tree root (.rename path name) = .ok call)
    (accepted : system.refuses call tree = none) (performed : tree.perform call = .ok tree')
    (spares : ¬ ReplacesLink system tree root (.rename path name)) :
    ∃ there, tree.realpath system.working root = .ok there ∧ Confined tree tree' there (.rename path name) := by
  obtain ⟨there, place, old, new, real, inside, -, valid, untaken, rfl⟩ := checked_rename.mp passes
  obtain ⟨named, within⟩ := safeEntryPath_inside inside
  have nowhere := tryExists_free untaken
  obtain free | ⟨target, is_link⟩ := stat_free nowhere
  case inr =>
    obtain ⟨node, found, no_directory⟩ := (rename_link is_link).mp ⟨tree', performed⟩
    exact absurd ⟨there, place, old, new, target, node, real, inside, valid, is_link, nowhere, found, no_directory,
      accepted⟩ spares
  case inl =>
    obtain ⟨found, moves⟩ := rename_moves performed
    have renamed : Renamed tree tree' place old new := ⟨found, free, moves⟩
    have is_directory := tree.closed _ _ found
    have higher := fun above (higher : above <+: there) => renamed.above within higher
    rw [validateFileName_trim valid] at renamed
    exact ⟨there, real, ⟨place, within, is_directory, old, named, renamed⟩, higher⟩

/-- Taking the name of a link is a success that is no renaming. -/
theorem not_safe_of_replaces {root path : Text} (replaces : ReplacesLink system tree root (.rename path name)) :
    ¬ Safe system tree root (.rename path name) := by
  obtain ⟨there, place, old, new, target, node, real, inside, valid, is_link, nowhere, found, no_directory, accepted⟩ :=
    replaces
  obtain ⟨next, performed⟩ := (rename_link is_link).mpr ⟨node, found, no_directory⟩
  have other : place ++ [old] ≠ there := fun same =>
    FileTree.not_below place old (same ▸ (safeEntryPath_inside inside).2)
  have untaken : tryExists tree (place ++ [new]) = .ok false := by rw [tryExists, nowhere]
  have passes : checked system tree root (.rename path name) = .ok (.rename place old new) :=
    checked_rename.mpr ⟨there, place, old, new, real, inside, other, valid, untaken, rfl⟩
  have done : mutateProjectFile system tree root (.rename path name) = (.ok (), next) := by
    have ran : system.run (.rename place old new) tree = (.ok (), next) := by
      rw [System.run, accepted]
      dsimp only
      rw [performed]
    rw [mutateProjectFile, passes]
    dsimp only
    rw [ran]
    rfl
  rw [Safe, done]
  rintro ⟨there', real', ⟨elsewhere, -, -, former, named, -, absent, -⟩, -⟩
  obtain rfl := Except.ok.inj (real.symm.trans real')
  obtain ⟨rfl, -⟩ := named.unique (safeEntryPath_inside inside).1
  rw [← validateFileName_trim valid, is_link] at absent
  contradiction

end Operations

/-- An operation is safe exactly when it is no rename to the name of a link that leads nowhere. -/
theorem safe_iff (system : System) (tree : FileTree) (root : Text) (operation : FileOperation) :
    Safe system tree root operation ↔ ¬ ReplacesLink system tree root operation := by
  constructor
  · intro safe replaces
    cases operation with
    | rename path name => exact not_safe_of_replaces replaces safe
    | createFile parent name => exact replaces
    | createDirectory parent name => exact replaces
    | delete path => exact replaces
  · intro spares
    rw [Safe]
    split
    case h_1 tree' done =>
      obtain ⟨call, passes, accepted, performed⟩ := mutateProjectFile_ok done
      cases operation with
      | rename path name => exact rename_confined passes accepted performed spares
      | createFile parent name => exact createFile_confined passes performed
      | createDirectory parent name => exact createDirectory_confined passes performed
      | delete path => exact delete_confined passes performed
    case h_2 => trivial
    case h_3 fault tree' no_call done =>
      rw [mutateProjectFile] at done
      split at done
      · exact (Prod.mk.inj done).2.symm
      · next call passes =>
        generalize system.run call tree = outcome at done
        obtain ⟨result, next⟩ := outcome
        cases result with
        | ok => simp [Except.mapError] at done
        | error errno => exact absurd (Except.error.inj (Prod.mk.inj done).1).symm (no_call errno)

section Dangling

/-- A project `/p` with a file `a` and a link `l` that leads nowhere. -/
def project : FileTree := FileTree.bare.insert [] ['p'] .directory rfl rfl (by decide)

def fileProject : FileTree := project.insert [['p']] ['a'] (.file []) rfl rfl (by decide)

def linkProject : FileTree := fileProject.insert [['p']] ['l'] (.link "gone".toList) rfl rfl (by decide)

/-- Renaming the file `a` to `l` removes the link. -/
theorem not_safe_of_dangling : ¬ Safe {} linkProject "/p".toList (.rename "a".toList "l".toList) :=
  not_safe_of_replaces ⟨[['p']], [['p']], ['a'], ['l'], "gone".toList, .file [], rfl, rfl, rfl, rfl, rfl, rfl,
    nofun, rfl⟩

end Dangling

end Uniterm.Model.Files
