import Mathlib.Data.List.Perm.Basic
import Uniterm.Model.Server.FileManager
import Uniterm.ToMathlib.Keyed
import Uniterm.ToMathlib.MapAccum

/-! # Mutations hit the path that was chosen

A rename and a creation carry the path that their prompt was opened with. A deletion is confirmed by a second key, and
its path is that of the row selected then. It is the row that was selected first as long as nothing in between selects
a row of another path.
-/

namespace Uniterm.Model.FileManager

open Files ToMathlib

variable {s s' : FileManager}

section Paths

/-- The path of the row at an index. -/
def pathAt (rows : Option (List FileRow)) (index : ℕ) : Option Text := rows.bind fun rows => (rows[index]?).map (·.path)

/-- The path of the row that a clamped index selects. -/
def clampedAt (rows : Option (List FileRow)) (index : ℕ) : Option Text :=
  rows.bind fun rows => (rows[min index (rows.length - 1)]?).map (·.path)

def selectedPath (s : FileManager) : Option Text := pathAt s.rows s.selected

private theorem selectedPath_of_rows {rows : List FileRow} (walked : s.rows = some rows) :
    s.selectedPath = (rows[s.selected]?).map (·.path) := by
  rw [selectedPath, walked]
  rfl

/-- Another index selects among the same rows. -/
theorem selectedPath_select (s : FileManager) (index : ℕ) :
    ({ s with selected := index } : FileManager).selectedPath = pathAt s.rows index := rfl

/-- Clamping chooses among the same rows. -/
theorem clampSelection_spec (clamped : s.clampSelection = some s') :
    s'.selectedPath = clampedAt s.rows s.selected ∧ s'.confirmDelete = s.confirmDelete ∧ s'.prompt = s.prompt := by
  rw [clampSelection, Option.map_eq_some_iff] at clamped
  obtain ⟨rows, walked, rfl⟩ := clamped
  refine ⟨?_, rfl, rfl⟩
  rw [walked]
  exact selectedPath_of_rows walked

/-- An index of a row needs no clamping. -/
theorem clampedAt_of_row {rows : List FileRow} {index : ℕ} {row : FileRow} (found : rows[index]? = some row) :
    clampedAt (some rows) index = some row.path := by
  have inside : index < rows.length := (List.getElem?_eq_some_iff.mp found).1
  have kept : min index (rows.length - 1) = index := by omega
  rw [clampedAt, Option.bind_some, kept, found, Option.map_some]

/-- The first row of a path has the path. -/
theorem exists_findIdx {rows : List FileRow} {path : Text} (shown : path ∈ rows.map (·.path)) :
    ∃ index row, rows.findIdx? (·.path = path) = some index ∧ rows[index]? = some row ∧ row.path = path := by
  obtain ⟨shown_row, member, same⟩ := List.mem_map.mp shown
  have found : (rows.findIdx? (·.path = path)).isSome := by
    rw [List.findIdx?_isSome, List.any_eq_true]
    exact ⟨shown_row, member, decide_eq_true same⟩
  obtain ⟨index, found⟩ := Option.isSome_iff_exists.mp found
  obtain ⟨inside, path_eq, -⟩ := List.findIdx?_eq_some_iff_getElem.mp found
  exact ⟨index, rows[index], found, List.getElem?_eq_getElem inside, of_decide_eq_true path_eq⟩

private theorem mem_of_clampedAt {rows : List FileRow} {index : ℕ} {path : Text}
    (selected : clampedAt (some rows) index = some path) : path ∈ rows.map (·.path) := by
  rw [clampedAt, Option.bind_some, Option.map_eq_some_iff] at selected
  obtain ⟨row, found, rfl⟩ := selected
  exact List.mem_map_of_mem (List.mem_of_getElem? found)

private theorem clampedAt_eq_none {rows : List FileRow} {index : ℕ} :
    clampedAt (some rows) index = none ↔ rows = [] := by
  rw [clampedAt, Option.bind_some, Option.map_eq_none_iff, List.getElem?_eq_none_iff, ← List.length_eq_zero_iff]
  omega

end Paths

section Sorting

variable {lowercase : Text → Text} {sort : FileSort}

private theorem sortEntries_perm (entries : List FileEntry) : (sortEntries lowercase sort entries).Perm entries :=
  List.mergeSort_perm ..

/-- Reordered listings have the same rows in another order. -/
theorem appendRows_perm {listings reordered : List (Text × List FileEntry)} {shows opens : FileEntry → Bool}
    (reorders : ∀ directory entries, listings.lookup directory = some entries →
      ∃ others, reordered.lookup directory = some others ∧ others.Perm entries)
    (unlisted : ∀ directory, listings.lookup directory = none → reordered.lookup directory = none) :
    ∀ {levels : ℕ} {directory : Text} {depth : ℕ} {before after : List FileRow},
      appendRows listings shows opens levels directory depth = some before →
      appendRows reordered shows opens levels directory depth = some after → before.Perm after := by
  intro levels
  induction levels with
  | zero =>
    intro directory depth before after walked
    contradiction
  | succ levels ih =>
    intro directory depth before after walked walked'
    rw [appendRows] at walked walked'
    cases found : listings.lookup directory with
    | none =>
      rw [found] at walked
      rw [unlisted directory found] at walked'
      obtain rfl := Option.some.inj walked
      obtain rfl := Option.some.inj walked'
      exact .nil
    | some entries =>
      obtain ⟨others, found', reorder⟩ := reorders directory entries found
      rw [found] at walked
      rw [found'] at walked'
      dsimp only at walked walked'
      rw [Option.map_eq_some_iff] at walked walked'
      obtain ⟨parts, walked, rfl⟩ := walked
      obtain ⟨parts', walked', rfl⟩ := walked'
      rw [mapM_eq_some] at walked walked'
      -- The parts of the reordered entries, in the order of the entries.
      obtain ⟨middle, aligned, moved⟩ := List.perm_comp_forall₂ (reorder.filter shows).symm walked'
      refine .trans (List.Perm.flatten_congr ?_) moved.flatten
      refine forall₂_comp ?_ walked.flip aligned
      intro entry part other here here'
      split_ifs at here here' with unfolds
      · obtain ⟨below, walked, rfl⟩ := Option.map_eq_some_iff.mp here
        obtain ⟨below', walked', rfl⟩ := Option.map_eq_some_iff.mp here'
        exact (ih walked walked').cons _
      · obtain rfl := Option.some.inj here
        obtain rfl := Option.some.inj here'
        exact .refl _

private theorem sorted_perm {before after : List FileRow} (walked : s.rows = some before)
    (walked' : (s.sorted lowercase sort).rows = some after) : before.Perm after := by
  have same_length : (s.sorted lowercase sort).listings.length = s.listings.length := List.length_map _
  rw [rows, same_length] at walked'
  refine appendRows_perm ?_ ?_ walked walked'
  · intro directory entries found
    refine ⟨sortEntries lowercase sort entries, ?_, sortEntries_perm entries⟩
    exact (lookup_map (sortEntries lowercase sort) s.listings directory).trans (by rw [found, Option.map_some])
  · intro directory missing
    exact (lookup_map (sortEntries lowercase sort) s.listings directory).trans (by rw [missing, Option.map_none])

/-- Sorting keeps the path of the selected row. -/
theorem setSort_spec (stepped : s.setSort lowercase sort = some s') :
    s'.selectedPath = s.selectedPath ∧ s'.confirmDelete = s.confirmDelete ∧ s'.prompt = s.prompt := by
  rw [setSort] at stepped
  split_ifs at stepped with same
  · obtain rfl := Option.some.inj stepped
    exact ⟨rfl, rfl, rfl⟩
  · rw [Option.bind_eq_bind, Option.bind_eq_some_iff] at stepped
    obtain ⟨before, walked, stepped⟩ := stepped
    rw [selectedPath_of_rows walked]
    cases chosen : before[s.selected]? with
    | some row =>
      rw [chosen] at stepped
      dsimp only at stepped
      rw [Option.bind_eq_some_iff] at stepped
      obtain ⟨after, walked', stepped⟩ := stepped
      obtain rfl := Option.some.inj stepped
      have member := (sorted_perm walked walked').subset (List.mem_of_getElem? chosen)
      obtain ⟨index, again, found, at_index, same_path⟩ := exists_findIdx (List.mem_map_of_mem member)
      refine ⟨?_, rfl, rfl⟩
      rw [selectedPath_select, walked', found, Option.getD_some, pathAt, Option.bind_some, at_index, Option.map_some,
        Option.map_some, same_path]
    | none =>
      rw [chosen] at stepped
      obtain rfl := Option.some.inj stepped
      refine ⟨?_, rfl, rfl⟩
      rw [selectedPath, Option.map_none]
      cases walked' : (s.sorted lowercase sort).rows with
      | none => rfl
      | some after =>
        have same_length := (sorted_perm walked walked').length_eq
        have beyond : after[s.selected]? = none := by
          rw [List.getElem?_eq_none_iff] at chosen ⊢
          omega
        rw [pathAt, Option.bind_some]
        exact congrArg (Option.map FileRow.path) beyond

end Sorting

section Listings

variable {project : ℕ} {lowercase : Text → Text} {directory : Text} {entries : List FileEntry} {truncated : Bool} {error : Option Text}

private theorem listed_spec : (s.listed lowercase directory entries truncated error).selected = s.selected ∧
    (s.listed lowercase directory entries truncated error).confirmDelete = s.confirmDelete ∧
    (s.listed lowercase directory entries truncated error).prompt = s.prompt := by
  cases error <;> exact ⟨rfl, rfl, rfl⟩

/-- What a listing leaves of the rows keeps the selected one. -/
def StillListed (s listed : FileManager) : Prop :=
  ∀ after, listed.rows = some after →
    match s.selectedPath with
    | some path => path ∈ after.map (·.path)
    | none => after = []

/-- A listing keeps the path of the selected row exactly when it still lists it. -/
theorem finishListing_spec (stepped : s.finishListing lowercase project directory entries truncated error = some s') :
    (s'.selectedPath = s.selectedPath ↔
      (project = s.project → StillListed s (s.listed lowercase directory entries truncated error))) ∧
      s'.confirmDelete = s.confirmDelete ∧ s'.prompt = s.prompt := by
  rw [finishListing] at stepped
  split_ifs at stepped with other
  · obtain rfl := Option.some.inj stepped
    exact ⟨iff_of_true rfl (fun same => absurd same other), rfl, rfl⟩
  · rw [ne_eq, not_not] at other
    rw [Option.bind_eq_bind, Option.bind_eq_some_iff] at stepped
    obtain ⟨before, walked, stepped⟩ := stepped
    have kept : (s.listed lowercase directory entries truncated error).selected = s.selected ∧
        (s.listed lowercase directory entries truncated error).confirmDelete = s.confirmDelete ∧
        (s.listed lowercase directory entries truncated error).prompt = s.prompt := listed_spec
    generalize s.listed lowercase directory entries truncated error = listed at stepped kept ⊢
    obtain ⟨-, same_confirm, same_prompt⟩ := kept
    rw [StillListed, selectedPath_of_rows walked]
    cases chosen : before[s.selected]? with
    | some row =>
      rw [chosen] at stepped
      dsimp only at stepped
      rw [Option.bind_eq_some_iff] at stepped
      obtain ⟨after, walked', stepped⟩ := stepped
      obtain ⟨path, confirm, prompt⟩ := clampSelection_spec stepped
      refine ⟨?_, confirm.trans same_confirm, prompt.trans same_prompt⟩
      have path : s'.selectedPath = clampedAt (some after) _ := path.trans (congrArg (clampedAt · _) walked')
      rw [path, walked', Option.map_some]
      by_cases shown : row.path ∈ after.map (·.path)
      · obtain ⟨index, again, found, at_index, same_path⟩ := exists_findIdx shown
        rw [found]
        exact iff_of_true ((clampedAt_of_row at_index).trans (congrArg some same_path))
          (fun _ after' same => by rwa [← Option.some.inj same])
      · refine iff_of_false (fun same => shown (mem_of_clampedAt same)) (fun still => shown ?_)
        exact still other after rfl
    | none =>
      rw [chosen] at stepped
      dsimp only at stepped
      obtain ⟨path, confirm, prompt⟩ := clampSelection_spec stepped
      refine ⟨?_, confirm.trans same_confirm, prompt.trans same_prompt⟩
      rw [path, Option.map_none]
      rw [clampSelection, Option.map_eq_some_iff] at stepped
      obtain ⟨after, walked', -⟩ := stepped
      rw [walked', clampedAt_eq_none]
      constructor
      · rintro rfl - after' same
        exact (Option.some.inj same).symm
      · exact fun still => still other after rfl

end Listings

section Steps

variable {action : FileAction}

/-- A directory that an operation opens or closes leaves the row at an index with a path. -/
def Unmoved (s : FileManager) (directory : Text) (expanded : Bool) (index : ℕ) (path : Option Text) : Prop :=
  if expanded then clampedAt (s.folded directory).rows index = path else pathAt (s.unfolded directory).rows index = path

/-- When an operation other than a key leaves the path of the selected row as it is. A listing still has the row, a
click is on it, and a directory that opens or closes or a change of the hidden rows does not move it. -/
def Steady (lowercase : Text → Text) (s : FileManager) : Op → Prop
  | .handle _ | .beginCreate .. | .beginRename .. | .setSort _ => True
  | .finishListing project directory entries truncated error =>
    project = s.project → StillListed s (s.listed lowercase directory entries truncated error)
  | .selectAt row first count =>
    row < count → ∀ path, pathAt s.rows (first + row) = some path → s.selectedPath = some path
  | .click row first count => row < count → ∀ rows item, s.rows = some rows → rows[first + row]? = some item →
    if item.isDir then Unmoved s item.path item.expanded (first + row) s.selectedPath
    else s.selectedPath = some item.path
  | .openPath path isDir => isDir = true → Unmoved s path (decide (path ∈ s.expanded)) s.selected s.selectedPath
  | .toggleHidden => clampedAt ({ s with showHidden := !s.showHidden } : FileManager).rows s.selected = s.selectedPath

/-- What an operation other than a key leaves as it is. -/
structure Leaves (s s' : FileManager) (steady : Prop) : Prop where
  path : s'.selectedPath = s.selectedPath ↔ steady
  confirm : s'.confirmDelete = s.confirmDelete
  prompt : s'.prompt = s.prompt

private theorem collapse_spec {directory : Text} (stepped : s.collapse directory = some s') :
    s'.selectedPath = clampedAt (s.folded directory).rows s.selected ∧ s'.confirmDelete = s.confirmDelete ∧
      s'.prompt = s.prompt := clampSelection_spec stepped

private theorem openPath_leaves {path : Text} {isDir : Bool} (stepped : s.openPath path isDir = some (action, s')) :
    Leaves s s' (isDir = true → Unmoved s path (decide (path ∈ s.expanded)) s.selected s.selectedPath) := by
  rw [openPath] at stepped
  simp only [Unmoved]
  cases isDir with
  | false =>
    obtain ⟨-, rfl⟩ := Prod.mk.inj (Option.some.inj stepped)
    exact ⟨iff_of_true rfl nofun, rfl, rfl⟩
  | true =>
    by_cases expanded : path ∈ s.expanded
    · rw [if_neg (not_not.mpr rfl), if_pos expanded, Option.map_eq_some_iff] at stepped
      obtain ⟨next, stepped, same⟩ := stepped
      obtain ⟨-, rfl⟩ := Prod.mk.inj same
      obtain ⟨path_eq, confirm, prompt⟩ := collapse_spec stepped
      exact ⟨by simp [expanded, path_eq], confirm, prompt⟩
    · rw [if_neg (not_not.mpr rfl), if_neg expanded] at stepped
      obtain ⟨-, rfl⟩ := Prod.mk.inj (Option.some.inj stepped)
      refine ⟨?_, rfl, rfl⟩
      rw [decide_eq_false expanded]
      exact ⟨fun same _ => same, fun same => same rfl⟩

private theorem openSelected_leaves {rows : List FileRow} {item : FileRow} {openFile : Bool}
    (chosen : rows[s.selected]? = some item)
    (stepped : s.openSelected rows openFile = some (action, s')) :
    s'.confirmDelete = s.confirmDelete ∧ s'.prompt = s.prompt ∧ ∀ path, s'.selectedPath = path ↔
      if item.isDir then Unmoved s item.path item.expanded s.selected path else s.selectedPath = path := by
  rw [openSelected, chosen] at stepped
  dsimp only at stepped
  simp only [Unmoved]
  by_cases directory : item.isDir
  · rw [if_neg (not_not.mpr directory)] at stepped
    by_cases expanded : item.expanded
    · rw [if_pos expanded, Option.map_eq_some_iff] at stepped
      obtain ⟨next, stepped, same⟩ := stepped
      obtain ⟨-, rfl⟩ := Prod.mk.inj same
      obtain ⟨path_eq, confirm, prompt⟩ := collapse_spec stepped
      refine ⟨confirm, prompt, fun path => ?_⟩
      rw [if_pos directory, if_pos expanded, path_eq]
    · rw [if_neg expanded] at stepped
      obtain ⟨-, rfl⟩ := Prod.mk.inj (Option.some.inj stepped)
      refine ⟨rfl, rfl, fun path => ?_⟩
      rw [if_pos directory, if_neg expanded]
      rfl
  · rw [if_pos directory] at stepped
    obtain ⟨-, rfl⟩ := Prod.mk.inj (Option.some.inj stepped)
    refine ⟨rfl, rfl, fun path => ?_⟩
    rw [if_neg directory]

private theorem click_leaves {row first count : ℕ} (stepped : s.click row first count = some (action, s')) :
    Leaves s s' (row < count → ∀ rows item, s.rows = some rows → rows[first + row]? = some item →
      if item.isDir then Unmoved s item.path item.expanded (first + row) s.selectedPath
      else s.selectedPath = some item.path) := by
  rw [click] at stepped
  split_ifs at stepped with outside
  · obtain ⟨-, rfl⟩ := Prod.mk.inj (Option.some.inj stepped)
    exact ⟨iff_of_true rfl (fun inside => absurd inside (Nat.not_lt.mpr outside)), rfl, rfl⟩
  · rw [Option.bind_eq_bind, Option.bind_eq_some_iff] at stepped
    obtain ⟨rows, walked, stepped⟩ := stepped
    have inside : row < count := Nat.lt_of_not_le outside
    by_cases beyond : rows.length ≤ first + row
    · rw [if_pos beyond] at stepped
      obtain ⟨-, rfl⟩ := Prod.mk.inj (Option.some.inj stepped)
      refine ⟨iff_of_true rfl fun _ rows' item walked' found => ?_, rfl, rfl⟩
      obtain rfl := Option.some.inj (walked.symm.trans walked')
      rw [List.getElem?_eq_none beyond] at found
      contradiction
    · rw [if_neg beyond] at stepped
      have found : rows[first + row]? = some rows[first + row] := List.getElem?_eq_getElem (Nat.lt_of_not_le beyond)
      obtain ⟨confirm, prompt, path⟩ := openSelected_leaves found stepped
      refine ⟨?_, confirm, prompt⟩
      rw [path]
      have here : ({ s with focused := true, selected := first + row } : FileManager).selectedPath =
          some rows[first + row].path := by
        have at_click : ({ s with focused := true, selected := first + row } : FileManager).selectedPath =
            pathAt s.rows (first + row) := rfl
        rw [at_click, walked, pathAt, Option.bind_some, found, Option.map_some]
      rw [here]
      constructor
      · intro kept _ rows' item walked' found'
        obtain rfl := Option.some.inj (walked.symm.trans walked')
        obtain rfl := Option.some.inj (found.symm.trans found')
        split_ifs at kept ⊢
        · exact kept
        · exact kept.symm
      · intro kept
        have kept := kept inside rows _ walked found
        split_ifs at kept ⊢
        · exact kept
        · exact kept.symm

private theorem selectAt_leaves {row first count : ℕ} {item : Option FileRow}
    (stepped : s.selectAt row first count = some (item, s')) :
    Leaves s s' (row < count → ∀ path, pathAt s.rows (first + row) = some path → s.selectedPath = some path) := by
  rw [selectAt] at stepped
  split_ifs at stepped with outside
  · obtain ⟨-, rfl⟩ := Prod.mk.inj (Option.some.inj stepped)
    exact ⟨iff_of_true rfl (fun inside => absurd inside (Nat.not_lt.mpr outside)), rfl, rfl⟩
  · rw [Option.map_eq_some_iff] at stepped
    obtain ⟨rows, walked, stepped⟩ := stepped
    have inside : row < count := Nat.lt_of_not_le outside
    have here : pathAt s.rows (first + row) = (rows[first + row]?).map (·.path) := by rw [walked]; rfl
    rw [here]
    cases found : rows[first + row]? with
    | none =>
      rw [found] at stepped
      obtain ⟨-, rfl⟩ := Prod.mk.inj stepped
      exact ⟨iff_of_true rfl nofun, rfl, rfl⟩
    | some row =>
      rw [found] at stepped
      obtain ⟨-, rfl⟩ := Prod.mk.inj stepped
      refine ⟨?_, rfl, rfl⟩
      have path : ({ s with focused := true, selected := first + _ } : FileManager).selectedPath = some row.path :=
        here.trans (congrArg _ found)
      rw [path]
      constructor
      · rintro same - path' found'
        rw [← same]
        exact found'
      · exact fun kept => (kept inside _ rfl).symm

private theorem toggleHidden_leaves (stepped : s.toggleHidden = some (action, s')) :
    Leaves s s' (clampedAt ({ s with showHidden := !s.showHidden } : FileManager).rows s.selected = s.selectedPath) := by
  rw [toggleHidden, Option.map_eq_some_iff] at stepped
  obtain ⟨next, stepped, same⟩ := stepped
  obtain ⟨-, rfl⟩ := Prod.mk.inj same
  obtain ⟨path, confirm, prompt⟩ := clampSelection_spec stepped
  exact ⟨by rw [path], confirm, prompt⟩

end Steps

section Choices

/-- What was chosen last: the row whose deletion was asked for, and what the latest prompt was opened for. -/
structure Chosen where
  armed : Option Text := none
  prompted : Option (PromptKind × Text) := none
deriving DecidableEq

namespace Chosen

/-- The choices that a state stands for. -/
def standing (s : FileManager) : Chosen where
  armed := s.selectedPath
  prompted := s.prompt.map fun prompt => (prompt.kind, prompt.target)

/-- The choice that a key makes while nothing is asked. -/
def key (chosen : Chosen) (s : FileManager) (rows : List FileRow) : Key → Chosen
  | .char 'd' => { chosen with armed := s.selectedPath }
  | .char 'n' => { chosen with prompted := some (.file, s.creationParent rows) }
  | .char 'N' => { chosen with prompted := some (.directory, s.creationParent rows) }
  | .char 'R' => { chosen with prompted := ((rows[s.selected]?).map fun row => (.rename, row.path)).or chosen.prompted }
  | _ => chosen

/-- The choices after an operation. -/
def next (chosen : Chosen) (s : FileManager) : Op → Chosen
  | .handle input =>
    match s.rows with
    | some rows => if s.prompt.isSome ∨ s.confirmDelete then chosen else chosen.key s rows (decodeKey input)
    | none => chosen
  | .beginCreate path targetIsDir directory =>
    { chosen with
      prompted := some (if directory then .directory else .file,
        if targetIsDir then path else (parentPath path).getD s.root) }
  | .beginRename path _ => { chosen with prompted := some (.rename, path) }
  | _ => chosen

end Chosen

/-- A mutation hits what was chosen. -/
def Hits (chosen : Chosen) : FileAction → Prop
  | .mutate (.delete path) => chosen.armed = some path
  | .mutate (.rename path _) => chosen.prompted = some (.rename, path)
  | .mutate (.createFile parent _) => chosen.prompted = some (.file, parent)
  | .mutate (.createDirectory parent _) => chosen.prompted = some (.directory, parent)
  | _ => True

/-- The state still stands for what was chosen. -/
structure Meant (s : FileManager) (chosen : Chosen) : Prop where
  armed : s.confirmDelete = true → chosen.armed = s.selectedPath
  prompted : ∀ prompt, s.prompt = some prompt → chosen.prompted = some (prompt.kind, prompt.target)

private theorem meant_standing (s : FileManager) : Meant s (.standing s) where
  armed _ := rfl
  prompted prompt found := by rw [Chosen.standing, found, Option.map_some]

private theorem meant_idle (chosen : Chosen) (unarmed : s.confirmDelete = false) (quiet : s.prompt = none) :
    Meant s chosen where
  armed confirm := by simp [unarmed] at confirm
  prompted prompt found := by simp [quiet] at found

variable {chosen : Chosen} {rows : List FileRow} {action : FileAction}

private theorem hits_of_harmless (harmless : ∀ operation, action ≠ .mutate operation) : Hits chosen action := by
  cases action with
  | mutate operation => exact absurd rfl (harmless operation)
  | _ => trivial

private theorem openSelected_frame {openFile : Bool} (stepped : s.openSelected rows openFile = some (action, s')) :
    s'.confirmDelete = s.confirmDelete ∧ s'.prompt = s.prompt ∧ ∀ operation, action ≠ .mutate operation := by
  have harmless : ∀ operation, action ≠ .mutate operation := by
    rintro operation rfl
    rw [openSelected] at stepped
    split at stepped
    · simp at stepped
    · split_ifs at stepped
      · simp at stepped
      · simp at stepped
      · simp at stepped
      · simp at stepped
  cases found : rows[s.selected]? with
  | none =>
    rw [openSelected, found] at stepped
    obtain ⟨-, rfl⟩ := Prod.mk.inj (Option.some.inj stepped)
    exact ⟨rfl, rfl, harmless⟩
  | some item =>
    obtain ⟨confirm, prompt, -⟩ := openSelected_leaves found stepped
    exact ⟨confirm, prompt, harmless⟩

private theorem click_frame {row first count : ℕ} (stepped : s.click row first count = some (action, s')) :
    s'.confirmDelete = s.confirmDelete ∧ s'.prompt = s.prompt ∧ ∀ operation, action ≠ .mutate operation := by
  refine ⟨(click_leaves stepped).confirm, (click_leaves stepped).prompt, ?_⟩
  rw [click] at stepped
  split_ifs at stepped with outside
  · obtain ⟨rfl, -⟩ := Prod.mk.inj (Option.some.inj stepped)
    nofun
  · rw [Option.bind_eq_bind, Option.bind_eq_some_iff] at stepped
    obtain ⟨rows, -, stepped⟩ := stepped
    split_ifs at stepped with beyond
    · obtain ⟨rfl, -⟩ := Prod.mk.inj (Option.some.inj stepped)
      nofun
    · exact (openSelected_frame stepped).2.2

private theorem openPath_frame {path : Text} {isDir : Bool} (stepped : s.openPath path isDir = some (action, s')) :
    ∀ operation, action ≠ .mutate operation := by
  rw [openPath] at stepped
  split_ifs at stepped
  · rw [Option.map_eq_some_iff] at stepped
    obtain ⟨next, -, same⟩ := stepped
    obtain ⟨rfl, -⟩ := Prod.mk.inj same
    nofun
  · obtain ⟨rfl, -⟩ := Prod.mk.inj (Option.some.inj stepped)
    nofun
  · obtain ⟨rfl, -⟩ := Prod.mk.inj (Option.some.inj stepped)
    nofun

private theorem toggleHidden_frame (stepped : s.toggleHidden = some (action, s')) :
    s'.confirmDelete = s.confirmDelete ∧ s'.prompt = s.prompt ∧ ∀ operation, action ≠ .mutate operation := by
  refine ⟨(toggleHidden_leaves stepped).confirm, (toggleHidden_leaves stepped).prompt, ?_⟩
  rw [toggleHidden, Option.map_eq_some_iff] at stepped
  obtain ⟨next, -, same⟩ := stepped
  obtain ⟨rfl, -⟩ := Prod.mk.inj same
  nofun

/-- A key makes its choice and changes no file. -/
theorem handleKey_spec (unarmed : s.confirmDelete = false) (quiet : s.prompt = none) {key : Key}
    (stepped : s.handleKey rows key = some (action, s')) :
    Meant s' (chosen.key s rows key) ∧ ∀ operation, action ≠ .mutate operation := by
  rw [handleKey.eq_def] at stepped
  split at stepped
  case h_1 | h_2 | h_3 | h_4 | h_13 =>
    obtain ⟨rfl, rfl⟩ := Prod.mk.inj (Option.some.inj stepped)
    exact ⟨meant_idle _ unarmed quiet, nofun⟩
  case h_5 | h_6 =>
    obtain ⟨rfl, rfl⟩ := Prod.mk.inj (Option.some.inj stepped)
    split_ifs
    · exact ⟨meant_idle _ unarmed quiet, nofun⟩
    · exact ⟨meant_idle _ unarmed quiet, nofun⟩
  case h_7 | h_8 =>
    split at stepped
    · obtain ⟨rfl, rfl⟩ := Prod.mk.inj (Option.some.inj stepped)
      exact ⟨meant_idle _ unarmed quiet, nofun⟩
    · split_ifs at stepped
      · rw [Option.map_eq_some_iff] at stepped
        obtain ⟨next, stepped, same⟩ := stepped
        obtain ⟨rfl, rfl⟩ := Prod.mk.inj same
        obtain ⟨-, confirm, prompt⟩ := collapse_spec stepped
        exact ⟨meant_idle _ (confirm.trans unarmed) (prompt.trans quiet), nofun⟩
      · obtain ⟨rfl, rfl⟩ := Prod.mk.inj (Option.some.inj stepped)
        exact ⟨meant_idle _ unarmed quiet, nofun⟩
  case h_9 | h_10 | h_11 | h_12 =>
    obtain ⟨confirm, prompt, harmless⟩ := openSelected_frame stepped
    exact ⟨meant_idle _ (confirm.trans unarmed) (prompt.trans quiet), harmless⟩
  case h_14 =>
    obtain ⟨confirm, prompt, harmless⟩ := toggleHidden_frame stepped
    exact ⟨meant_idle _ (confirm.trans unarmed) (prompt.trans quiet), harmless⟩
  case h_15 | h_16 =>
    obtain ⟨rfl, rfl⟩ := Prod.mk.inj (Option.some.inj stepped)
    refine ⟨⟨fun confirm => absurd confirm (by simp [ask, unarmed]), ?_⟩, nofun⟩
    intro prompt found
    obtain rfl := Option.some.inj found
    rfl
  case h_17 =>
    obtain ⟨rfl, rfl⟩ := Prod.mk.inj (Option.some.inj stepped)
    cases selected : rows[s.selected]? with
    | none => exact ⟨meant_idle _ unarmed quiet, nofun⟩
    | some row =>
      refine ⟨⟨fun confirm => absurd confirm (by simp [ask, unarmed]), ?_⟩, nofun⟩
      intro prompt found
      obtain rfl := Option.some.inj found
      rw [Chosen.key, selected]
      rfl
  case h_18 =>
    obtain ⟨rfl, rfl⟩ := Prod.mk.inj (Option.some.inj stepped)
    split_ifs
    · exact ⟨meant_idle _ unarmed quiet, nofun⟩
    · refine ⟨⟨fun _ => rfl, ?_⟩, nofun⟩
      intro prompt found
      rw [quiet] at found
      contradiction
  case h_19 | h_20 =>
    obtain ⟨rfl, rfl⟩ := Prod.mk.inj (Option.some.inj stepped)
    refine ⟨meant_idle _ unarmed quiet, ?_⟩
    cases rows[s.selected]? <;> nofun
  case h_21 =>
    obtain ⟨rfl, rfl⟩ := Prod.mk.inj (Option.some.inj stepped)
    exact ⟨meant_idle _ unarmed quiet, nofun⟩

/-- Answering a prompt hits what it was opened for. -/
theorem handlePrompt_spec {prompt : Prompt} {input : Bytes} (meant : Meant s chosen) (open' : s.prompt = some prompt)
    (stepped : s.handlePrompt prompt input = (action, s')) : Hits chosen action ∧ Meant s' chosen := by
  have target := meant.prompted prompt open'
  rw [handlePrompt] at stepped
  split_ifs at stepped
  · obtain ⟨rfl, rfl⟩ := Prod.mk.inj stepped
    exact ⟨trivial, meant.armed, nofun⟩
  · obtain ⟨rfl, rfl⟩ := Prod.mk.inj stepped
    refine ⟨?_, meant.armed, nofun⟩
    obtain ⟨kind, buffer, path⟩ := prompt
    cases kind <;> exact target
  all_goals
    obtain ⟨rfl, rfl⟩ := Prod.mk.inj stepped
    refine ⟨trivial, meant.armed, ?_⟩
    intro prompt' found
    obtain rfl := Option.some.inj found
    exact target

/-- A key hits what was chosen, as long as the state stands for it. -/
theorem handle_spec {input : Bytes} (meant : Meant s chosen) (stepped : s.handle input = some (action, s')) :
    Hits chosen action ∧ Meant s' (chosen.next s (.handle input)) := by
  rw [handle] at stepped
  rw [Chosen.next]
  split at stepped
  · next prompt open' =>
    obtain ⟨hits, still⟩ := handlePrompt_spec meant open' (Option.some.inj stepped)
    refine ⟨hits, ?_⟩
    cases s.rows with
    | none => exact still
    | some rows =>
      dsimp only
      rw [if_pos (.inl (Option.isSome_of_eq_some open'))]
      exact still
  · next quiet =>
    -- Any key disarms a deletion.
    have disarmed (chosen : Chosen) : Meant { s with confirmDelete := false } chosen := meant_idle _ rfl quiet
    split_ifs at stepped with armed confirmed
    · rw [Option.map_eq_some_iff] at stepped
      obtain ⟨rows, walked, stepped⟩ := stepped
      have path := meant.armed armed
      rw [selectedPath_of_rows walked] at path
      split at stepped
      · next row found =>
        obtain ⟨rfl, rfl⟩ := Prod.mk.inj stepped
        rw [found, Option.map_some] at path
        exact ⟨path, disarmed _⟩
      · obtain ⟨rfl, rfl⟩ := Prod.mk.inj stepped
        exact ⟨trivial, disarmed _⟩
    · obtain ⟨rfl, rfl⟩ := Prod.mk.inj (Option.some.inj stepped)
      exact ⟨trivial, disarmed _⟩
    · rw [Bool.not_eq_true] at armed
      rw [Option.bind_eq_some_iff] at stepped
      obtain ⟨rows, walked, stepped⟩ := stepped
      obtain ⟨still, harmless⟩ := handleKey_spec armed quiet stepped
      refine ⟨hits_of_harmless harmless, ?_⟩
      rw [walked]
      dsimp only
      rw [if_neg (by simp [quiet, armed])]
      exact still

end Choices

section Runs

variable {lowercase : Text → Text} {chosen : Chosen} {action : FileAction} {op : Op}

theorem Leaves.prompted {steady : Prop} (leaves : Leaves s s' steady) (meant : Meant s chosen) (prompt : Prompt)
    (found : s'.prompt = some prompt) : chosen.prompted = some (prompt.kind, prompt.target) :=
  meant.prompted prompt (leaves.prompt ▸ found)

theorem Leaves.meant {steady : Prop} (leaves : Leaves s s' steady) (meant : Meant s chosen)
    (holds : s.confirmDelete = true → steady) : Meant s' chosen where
  armed confirm := by
    rw [leaves.confirm] at confirm
    rw [leaves.path.mpr (holds confirm)]
    exact meant.armed confirm
  prompted := leaves.prompted meant

/-- An operation hits what was chosen, and the state goes on to stand for it unless an armed deletion is moved. The
prompt does so in any case. -/
theorem step_spec (meant : Meant s chosen) (stepped : s.step lowercase op = some (action, s')) :
    Hits chosen action ∧ (∀ prompt, s'.prompt = some prompt → (chosen.next s op).prompted = some (prompt.kind, prompt.target)) ∧
      ((s.confirmDelete = true → Steady lowercase s op) → Meant s' (chosen.next s op)) := by
  cases op with
  | handle input =>
    obtain ⟨hits, still⟩ := handle_spec meant stepped
    exact ⟨hits, still.prompted, fun _ => still⟩
  | click row first count =>
    obtain ⟨-, -, harmless⟩ := click_frame stepped
    have leaves := click_leaves stepped
    exact ⟨hits_of_harmless harmless, leaves.prompted meant, leaves.meant meant⟩
  | selectAt row first count =>
    rw [step, Option.map_eq_some_iff] at stepped
    obtain ⟨⟨item, next⟩, stepped, same⟩ := stepped
    obtain ⟨rfl, rfl⟩ := Prod.mk.inj same
    have leaves := selectAt_leaves stepped
    exact ⟨trivial, leaves.prompted meant, leaves.meant meant⟩
  | openPath path isDir =>
    have leaves := openPath_leaves stepped
    exact ⟨hits_of_harmless (openPath_frame stepped), leaves.prompted meant, leaves.meant meant⟩
  | beginCreate path targetIsDir directory =>
    obtain ⟨rfl, rfl⟩ := Prod.mk.inj (Option.some.inj stepped)
    have prompted (prompt : Prompt) (found : (s.beginCreate path targetIsDir directory).2.prompt = some prompt) :
        (chosen.next s (.beginCreate path targetIsDir directory)).prompted = some (prompt.kind, prompt.target) := by
      obtain rfl := Option.some.inj found
      rfl
    exact ⟨trivial, prompted, fun _ => ⟨meant.armed, prompted⟩⟩
  | beginRename path name =>
    obtain ⟨rfl, rfl⟩ := Prod.mk.inj (Option.some.inj stepped)
    have prompted (prompt : Prompt) (found : (s.beginRename path name).2.prompt = some prompt) :
        (chosen.next s (.beginRename path name)).prompted = some (prompt.kind, prompt.target) := by
      obtain rfl := Option.some.inj found
      rfl
    exact ⟨trivial, prompted, fun _ => ⟨meant.armed, prompted⟩⟩
  | toggleHidden =>
    obtain ⟨-, -, harmless⟩ := toggleHidden_frame stepped
    have leaves := toggleHidden_leaves stepped
    exact ⟨hits_of_harmless harmless, leaves.prompted meant, leaves.meant meant⟩
  | setSort sort =>
    rw [step, Option.map_eq_some_iff] at stepped
    obtain ⟨next, stepped, same⟩ := stepped
    obtain ⟨rfl, rfl⟩ := Prod.mk.inj same
    obtain ⟨path, confirm, prompt⟩ := setSort_spec stepped
    have leaves : Leaves s next True := ⟨iff_of_true path trivial, confirm, prompt⟩
    exact ⟨trivial, leaves.prompted meant, leaves.meant meant⟩
  | finishListing project directory entries truncated error =>
    rw [step, Option.map_eq_some_iff] at stepped
    obtain ⟨next, stepped, same⟩ := stepped
    obtain ⟨rfl, rfl⟩ := Prod.mk.inj same
    obtain ⟨path, confirm, prompt⟩ := finishListing_spec stepped
    exact ⟨trivial, Leaves.prompted ⟨path, confirm, prompt⟩ meant, Leaves.meant ⟨path, confirm, prompt⟩ meant⟩

/-- Runs of allowed operations, with what was chosen last beside the state. -/
inductive Run (lowercase : Text → Text) (allowed : FileManager → Op → Prop) (start : FileManager) :
    FileManager → Chosen → Prop where
  | start : Run lowercase allowed start start (.standing start)
  | step {s s' : FileManager} {chosen : Chosen} {op : Op} {action : FileAction}
    (run : Run lowercase allowed start s chosen) (permitted : allowed s op)
    (stepped : s.step lowercase op = some (action, s')) : Run lowercase allowed start s' (chosen.next s op)

variable {allowed : FileManager → Op → Prop} {start : FileManager}

/-- The choices with the standing selection in place of the one that armed a deletion. -/
theorem Run.prompted (run : Run lowercase allowed start s chosen) : Meant s { chosen with armed := s.selectedPath } := by
  induction run with
  | start => exact meant_standing start
  | @step s s' chosen op action _ _ stepped ih =>
    refine ⟨fun _ => rfl, fun prompt found => ?_⟩
    have kept := (step_spec ih stepped).2.1 prompt found
    have same : (Chosen.next { chosen with armed := s.selectedPath } s op).prompted = (chosen.next s op).prompted := by
      cases op with
      | handle input =>
        rw [Chosen.next, Chosen.next]
        cases s.rows with
        | none => rfl
        | some rows =>
          dsimp only
          split_ifs
          · rfl
          · rw [Chosen.key.eq_def, Chosen.key.eq_def]
            split <;> rfl
      | _ => rfl
    rwa [same] at kept

/-- In any run a rename and a creation hit what the latest prompt was opened for. -/
theorem Run.hits_prompted (run : Run lowercase allowed start s chosen) (stepped : s.step lowercase op = some (action, s'))
    (kept : ∀ path, action ≠ .mutate (.delete path)) : Hits chosen action := by
  have hits := (step_spec run.prompted stepped).1
  cases action with
  | mutate operation =>
    cases operation with
    | delete path => exact absurd rfl (kept path)
    | _ => exact hits
  | _ => trivial

/-- Operations that do not move an armed deletion. -/
def KeepsArmed (lowercase : Text → Text) (s : FileManager) (op : Op) : Prop := s.confirmDelete = true → Steady lowercase s op

theorem Run.meant (run : Run lowercase (KeepsArmed lowercase) start s chosen) : Meant s chosen := by
  induction run with
  | start => exact meant_standing start
  | step _ steady stepped ih => exact (step_spec ih stepped).2.2 steady

/-- In a run that moves no armed deletion, every operation hits what was chosen: a deletion the row that was selected when
it was armed, a rename and a creation what the latest prompt was opened for. -/
theorem Run.hits_chosen (run : Run lowercase (KeepsArmed lowercase) start s chosen)
    (stepped : s.step lowercase op = some (action, s')) : Hits chosen action :=
  (step_spec run.meant stepped).1

section Sample

def sampleFile (name : Text) : FileEntry := ⟨name, ['/', 'p', '/'] ++ name, false, false, none⟩

/-- A project of two files, the first of which is selected. -/
def sample : FileManager :=
  { new 1 ['/', 'p'] with listings := [(['/', 'p'], [sampleFile ['a'], sampleFile ['b']])], focused := true }

/-- A deletion of the first file, armed. -/
def sampleArmed : FileManager := { sample with confirmDelete := true }

/-- What the listings of the directory may be when the confirmation comes. -/
def sampleKept : FileManager :=
  { sampleArmed with
    selected := 1
    listings := [(['/', 'p'], [sampleFile ['0'], sampleFile ['a'], sampleFile ['b']])] }

def sampleMoved : FileManager := { sampleArmed with listings := [(['/', 'p'], [sampleFile ['b']])] }

private theorem run_sampleArmed (allowed : FileManager → Op → Prop) (permitted : allowed sample (.handle [0x64])) :
    Run id allowed sample sampleArmed ⟨some ['/', 'p', '/', 'a'], none⟩ := by
  have stepped : sample.step id (.handle [0x64]) = some (.redraw, sampleArmed) := rfl
  exact .step .start permitted stepped

private theorem stepped_sampleKept :
    sampleArmed.step id (.finishListing 1 ['/', 'p'] [sampleFile ['0'], sampleFile ['a'], sampleFile ['b']] false none) =
      some (.none, sampleKept) := by
  have sorted : sortEntries id sampleArmed.sort [sampleFile ['0'], sampleFile ['a'], sampleFile ['b']] =
      [sampleFile ['0'], sampleFile ['a'], sampleFile ['b']] := List.mergeSort_of_pairwise (by decide)
  simp only [step, finishListing, listed, sorted]
  rfl

private theorem stepped_sampleMoved :
    sampleArmed.step id (.finishListing 1 ['/', 'p'] [sampleFile ['b']] false none) = some (.none, sampleMoved) := by
  have sorted : sortEntries id sampleArmed.sort [sampleFile ['b']] = [sampleFile ['b']] := List.mergeSort_singleton _
  simp only [step, finishListing, listed, sorted]
  rfl

/-- A new file above the selected one moves no deletion. -/
theorem hits_sampleKept : ∃ s', sampleKept.step id (.handle [0x0d]) = some (.mutate (.delete ['/', 'p', '/', 'a']), s') ∧
    Hits ⟨some ['/', 'p', '/', 'a'], none⟩ (.mutate (.delete ['/', 'p', '/', 'a'])) := by
  have armed := run_sampleArmed (KeepsArmed id) fun _ => trivial
  have stays : KeepsArmed id sampleArmed
      (.finishListing 1 ['/', 'p'] [sampleFile ['0'], sampleFile ['a'], sampleFile ['b']] false none) := by
    have kept : sampleKept.selectedPath = sampleArmed.selectedPath := rfl
    have listed := stepped_sampleKept
    rw [step, Option.map_eq_some_iff] at listed
    obtain ⟨_, listed, same⟩ := listed
    obtain ⟨-, rfl⟩ := Prod.mk.inj same
    exact fun _ => (finishListing_spec listed).1.mp kept
  have stepped : sampleKept.step id (.handle [0x0d]) =
      some (.mutate (.delete ['/', 'p', '/', 'a']), { sampleKept with confirmDelete := false }) := rfl
  exact ⟨_, stepped, (armed.step stays stepped_sampleKept).hits_chosen stepped⟩

/-- A listing without the selected file lets the confirmation delete the other one. -/
theorem not_hits_sampleMoved : ∃ s', Run id (fun _ _ => True) sample sampleMoved ⟨some ['/', 'p', '/', 'a'], none⟩ ∧
    sampleMoved.step id (.handle [0x0d]) = some (.mutate (.delete ['/', 'p', '/', 'b']), s') ∧
    ¬ Hits ⟨some ['/', 'p', '/', 'a'], none⟩ (.mutate (.delete ['/', 'p', '/', 'b'])) := by
  have armed := run_sampleArmed (fun _ _ => True) trivial
  have stepped : sampleMoved.step id (.handle [0x0d]) =
      some (.mutate (.delete ['/', 'p', '/', 'b']), { sampleMoved with confirmDelete := false }) := rfl
  refine ⟨_, armed.step trivial stepped_sampleMoved, stepped, ?_⟩
  rw [Hits]
  decide

end Sample

end Runs

end Uniterm.Model.FileManager
