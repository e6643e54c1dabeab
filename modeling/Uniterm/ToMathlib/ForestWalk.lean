import Mathlib.Data.List.Basic
import Mathlib.Data.List.Nodup
import Mathlib.Data.List.Range
import Mathlib.Order.Nat
import Uniterm.ToMathlib.MapAccum

/-! # Walking the forest of a partial parent function

Nodes are the indices of a list of parents, which may name any of them: a parent may come later, and parents may
form cycles. A depth-first walk from the roots and then from every index lists each node once, and each node that
is not a start of the walk right inside its parent's subtree.
-/

namespace Uniterm.ToMathlib

variable {τ υ : Type*}

/-- A partial map that is defined on every element. -/
theorem mapM_of_forall {α β : Type*} {f : α → Option β} (as : List α) (defined : ∀ a ∈ as, ∃ b, f a = some b) :
    ∃ bs, as.mapM f = some bs ∧ List.Forall₂ (fun a b => f a = some b) as bs := by
  induction as with
  | nil => exact ⟨[], rfl, .nil⟩
  | cons a as ih =>
    obtain ⟨b, head⟩ := defined a (List.mem_cons_self ..)
    obtain ⟨bs, rest, related⟩ := ih fun a member => defined a (.tail _ member)
    exact ⟨b :: bs, by rw [List.mapM_cons, head, rest]; rfl, .cons head related⟩

/-- Record a node below its parent, or among the roots. -/
def link (links : List (List ℕ) × List ℕ) (node : Option ℕ × ℕ) : List (List ℕ) × List ℕ :=
  match node.1 with
  | some parent => (links.1.modify parent (· ++ [node.2]), links.2)
  | none => (links.1, links.2 ++ [node.2])

/-- The children of each node in their order, and the nodes without a parent. -/
def linkChildren (parents : List (Option ℕ)) : List (List ℕ) × List ℕ :=
  parents.zipIdx.foldl link (List.replicate parents.length [], [])

theorem count_set_lt {visited : List Bool} {index : ℕ} (fresh : visited[index]? = some false) :
    (visited.set index true).count false < visited.count false := by
  obtain ⟨inside, value⟩ := List.getElem?_eq_some_iff.mp fresh
  have positive : 0 < visited.count false := List.count_pos_iff.mpr (value ▸ List.getElem_mem inside)
  rw [List.count_set inside, value]
  have other : (true == false) = false := rfl
  rw [other, beq_self_eq_true, if_pos rfl, if_neg Bool.false_ne_true]
  omega

/-- Nodes with one tag. -/
def tagged (nodes : List ℕ) (tag : τ) : List (ℕ × τ) := nodes.map (·, tag)

/-- Pop a node and push its children, the first one on top, until the stack is empty. The rows carry tags: a child's
tag derives from its parent's and from the position of its parent's row. -/
def walk (children : List (List ℕ)) (below : ℕ → τ → τ) (stack : List (ℕ × τ)) (visited : List Bool)
    (rows : List (ℕ × τ)) : Option (List Bool × List (ℕ × τ)) :=
  match stack with
  | [] => some (visited, rows)
  | (index, tag) :: stack =>
    match _fresh : visited[index]?, children[index]? with
    | some true, _ => walk children below stack visited rows
    | some false, some inner =>
      walk children below (tagged inner (below rows.length tag) ++ stack) (visited.set index true)
        (rows ++ [(index, tag)])
    | _, _ => none
termination_by (visited.count false, stack.length)
decreasing_by
  · exact Prod.Lex.right _ (Nat.lt_succ_self _)
  · exact Prod.Lex.left _ _ (count_set_lt _fresh)

/-- The walk from every root, and then from every node to cover the cycles. -/
def walkForest (parents : List (Option ℕ)) (below : ℕ → τ → τ) (top : τ) : Option (List (ℕ × τ)) :=
  (((linkChildren parents).2 ++ List.range parents.length).foldlM
    (fun (visited, rows) root => walk (linkChildren parents).1 below [(root, top)] visited rows)
    (List.replicate parents.length false, [])).map Prod.snd

/-- The origin and the depth of a child. -/
def descend (position : ℕ) (tag : Option ℕ × ℕ) : Option ℕ × ℕ := (some position, tag.2 + 1)

section Links

/-- The children lists name only children, and the roots have no parent. -/
structure Linked (parents : List (Option ℕ)) (links : List (List ℕ) × List ℕ) : Prop where
  length : links.1.length = parents.length
  child : ∀ (index : ℕ) (inner : List ℕ), links.1[index]? = some inner → ∀ c ∈ inner, parents[c]? = some (some index)
  root : ∀ r ∈ links.2, parents[r]? = some none

variable {parents : List (Option ℕ)} {links : List (List ℕ) × List ℕ}

theorem Linked.link (linked : Linked parents links) {node : Option ℕ × ℕ} (own : parents[node.2]? = some node.1) :
    Linked parents (link links node) := by
  obtain ⟨parent, index⟩ := node
  cases parent with
  | none =>
    refine ⟨linked.length, linked.child, fun r member => ?_⟩
    rcases List.mem_append.mp member with member | member
    · exact linked.root r member
    · exact List.mem_singleton.mp member ▸ own
  | some parent =>
    refine ⟨(List.length_modify ..).trans linked.length, fun above inner found c member => ?_, linked.root⟩
    rw [ToMathlib.link, List.getElem?_modify] at found
    cases before : links.1[above]? with
    | none => simp [before] at found
    | some old =>
      rw [before] at found
      obtain rfl := Option.some.inj found
      split at member
      next same =>
        rcases List.mem_append.mp member with member | member
        · exact linked.child above old before c member
        · exact same ▸ List.mem_singleton.mp member ▸ own
      next => exact linked.child above old before c member

theorem linked_linkChildren (parents : List (Option ℕ)) : Linked parents (linkChildren parents) := by
  suffices fold : ∀ nodes : List (Option ℕ × ℕ), (∀ node ∈ nodes, parents[node.2]? = some node.1) →
      ∀ links, Linked parents links → Linked parents (nodes.foldl link links) by
    refine fold _ (fun node member => List.mem_zipIdx_iff_getElem?.mp member) _
      ⟨List.length_replicate, fun index inner found c member => ?_, fun r member => absurd member List.not_mem_nil⟩
    obtain ⟨_, rfl⟩ := List.getElem?_eq_some_iff.mp found
    simp at member
  intro nodes own links linked
  induction nodes generalizing links with
  | nil => exact linked
  | cons node nodes ih =>
    exact ih (fun node member => own node (.tail _ member)) _ (linked.link (own node (List.mem_cons_self ..)))

end Links

section Placement

/-- A node without an origin starts at depth zero, and another one is a child, one deeper, of the node in its origin's
row, all of whose later rows so far are inside the subtree. -/
def Placed (parents : List (Option ℕ)) (rows : List (ℕ × Option ℕ × ℕ)) (node : ℕ) : Option ℕ × ℕ → Prop
  | (none, depth) => depth = 0
  | (some origin, depth) => ∃ parent tag, rows[origin]? = some (parent, tag) ∧
      parents[node]? = some (some parent) ∧ depth = tag.2 + 1 ∧
      ∀ (j : ℕ) row, origin < j → rows[j]? = some row → ∃ inner, row.2.1 = some inner ∧ origin ≤ inner

/-- Every row is placed among the earlier ones. -/
def Forest (parents : List (Option ℕ)) (rows : List (ℕ × Option ℕ × ℕ)) : Prop :=
  ∀ (i : ℕ) node tag, rows[i]? = some (node, tag) → Placed parents (rows.take i) node tag

/-- One origin is at or below another. -/
def Within (inner outer : Option ℕ) : Prop := ∀ o, outer = some o → ∃ i, inner = some i ∧ o ≤ i

variable {parents : List (Option ℕ)} {rows : List (ℕ × Option ℕ × ℕ)} {node : ℕ} {tag : Option ℕ × ℕ}

/-- A pending node stays placed while rows are added inside its origin's subtree. -/
theorem Placed.push (placed : Placed parents rows node tag) {row : ℕ × Option ℕ × ℕ} (inside : Within row.2.1 tag.1) :
    Placed parents (rows ++ [row]) node tag := by
  obtain ⟨origin, depth⟩ := tag
  cases origin with
  | none => exact placed
  | some origin =>
    obtain ⟨parent, above, found, own, deeper, subtree⟩ := placed
    have lt := (List.getElem?_eq_some_iff.mp found).1
    refine ⟨parent, above, by rw [List.getElem?_append_left lt, found], own, deeper, fun j row' later found' => ?_⟩
    rcases Nat.lt_or_ge j rows.length with inside' | outside
    · rw [List.getElem?_append_left inside'] at found'
      exact subtree j row' later found'
    · rw [List.getElem?_append_right outside] at found'
      obtain rfl := List.mem_singleton.mp (List.mem_of_getElem? found')
      exact inside origin rfl

theorem Forest.push (forest : Forest parents rows) (placed : Placed parents rows node tag) :
    Forest parents (rows ++ [(node, tag)]) := by
  intro i node' tag' found
  rcases Nat.lt_or_ge i rows.length with inside | outside
  · rw [List.getElem?_append_left inside] at found
    rw [List.take_append_of_le_length inside.le]
    exact forest i node' tag' found
  · have last : i = rows.length := by
      have := (List.getElem?_eq_some_iff.mp found).1
      rw [List.length_append, List.length_singleton] at this
      omega
    subst last
    rw [List.getElem?_concat_length] at found
    obtain ⟨⟩ := Option.some.inj found
    rw [List.take_left]
    exact placed

/-- A row with an origin, read in the whole forest. -/
theorem Forest.row (forest : Forest parents rows) {i origin depth : ℕ} (found : rows[i]? = some (node, some origin, depth)) :
    ∃ parent tag, origin < i ∧ rows[origin]? = some (parent, tag) ∧ parents[node]? = some (some parent) ∧
      depth = tag.2 + 1 ∧
      ∀ (j : ℕ) row, origin < j → j < i → rows[j]? = some row → ∃ inner, row.2.1 = some inner ∧ origin ≤ inner := by
  obtain ⟨parent, tag, above, own, deeper, subtree⟩ := forest i node _ found
  have before := (List.getElem?_eq_some_iff.mp above).1
  rw [List.length_take] at before
  rw [List.getElem?_take_of_lt (by omega)] at above
  exact ⟨parent, tag, by omega, above, own, deeper, fun j row later earlier found' =>
    subtree j row later (by rw [List.getElem?_take_of_lt earlier, found'])⟩

theorem Forest.depth_zero (forest : Forest parents rows) {i depth : ℕ} (found : rows[i]? = some (node, none, depth)) :
    depth = 0 := forest i node _ found

/-- The rows between an origin and a row below it are deeper than the origin. -/
theorem Forest.deeper (forest : Forest parents rows) {origin : ℕ} {above : ℕ × Option ℕ × ℕ}
    (atOrigin : rows[origin]? = some above) {i : ℕ}
    (inside : ∀ (j : ℕ) row, origin < j → j < i → rows[j]? = some row → ∃ inner, row.2.1 = some inner ∧ origin ≤ inner) :
    ∀ (j : ℕ) row, origin < j → j < i → rows[j]? = some row → above.2.2 < row.2.2 := by
  intro j
  induction j using Nat.strong_induction_on with
  | _ j ih =>
    intro row later earlier found
    obtain ⟨inner, own, le⟩ := inside j row later earlier found
    obtain ⟨node, origin', depth⟩ := row
    obtain rfl : origin' = some inner := own
    obtain ⟨parent, tag, lt, atInner, _, deeper, _⟩ := forest.row found
    rcases Nat.eq_or_lt_of_le le with rfl | further
    · obtain rfl : above = (parent, tag) := Option.some.inj (atOrigin.symm.trans atInner)
      exact deeper ▸ Nat.lt_succ_self _
    · have := ih inner lt _ further (lt.trans earlier) atInner
      exact this.trans (deeper ▸ Nat.lt_succ_self _)

end Placement

section Walk

/-- What the walk keeps: the rows form a forest and are exactly the visited nodes, and the pending nodes are placed,
the innermost ones on top. -/
structure Walking (parents : List (Option ℕ)) (stack : List (ℕ × Option ℕ × ℕ)) (visited : List Bool)
    (rows : List (ℕ × Option ℕ × ℕ)) : Prop where
  forest : Forest parents rows
  once : (rows.map Prod.fst).Nodup
  length : visited.length = parents.length
  marked : ∀ i, visited[i]? = some true ↔ i ∈ rows.map Prod.fst
  placed : ∀ pending ∈ stack, pending.1 < parents.length ∧ Placed parents rows pending.1 pending.2
  nested : stack.Pairwise fun upper lower => Within upper.2.1 lower.2.1

variable {parents : List (Option ℕ)} {children : List (List ℕ)} {stack : List (ℕ × Option ℕ × ℕ)}
  {visited : List Bool} {rows : List (ℕ × Option ℕ × ℕ)} {index : ℕ} {tag : Option ℕ × ℕ}

theorem Walking.skip (walking : Walking parents ((index, tag) :: stack) visited rows) :
    Walking parents stack visited rows :=
  { walking with
    placed := fun pending member => walking.placed pending (.tail _ member)
    nested := walking.nested.of_cons }

/-- Visiting a node. -/
theorem Walking.visit (walking : Walking parents ((index, tag) :: stack) visited rows)
    (fresh : visited[index]? = some false) {inner : List ℕ} (below : ∀ c ∈ inner, parents[c]? = some (some index)) :
    Walking parents (tagged inner (descend rows.length tag) ++ stack) (visited.set index true)
      (rows ++ [(index, tag)]) := by
  obtain ⟨inside, placed⟩ := walking.placed (index, tag) (List.mem_cons_self ..)
  have bounded : ∀ pending ∈ stack, ∀ o, pending.2.1 = some o → o < rows.length := by
    intro pending member o origin
    obtain ⟨_, placed⟩ := walking.placed pending (.tail _ member)
    obtain ⟨node, origin', depth⟩ := pending
    obtain rfl : origin' = some o := origin
    obtain ⟨_, _, found, _⟩ := placed
    exact (List.getElem?_eq_some_iff.mp found).1
  refine ⟨walking.forest.push placed, ?once, (List.length_set ..).trans walking.length, ?marked, ?placed, ?nested⟩
  case once =>
    rw [List.map_append, List.map_singleton, List.nodup_append]
    refine ⟨walking.once, List.nodup_singleton _, fun a member b single same => ?_⟩
    obtain rfl := List.mem_singleton.mp single
    obtain rfl := same
    have := (walking.marked _).mpr member
    rw [fresh] at this
    exact absurd this (by simp)
  case marked =>
    intro i
    rw [List.map_append, List.map_singleton, List.mem_append, List.mem_singleton, ← walking.marked i,
      List.getElem?_set]
    by_cases same : index = i
    · subst same
      simp [(List.getElem?_eq_some_iff.mp fresh).1]
    · simp [same, Ne.symm same]
  case placed =>
    intro pending member
    rcases List.mem_append.mp member with child | waiting
    · obtain ⟨c, inside', rfl⟩ := List.mem_map.mp child
      have own := below c inside'
      refine ⟨(List.getElem?_eq_some_iff.mp own).1, index, tag, List.getElem?_concat_length, own, rfl, ?_⟩
      intro j row later found
      have := (List.getElem?_eq_some_iff.mp found).1
      rw [List.length_append, List.length_singleton] at this
      omega
    · obtain ⟨inside, placed⟩ := walking.placed pending (.tail _ waiting)
      exact ⟨inside, placed.push (List.rel_of_pairwise_cons walking.nested waiting)⟩
  case nested =>
    rw [List.pairwise_append]
    refine ⟨?_, walking.nested.of_cons, fun upper child lower waiting o origin => ?_⟩
    · rw [tagged, List.pairwise_map]
      exact List.pairwise_of_forall fun _ _ o origin => ⟨o, origin, le_rfl⟩
    · obtain ⟨c, _, rfl⟩ := List.mem_map.mp child
      exact ⟨rows.length, rfl, (bounded lower waiting o origin).le⟩

/-- The walk ends, keeps the rows that it found, and leaves no pending node unvisited. -/
theorem Walking.walk {links : List (List ℕ) × List ℕ} (linked : Linked parents links)
    (walking : Walking parents stack visited rows) :
    ∃ visited' more, ToMathlib.walk links.1 descend stack visited rows = some (visited', rows ++ more) ∧
      Walking parents [] visited' (rows ++ more) ∧ ∀ pending ∈ stack, pending.1 ∈ (rows ++ more).map Prod.fst := by
  fun_induction ToMathlib.walk links.1 descend stack visited rows with
  | case1 visited rows =>
    exact ⟨visited, [], by rw [List.append_nil], by rwa [List.append_nil], fun _ member => absurd member List.not_mem_nil⟩
  | case2 visited rows index tag stack seen ih =>
    obtain ⟨visited', more, ends, walked, covered⟩ := ih walking.skip
    refine ⟨visited', more, ends, walked, fun pending member => ?_⟩
    rcases List.mem_cons.mp member with rfl | member
    · rw [List.map_append]
      exact List.mem_append_left _ ((walking.marked index).mp seen)
    · exact covered pending member
  | case3 visited rows index tag stack inner fresh found ih =>
    obtain ⟨visited', more, ends, walked, covered⟩ := ih (walking.visit fresh (linked.child index inner found))
    refine ⟨visited', (index, tag) :: more, ?_⟩
    rw [List.append_cons rows (index, tag) more]
    refine ⟨ends, walked, fun pending member => ?_⟩
    rcases List.mem_cons.mp member with rfl | member
    · simp
    · exact covered pending (List.mem_append_right _ member)
  | case4 visited rows index tag stack unseen broken =>
    -- every pending node has a mark and a list of children
    obtain ⟨inside, _⟩ := walking.placed (index, tag) (List.mem_cons_self ..)
    cases mark : visited[index]? with
    | none => exact absurd (List.getElem?_eq_none_iff.mp mark) (by rw [walking.length]; omega)
    | some seen =>
      cases seen with
      | true => exact absurd mark unseen
      | false =>
        cases found : links.1[index]? with
        | none => exact absurd (List.getElem?_eq_none_iff.mp found) (by rw [linked.length]; omega)
        | some inner => exact (broken inner mark found).elim

/-- The walk from a list of starts. -/
theorem Walking.starts {links : List (List ℕ) × List ℕ} (linked : Linked parents links)
    (walking : Walking parents [] visited rows) (starts : List ℕ) (inside : ∀ start ∈ starts, start < parents.length) :
    ∃ visited' more, starts.foldlM (fun (visited, rows) root => ToMathlib.walk links.1 descend [(root, none, 0)] visited rows)
        (visited, rows) = some (visited', rows ++ more) ∧
      Walking parents [] visited' (rows ++ more) ∧ ∀ start ∈ starts, start ∈ (rows ++ more).map Prod.fst := by
  induction starts generalizing visited rows with
  | nil => exact ⟨visited, [], by rw [List.append_nil]; rfl, by rwa [List.append_nil], by simp⟩
  | cons start starts ih =>
    have ready : Walking parents [(start, none, 0)] visited rows :=
      { walking with
        placed := fun pending member => by
          obtain rfl := List.mem_singleton.mp member
          exact ⟨inside start (List.mem_cons_self ..), rfl⟩
        nested := List.pairwise_singleton .. }
    obtain ⟨visited', more, ends, walked, covered⟩ := ready.walk linked
    obtain ⟨visited'', more', ends', walked', covered'⟩ :=
      ih walked fun start member => inside start (.tail _ member)
    refine ⟨visited'', more ++ more', ?_, ?_, fun start' member => ?_⟩
    · rw [List.foldlM_cons]
      exact (congrArg (· >>= _) ends).trans (ends'.trans (by rw [List.append_assoc]))
    · rwa [← List.append_assoc]
    · rw [← List.append_assoc]
      rcases List.mem_cons.mp member with rfl | member
      · rw [List.map_append]
        exact List.mem_append_left _ (covered _ (List.mem_singleton_self _))
      · exact covered' start' member

/-- The walk always ends, and lists each node once, in the order of a forest. -/
theorem walkForest_forest (parents : List (Option ℕ)) :
    ∃ rows, walkForest parents descend (none, 0) = some rows ∧ Forest parents rows ∧
      (rows.map Prod.fst).Perm (List.range parents.length) := by
  have linked := linked_linkChildren parents
  have empty : Walking parents [] (List.replicate parents.length false) [] :=
    ⟨fun _ _ _ found => absurd found (by simp), List.nodup_nil, List.length_replicate,
      fun i => by simp [List.getElem?_replicate], fun _ member => absurd member List.not_mem_nil, .nil⟩
  obtain ⟨visited, rows, ends, walked, covered⟩ :=
    empty.starts linked ((linkChildren parents).2 ++ List.range parents.length) fun start member => by
      rcases List.mem_append.mp member with root | index
      · exact (List.getElem?_eq_some_iff.mp (linked.root start root)).1
      · exact List.mem_range.mp index
  rw [List.nil_append] at ends walked covered
  refine ⟨rows, by rw [walkForest, ends]; rfl, walked.forest, ?_⟩
  rw [List.perm_ext_iff_of_nodup walked.once List.nodup_range]
  intro node
  constructor
  · intro member
    have := (List.getElem?_eq_some_iff.mp ((walked.marked node).mpr member)).1
    exact List.mem_range.mpr (walked.length ▸ this)
  · exact fun member => covered node (List.mem_append_right _ member)

end Walk

section Rows

variable {α β : Type*} {nodes : List α} {visits : List (ℕ × τ)} {rows : List β} {node : β → α}

/-- When each index is visited once, the rows of the visits show each node once. -/
theorem perm_of_visits (shown : List.Forall₂ (fun visit row => nodes[visit.1]? = some (node row)) visits rows)
    (once : (visits.map Prod.fst).Perm (List.range nodes.length)) : (rows.map node).Perm nodes := by
  have visited : (visits.map Prod.fst).filterMap (nodes[·]?) = rows.map node := by
    clear once
    induction shown with
    | nil => rfl
    | cons head _ ih => rw [List.map_cons, List.filterMap_cons, head, ih, List.map_cons]
  have all : (List.range nodes.length).filterMap (nodes[·]?) = nodes := by
    have mapped : (List.range nodes.length).map (nodes[·]?) = nodes.map some :=
      List.ext_getElem (by simp) fun i inside _ => by simp
    calc (List.range nodes.length).filterMap (nodes[·]?)
        = ((List.range nodes.length).map (nodes[·]?)).filterMap id := by rw [List.filterMap_map]; rfl
      _ = nodes := by rw [mapped, List.filterMap_map]; exact List.filterMap_some
  rw [← visited]
  exact (once.filterMap _).trans (.of_eq all)

/-- What two lists say of each other, they say of each other at every visit. -/
theorem forall₂_of_visits {γ : Type*} {parts : List γ} {shares : List γ} {rel : γ → α → Prop}
    (related : List.Forall₂ rel parts nodes)
    (taken : List.Forall₂ (fun visit share => parts[visit.1]? = some share) visits shares)
    (shown : List.Forall₂ (fun visit row => nodes[visit.1]? = some (node row)) visits rows) :
    List.Forall₂ (fun share row => rel share (node row)) shares rows := by
  induction taken generalizing rows with
  | nil =>
    cases shown
    exact .nil
  | @cons visit share _ _ part _ ih =>
    cases shown with
    | @cons _ row _ _ atRow rest =>
      refine .cons ?_ (ih rest)
      rcases getElem?_of_forall₂ related visit.1 with ⟨absent, _⟩ | ⟨_, _, part', atRow', rel⟩
      · exact absurd (part.symm.trans absent) (by simp)
      · obtain rfl := Option.some.inj (part.symm.trans part')
        obtain rfl := Option.some.inj (atRow.symm.trans atRow')
        exact rel

end Rows

section Tags

variable {f : τ → υ} {below : ℕ → τ → τ} {below' : ℕ → υ → υ} {children : List (List ℕ)}

theorem walk_seen {stack : List (ℕ × τ)} {visited : List Bool} {rows : List (ℕ × τ)} {index : ℕ} {tag : τ}
    (seen : visited[index]? = some true) :
    walk children below ((index, tag) :: stack) visited rows = walk children below stack visited rows := by
  rw [walk]
  split <;> simp_all

theorem walk_fresh {stack : List (ℕ × τ)} {visited : List Bool} {rows : List (ℕ × τ)} {index : ℕ} {tag : τ}
    {inner : List ℕ} (fresh : visited[index]? = some false) (found : children[index]? = some inner) :
    walk children below ((index, tag) :: stack) visited rows =
      walk children below (tagged inner (below rows.length tag) ++ stack) (visited.set index true)
        (rows ++ [(index, tag)]) := by
  rw [walk]
  split <;> simp_all

/-- Tags that are read off other tags do not change the walk. -/
theorem walk_map (children : List (List ℕ)) (commutes : ∀ position tag, f (below position tag) = below' position (f tag))
    (stack : List (ℕ × τ)) (visited : List Bool) (rows : List (ℕ × τ)) :
    walk children below' (stack.map (Prod.map id f)) visited (rows.map (Prod.map id f)) =
      (walk children below stack visited rows).map (Prod.map id (List.map (Prod.map id f))) := by
  fun_induction walk children below stack visited rows with
  | case1 visited rows =>
    rw [List.map_nil, walk]
    rfl
  | case2 visited rows index tag stack seen ih =>
    rw [List.map_cons, Prod.map_apply, id_eq, walk_seen seen]
    exact ih
  | case3 visited rows index tag stack inner fresh found ih =>
    rw [List.map_cons, Prod.map_apply, id_eq, walk_fresh fresh found, List.length_map, ← commutes]
    rw [List.map_append, List.map_append, tagged, List.map_map] at ih
    exact ih
  | case4 visited rows index tag stack unseen broken =>
    rw [List.map_cons, Prod.map_apply, walk]
    split
    next seen => exact absurd seen unseen
    next inner fresh found => exact (broken inner fresh found).elim
    next => rfl

theorem walkForest_map (commutes : ∀ position tag, f (below position tag) = below' position (f tag))
    (parents : List (Option ℕ)) (top : τ) :
    walkForest parents below' (f top) = (walkForest parents below top).map (List.map (Prod.map id f)) := by
  have fold (starts : List ℕ) (visited : List Bool) (rows : List (ℕ × τ)) :
      starts.foldlM (fun (visited, rows) root => walk (linkChildren parents).1 below' [(root, f top)] visited rows)
          (visited, rows.map (Prod.map id f)) =
        (starts.foldlM (fun (visited, rows) root => walk (linkChildren parents).1 below [(root, top)] visited rows)
          (visited, rows)).map (Prod.map id (List.map (Prod.map id f))) := by
    induction starts generalizing visited rows with
    | nil => rfl
    | cons start starts ih =>
      have first := walk_map (linkChildren parents).1 commutes [(start, top)] visited rows
      rw [List.foldlM_cons, List.foldlM_cons]
      refine (congrArg (· >>= _) first).trans ?_
      dsimp only
      cases walk (linkChildren parents).1 below [(start, top)] visited rows with
      | none => rfl
      | some reached => exact ih reached.1 reached.2
  rw [walkForest, walkForest, Option.map_map]
  exact (congrArg (Option.map Prod.snd) (fold _ _ [])).trans (Option.map_map ..)

end Tags

end Uniterm.ToMathlib
