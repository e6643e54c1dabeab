import Uniterm.Model.Timeline.Forest
import Uniterm.Soundness.Timeline.Spans
import Uniterm.ToMathlib.ListGroups

/-! # Agent forests

The nodes of a day are merged first: each invocation and each session has one node. Whatever ancestry the nodes
record, the walk lists each of them once, below its parent or as a start.
-/

namespace Uniterm.Model.Timeline

open Model ToMathlib

/-- The launch forest of a day: one node for each invocation of a pane agent, every parent before its children. -/
structure LaunchForest (entries : List TimelineEntry) (rows : List AgentFlowNode) : Prop where
  once : (rows.map (·.span.last.invocation)).Nodup
  known : ∀ row ∈ rows, row.span.last.invocation.isSome
  cards : ∀ invocation, some invocation ∈ rows.map (·.span.last.invocation) ↔
    ∃ entry ∈ entries, entry.cardInvocation = some invocation
  start : ∀ row ∈ rows, row.parent = none → row.depth = 0
  parent : ∀ (i : ℕ) row p, rows[i]? = some row → row.parent = some p → ∃ above, p < i ∧ rows[p]? = some above ∧
    row.depth = above.depth + 1 ∧ row.span.last.parentInvocation = above.span.last.invocation ∧
    sameOrUnknown above.span.last.context.project row.span.last.context.project
  missing : ∀ row ∈ rows, row.parentMissing ↔ row.parent = none ∧ row.span.last.parentInvocation.isSome

/-- A segment that belongs to a node of the session forest. -/
def TimelineSpan.Qualifies (span : TimelineSpan) : Prop := span.last.kind = .agent ∧ span.last.provider ≠ []

instance : DecidablePred TimelineSpan.Qualifies := fun _ => inferInstanceAs (Decidable (_ ∧ _))

/-- Two segments are of one session or of one invocation. -/
def TimelineSpan.Related (span other : TimelineSpan) : Prop :=
  (∃ key, span.last.sessionKey = some key ∧ other.last.sessionKey = some key) ∨
    ∃ invocation, span.last.invocation = some invocation ∧ other.last.invocation = some invocation

/-- A node gathers segments: each is related to one before it, and the node shows the latest observation of them with
the ancestry that any of them has recorded. -/
structure Gathers (group : List TimelineSpan) (node : TimelineSpan) : Prop where
  linked : ∀ earlier span later, group = earlier ++ span :: later → earlier ≠ [] → ∃ other ∈ earlier, span.Related other
  counted : node.observations = (group.map (·.observations)).sum
  first : (∃ span ∈ group, span.firstMs = node.firstMs) ∧ ∀ span ∈ group, node.firstMs ≤ span.firstMs
  last : ∃ span ∈ group, node.last = { span.last with parentSessionId := node.last.parentSessionId } ∧
    (∀ other ∈ group, other.last.sequence ≤ span.last.sequence) ∧
    (span.last.parentSessionId.isSome → node.last.parentSessionId = span.last.parentSessionId)
  recorded : ∀ parent, node.last.parentSessionId = some parent → ∃ span ∈ group, span.last.parentSessionId = some parent
  kept : ∀ span ∈ group, span.last.parentSessionId.isSome → node.last.parentSessionId.isSome

/-- The session forest of a day in preorder. Every qualifying segment is gathered by one row, the segments of a session
all by the same, and the parent of a row is the latest earlier one with a lower depth. -/
structure SessionForest (entries : List TimelineEntry) (groups : List (List TimelineSpan)) (rows : List AgentTreeRow) :
    Prop where
  covers : groups.flatten.Perm ((spans entries).filter (·.Qualifies))
  gathers : List.Forall₂ (fun group row => Gathers group row.span) groups rows
  apart : ∀ i j key, InGroup groups i (·.last.sessionKey = some key) → InGroup groups j (·.last.sessionKey = some key) →
    i = j
  distinct : (rows.filterMap (·.span.last.sessionKey)).Nodup
  preorder : ∀ (i : ℕ) row, rows[i]? = some row → row.depth = 0 ∨ ∃ o above, o < i ∧ rows[o]? = some above ∧
    row.depth = above.depth + 1 ∧
    (∀ (j : ℕ) between, o < j → j < i → rows[j]? = some between → above.depth < between.depth) ∧
    ∃ key, row.span.last.parentKey = some key ∧ InGroup groups o (·.last.sessionKey = some key)
  missing : ∀ row ∈ rows, row.parentMissing ↔ row.depth = 0 ∧ row.span.last.parentSessionId.isSome

section Cards

/-- Each invocation has one node, and the map of owners names it. -/
structure CardNodes.Tidy (state : CardNodes) (entries : List TimelineEntry) : Prop where
  owner : ∀ invocation k, state.owners.lookup invocation = some k →
    ∃ node, state.nodes[k]? = some node ∧ node.last.invocation = some invocation
  owned : ∀ (k : ℕ) node, state.nodes[k]? = some node →
    ∃ invocation, node.last.invocation = some invocation ∧ state.owners.lookup invocation = some k
  cards : ∀ invocation, (state.owners.lookup invocation).isSome ↔ ∃ e ∈ entries, e.cardInvocation = some invocation

private theorem cardInvocation_eq {entry : TimelineEntry} {invocation : ℕ}
    (card : entry.cardInvocation = some invocation) :
    entry.invocation = some invocation := by
  unfold TimelineEntry.cardInvocation at card
  split at card
  · exact card
  · cases card

private theorem observeCard_invocation (node : TimelineSpan) (entry : TimelineEntry) :
    (node.observeCard entry).last.invocation =
      if entry.sequence > node.last.sequence then entry.invocation else node.last.invocation := by
  unfold TimelineSpan.observeCard TimelineEntry.keepContext
  split
  · dsimp only
    split <;> rfl
  · rfl

variable {state : CardNodes} {entries : List TimelineEntry}

theorem CardNodes.Tidy.add (tidy : state.Tidy entries) (entry : TimelineEntry) :
    (state.add entry).Tidy (entries ++ [entry]) := by
  unfold CardNodes.add
  split
  next other =>
    refine ⟨tidy.owner, tidy.owned, fun v => (tidy.cards v).trans ⟨fun ⟨e, member, card⟩ => ⟨e, by simp [member], card⟩, ?_⟩⟩
    rintro ⟨e, member, card⟩
    rcases List.mem_append.mp member with member | member
    · exact ⟨e, member, card⟩
    · obtain rfl := List.mem_singleton.mp member
      exact absurd (other.symm.trans card) (by simp)
  next invocation card =>
    have seen (v : ℕ) : (∃ e ∈ entries ++ [entry], e.cardInvocation = some v) ↔
        v = invocation ∨ ∃ e ∈ entries, e.cardInvocation = some v := by
      simp [or_and_right, exists_or, card, eq_comm, or_comm]
    split
    next index found =>
      have invocations (k : ℕ) (node : TimelineSpan) (atK : state.nodes[k]? = some node) :
          ∃ node', (state.nodes.modify index fun node =>
              if node.last.sequence = entry.sequence then node else node.observeCard entry)[k]? = some node' ∧
            node'.last.invocation = node.last.invocation := by
        rw [List.getElem?_modify, atK]
        refine ⟨_, rfl, ?_⟩
        split
        next same =>
          -- the node of the invocation keeps it
          obtain ⟨own, atIndex, invocation'⟩ := tidy.owner invocation index found
          obtain rfl : own = node := Option.some.inj (atIndex.symm.trans (same ▸ atK))
          dsimp only
          split
          · rfl
          · rw [observeCard_invocation, cardInvocation_eq card, invocation', ite_self]
        next => rfl
      refine ⟨fun v k owner => ?_, fun k node' atK => ?_, fun v => ?_⟩
      · obtain ⟨node, atK, own⟩ := tidy.owner v k owner
        obtain ⟨node', atK', same⟩ := invocations k node atK
        exact ⟨node', atK', same.trans own⟩
      · cases before : state.nodes[k]? with
        | none => rw [List.getElem?_modify, before] at atK; cases atK
        | some node =>
          obtain ⟨_, atK', same⟩ := invocations k node before
          obtain rfl := Option.some.inj (atK'.symm.trans atK)
          obtain ⟨v, own, owner⟩ := tidy.owned k node before
          exact ⟨v, same.trans own, owner⟩
      · rw [seen, ← tidy.cards v, or_iff_right_of_imp]
        rintro rfl
        rw [found]
        rfl
    next fresh =>
      refine ⟨fun v k owner => ?_, fun k node atK => ?_, fun v => ?_⟩
      · rw [List.lookup_cons] at owner
        split at owner
        next same =>
          obtain rfl := Option.some.inj owner
          obtain rfl := beq_iff_eq.mp same
          exact ⟨.start entry, List.getElem?_concat_length, cardInvocation_eq card⟩
        next =>
          obtain ⟨node, atK, own⟩ := tidy.owner v k owner
          exact ⟨node, by rw [List.getElem?_append_left (List.getElem?_eq_some_iff.mp atK).1, atK], own⟩
      · rcases Nat.lt_or_ge k state.nodes.length with inside | outside
        · rw [List.getElem?_append_left inside] at atK
          obtain ⟨v, own, owner⟩ := tidy.owned k node atK
          have other : v ≠ invocation := by
            rintro rfl
            exact absurd (fresh.symm.trans owner) (by simp)
          exact ⟨v, own, by rw [List.lookup_cons, beq_false_of_ne other]; exact owner⟩
        · rw [List.getElem?_append_right outside, List.getElem?_singleton] at atK
          split at atK
          next last =>
            obtain rfl := Option.some.inj atK
            refine ⟨invocation, cardInvocation_eq card, ?_⟩
            rw [List.lookup_cons, beq_self_eq_true, Nat.le_antisymm (Nat.le_of_sub_eq_zero last) outside]
          next => cases atK
      · rw [seen, ← tidy.cards v, List.lookup_cons]
        by_cases same : v = invocation
        · simp [same]
        · simp [beq_false_of_ne same, same]

private theorem cardNodes_tidy (entries : List TimelineEntry) : (cardNodes entries).Tidy entries := by
  induction entries using List.reverseRecOn with
  | nil => exact ⟨fun _ _ owner => absurd owner (by simp [cardNodes]), fun _ _ found => absurd found (by simp [cardNodes]),
      fun _ => by simp [cardNodes]⟩
  | append_singleton entries entry ih =>
    rw [cardNodes, List.foldl_append]
    exact ih.add entry

theorem CardNodes.Tidy.nodup (tidy : state.Tidy entries) : (state.nodes.map (·.last.invocation)).Nodup := by
  rw [List.Nodup, List.pairwise_map, List.pairwise_iff_getElem]
  intro i j inI inJ lt same
  obtain ⟨v, own, owner⟩ := tidy.owned i _ (List.getElem?_eq_getElem inI)
  obtain ⟨w, own', owner'⟩ := tidy.owned j _ (List.getElem?_eq_getElem inJ)
  rw [own, own'] at same
  obtain rfl := Option.some.inj same
  exact absurd (Option.some.inj (owner.symm.trans owner')) lt.ne

theorem CardNodes.parent_some {index p : ℕ} {node : TimelineSpan} (resolved : state.parent index node = some p) :
    ∃ invocation above, node.last.parentInvocation = some invocation ∧ state.owners.lookup invocation = some p ∧
      state.nodes[p]? = some above ∧ sameOrUnknown above.last.context.project node.last.context.project := by
  obtain ⟨found, compatible⟩ := Option.filter_eq_some_iff.mp resolved
  obtain ⟨invocation, recorded, owner⟩ := Option.bind_eq_some_iff.mp found
  simp only [Bool.and_eq_true] at compatible
  obtain ⟨above, atP, same⟩ := (Option.any_eq_true _ _).mp compatible.2
  exact ⟨invocation, above, recorded, owner, atP, same⟩

/-- The launch forest is well formed for any input. -/
theorem agentFlow_launchForest (entries : List TimelineEntry) :
    ∃ rows, agentFlow entries = some rows ∧ LaunchForest entries rows := by
  have tidy := cardNodes_tidy entries
  set state := cardNodes entries with ofState
  obtain ⟨visits, walked, forest, once⟩ := walkForest_forest (state.nodes.mapIdx state.parent)
  rw [List.length_mapIdx] at once
  obtain ⟨rows, mapped, related⟩ := mapM_of_forall (f := state.row) visits fun visit member => by
    have inside : visit.1 < state.nodes.length := List.mem_range.mp (once.subset (List.mem_map_of_mem member))
    exact ⟨_, by rw [CardNodes.row, List.getElem?_eq_getElem inside]; rfl⟩
  -- what a row says about its visit
  have read : ∀ (i : ℕ) row, rows[i]? = some row → ∃ visit, visits[i]? = some visit ∧ state.row visit = some row := by
    intro i row found
    rcases getElem?_of_forall₂ related i with ⟨_, absent⟩ | ⟨visit, row', atI, atI', same⟩
    · exact absurd (found.symm.trans absent) (by simp)
    · obtain rfl := Option.some.inj (atI'.symm.trans found)
      exact ⟨visit, atI, same⟩
  have shown : (rows.map (·.span)).Perm state.nodes :=
    perm_of_visits (related.imp fun visit row same => by
      obtain ⟨node, found, rfl⟩ := Option.map_eq_some_iff.mp same
      exact found) once
  have spanned : ∀ row ∈ rows, ∃ k : ℕ, state.nodes[k]? = some row.span := fun row member =>
    List.mem_iff_getElem?.mp (shown.subset (List.mem_map_of_mem member))
  refine ⟨rows, ?_, ?once, ?known, ?cards, ?start, ?parent, ?missing⟩
  · rw [agentFlow, ← ofState]
    exact (congrArg (· >>= _) walked).trans mapped
  case once =>
    have once := (shown.map (·.last.invocation)).nodup_iff.mpr tidy.nodup
    rwa [List.map_map] at once
  case known =>
    intro row member
    obtain ⟨k, found⟩ := spanned row member
    obtain ⟨v, own, _⟩ := tidy.owned k row.span found
    rw [own]
    rfl
  case cards =>
    intro v
    rw [← tidy.cards v]
    constructor
    · intro member
      obtain ⟨row, member, own⟩ := List.mem_map.mp member
      obtain ⟨k, found⟩ := spanned row member
      obtain ⟨w, own', owner⟩ := tidy.owned k row.span found
      obtain rfl : v = w := Option.some.inj (own.symm.trans own')
      rw [owner]
      rfl
    · intro card
      obtain ⟨k, owner⟩ := Option.isSome_iff_exists.mp card
      obtain ⟨node, found, own⟩ := tidy.owner v k owner
      obtain ⟨row, member, rfl⟩ := List.mem_map.mp (shown.symm.subset (List.mem_of_getElem? found))
      exact List.mem_map.mpr ⟨row, member, own⟩
  case start =>
    intro row member top
    obtain ⟨i, found⟩ := List.mem_iff_getElem?.mp member
    obtain ⟨⟨k, origin, depth⟩, atI, same⟩ := read i row found
    obtain ⟨node, _, rfl⟩ := Option.map_eq_some_iff.mp same
    obtain rfl : origin = none := top
    exact forest.depth_zero atI
  case parent =>
    intro i row p found own
    obtain ⟨⟨k, origin, depth⟩, atI, same⟩ := read i row found
    obtain ⟨node, atK, rfl⟩ := Option.map_eq_some_iff.mp same
    obtain rfl : origin = some p := own
    obtain ⟨parent, tag, before, atP, resolved, deeper, _⟩ := forest.row atI
    rw [List.getElem?_mapIdx, atK] at resolved
    obtain ⟨v, node', recorded, owner, atParent, compatible⟩ := CardNodes.parent_some (Option.some.inj resolved)
    obtain ⟨node'', atParent', launched⟩ := tidy.owner v parent owner
    obtain rfl : node' = node'' := Option.some.inj (atParent.symm.trans atParent')
    rcases getElem?_of_forall₂ related p with ⟨absent, _⟩ | ⟨visit, above, atP', found', same'⟩
    · exact absurd (atP.symm.trans absent) (by simp)
    · obtain rfl : (parent, tag) = visit := Option.some.inj (atP.symm.trans atP')
      obtain ⟨node'', atParent'', rfl⟩ := Option.map_eq_some_iff.mp same'
      obtain rfl : node' = node'' := Option.some.inj (atParent.symm.trans atParent'')
      exact ⟨_, before, found', deeper, recorded.trans launched.symm, compatible⟩
  case missing =>
    intro row member
    obtain ⟨i, found⟩ := List.mem_iff_getElem?.mp member
    obtain ⟨⟨k, origin, depth⟩, _, same⟩ := read i row found
    obtain ⟨node, _, rfl⟩ := Option.map_eq_some_iff.mp same
    simp [Option.isNone_iff_eq_none]

end Cards

section Sessions

/-- The groups of the nodes so far, and what the two maps know of them. -/
structure SessionNodes.Tidy (state : SessionNodes) (groups : List (List TimelineSpan)) (seen : List TimelineSpan) :
    Prop where
  covers : groups.flatten.Perm (seen.filter (·.Qualifies))
  gathers : List.Forall₂ Gathers groups state.nodes
  sessions : ∀ key k, state.sessions.lookup key = some k ↔ InGroup groups k (·.last.sessionKey = some key)
  invocations : ∀ invocation k, state.invocations.lookup invocation = some k →
    InGroup groups k (·.last.invocation = some invocation)

variable {state : SessionNodes} {groups : List (List TimelineSpan)} {group seen : List TimelineSpan}
  {node span : TimelineSpan} {entry : TimelineEntry} {index : ℕ}

/-- The node of a known session is found under its key. -/
theorem SessionNodes.existing_of_lookup {key : Text × Text} (own : entry.sessionKey = some key)
    (found : state.sessions.lookup key = some index) : state.existing entry = some index := by
  rw [existing, own, Option.bind_some, found, Option.some_or]

private theorem lookup_insertKey {κ : Type*} [BEq κ] [LawfulBEq κ] [DecidableEq κ] (key : Option κ) (index : ℕ)
    (entries : List (κ × ℕ)) (k : κ) :
    (SessionNodes.insertKey key index entries).lookup k = if key = some k then some index else entries.lookup k := by
  cases key with
  | none => rfl
  | some key =>
    rw [SessionNodes.insertKey, List.lookup_cons]
    by_cases same : k = key
    · simp [same]
    · simp [beq_false_of_ne same, Ne.symm same]

/-- What a segment does to the nodes. -/
theorem SessionNodes.add_cases (state : SessionNodes) (span : TimelineSpan) :
    ¬ span.Qualifies ∧ state.add span = state ∨
    span.Qualifies ∧ (∃ index, state.existing span.last = some index ∧ state.add span =
      { state with
        nodes := state.nodes.modify index (·.mergeSession span)
        sessions := insertKey span.last.sessionKey index state.sessions }) ∨
    span.Qualifies ∧ state.existing span.last = none ∧ state.add span =
      { nodes := state.nodes ++ [span]
        sessions := insertKey span.last.sessionKey state.nodes.length state.sessions
        invocations := insertKey span.last.invocation state.nodes.length state.invocations } := by
  by_cases qualifies : span.Qualifies
  · have accepted : (decide (span.last.kind ≠ .agent) || span.last.provider.isEmpty) = false := by
      simp [qualifies.1, qualifies.2]
    cases found : state.existing span.last with
    | some index =>
      exact .inr (.inl ⟨qualifies, index, rfl, by simp only [add, accepted, found, Bool.false_eq_true, if_false]⟩)
    | none => exact .inr (.inr ⟨qualifies, rfl, by simp only [add, accepted, found, Bool.false_eq_true, if_false]⟩)
  · refine .inl ⟨qualifies, if_pos ?_⟩
    by_contra accepted
    simp only [Bool.or_eq_true, decide_eq_true_eq, List.isEmpty_iff, not_or, not_not] at accepted
    exact qualifies accepted

private theorem gathers_singleton (span : TimelineSpan) : Gathers [span] span where
  linked earlier other later split some := by
    obtain ⟨first, rest, rfl⟩ := List.exists_cons_of_ne_nil some
    have length := congrArg List.length split
    simp at length
  counted := by simp
  first := by simp
  last := ⟨span, List.mem_singleton_self _, rfl, by simp, fun _ => rfl⟩
  recorded _ own := ⟨span, List.mem_singleton_self _, own⟩
  kept _ member own := List.mem_singleton.mp member ▸ own

/-- What a node shows of another segment and of the ancestry. -/
theorem mergeSession_last (node span : TimelineSpan) : ∃ latest : TimelineEntry,
    (latest = span.last ∧ node.last.sequence < span.last.sequence ∨
      latest = node.last ∧ span.last.sequence ≤ node.last.sequence) ∧
    (node.mergeSession span).last = { latest with
      parentSessionId := latest.parentSessionId.or (node.last.parentSessionId.or span.last.parentSessionId) } := by
  have filled (latest : TimelineEntry) (parent : Option Text) :
      (if latest.parentSessionId.isNone then { latest with parentSessionId := parent } else latest) =
        { latest with parentSessionId := latest.parentSessionId.or parent } := by
    cases latest with
    | mk _ _ _ _ _ _ own => cases own <;> rfl
  unfold TimelineSpan.mergeSession
  dsimp only
  by_cases later : span.last.sequence > node.last.sequence
  · rw [if_pos later]
    exact ⟨span.last, .inl ⟨rfl, later⟩, filled ..⟩
  · rw [if_neg later]
    exact ⟨node.last, .inr ⟨rfl, by omega⟩, filled ..⟩

/-- A related segment joins the group of a node. -/
theorem Gathers.merge (gathers : Gathers group node) (related : ∃ other ∈ group, span.Related other) :
    Gathers (group ++ [span]) (node.mergeSession span) := by
  obtain ⟨linked, counted, ⟨⟨earliest, within, same⟩, bound⟩, ⟨shown, inside, last, latest, own⟩, recorded, kept⟩ := gathers
  obtain ⟨chosen, which, merged⟩ := mergeSession_last node span
  have parent : (node.mergeSession span).last.parentSessionId =
      chosen.parentSessionId.or (node.last.parentSessionId.or span.last.parentSessionId) := by rw [merged]
  refine ⟨fun earlier other later split some => ?_, ?_, ⟨?_, ?_⟩, ?_, fun id is => ?_, fun other member is => ?_⟩
  · cases later using List.reverseRecOn with
    | nil =>
      obtain ⟨rfl, rfl⟩ := List.append_inj' split rfl |>.imp id List.singleton_inj.mp
      exact related
    | append_singleton later final =>
      rw [← List.cons_append, ← List.append_assoc] at split
      exact linked earlier other later (List.append_inj_left' split rfl) some
  · rw [List.map_append, List.sum_append, List.map_singleton, List.sum_singleton, ← counted]
    rfl
  · rcases Nat.le_total node.firstMs span.firstMs with le | le
    · exact ⟨earliest, List.mem_append_left _ within, same.trans (Nat.min_eq_left le).symm⟩
    · exact ⟨span, by simp, (Nat.min_eq_right le).symm⟩
  · intro other member
    rcases List.mem_append.mp member with member | member
    · exact (Nat.min_le_left ..).trans (bound other member)
    · exact List.mem_singleton.mp member ▸ Nat.min_le_right ..
  · have before : node.last.sequence = shown.last.sequence := by rw [last]
    rcases which with ⟨rfl, later⟩ | ⟨rfl, later⟩
    · refine ⟨span, by simp, by rw [parent]; exact merged, fun other member => ?_, fun is => ?_⟩
      · rcases List.mem_append.mp member with member | member
        · exact (latest other member).trans (before ▸ later.le)
        · rw [List.mem_singleton.mp member]
      · rw [parent]
        exact Option.or_of_isSome is
    · refine ⟨shown, List.mem_append_left _ inside, ?_, fun other member => ?_, fun is => ?_⟩
      · rw [parent, merged, last]
      · rcases List.mem_append.mp member with member | member
        · exact latest other member
        · rw [List.mem_singleton.mp member]
          exact later.trans_eq before
      · rw [parent, own is]
        exact Option.or_of_isSome is
  · have sources : node.last.parentSessionId = some id ∨ span.last.parentSessionId = some id := by
      rw [parent] at is
      rcases Option.or_eq_some_iff.mp is with first | ⟨-, rest⟩
      · rcases which with ⟨rfl, -⟩ | ⟨rfl, -⟩
        · exact .inr first
        · exact .inl first
      · exact (Option.or_eq_some_iff.mp rest).imp_right And.right
    rcases sources with old | new
    · obtain ⟨other, member, theirs⟩ := recorded id old
      exact ⟨other, List.mem_append_left _ member, theirs⟩
    · exact ⟨span, by simp, new⟩
  · rw [parent, Option.isSome_or, Option.isSome_or]
    rcases List.mem_append.mp member with member | member
    · rw [kept other member is, Bool.true_or, Bool.or_true]
    · rw [List.mem_singleton.mp member] at is
      rw [is, Bool.or_true, Bool.or_true]

/-- A node found for a segment has a group with a related one, which is its session's if that is known. -/
theorem SessionNodes.Tidy.related (tidy : state.Tidy groups seen) (found : state.existing span.last = some index) :
    ∃ group, groups[index]? = some group ∧ ∃ other ∈ group, span.Related other := by
  rcases Option.or_eq_some_iff.mp found with session | ⟨_, invocation⟩
  · obtain ⟨key, own, owner⟩ := Option.bind_eq_some_iff.mp session
    obtain ⟨group, atIndex, other, member, theirs⟩ := (tidy.sessions key index).mp owner
    exact ⟨group, atIndex, other, member, .inl ⟨key, own, theirs⟩⟩
  · obtain ⟨known, _⟩ := Option.filter_eq_some_iff.mp invocation
    obtain ⟨v, own, owner⟩ := Option.bind_eq_some_iff.mp known
    obtain ⟨group, atIndex, other, member, theirs⟩ := tidy.invocations v index owner
    exact ⟨group, atIndex, other, member, .inr ⟨v, own, theirs⟩⟩

theorem SessionNodes.Tidy.length (tidy : state.Tidy groups seen) : groups.length = state.nodes.length :=
  tidy.gathers.length_eq

/-- A segment that joins the group at an index brings its session there. -/
theorem SessionNodes.Tidy.merge (tidy : state.Tidy groups seen) (qualifies : span.Qualifies)
    (found : state.existing span.last = some index) :
    Tidy { state with
      nodes := state.nodes.modify index (·.mergeSession span)
      sessions := insertKey span.last.sessionKey index state.sessions }
      (groups.modify index (· ++ [span])) (seen ++ [span]) := by
  obtain ⟨group, atIndex, related⟩ := tidy.related found
  have inside := (List.getElem?_eq_some_iff.mp atIndex).1
  refine ⟨?_, ?_, fun key k => ?_, fun invocation k owner => ?_⟩
  · rw [List.filter_append, List.filter_singleton, decide_eq_true qualifies, cond_true]
    exact (flatten_modify_perm groups span inside).trans (tidy.covers.append_right _)
  · refine forall₂_modify_both tidy.gathers fun group' node atIndex' gathers => gathers.merge ?_
    obtain rfl := Option.some.inj (atIndex.symm.trans atIndex')
    exact related
  · dsimp only
    rw [lookup_insertKey, inGroup_modify inside, ← tidy.sessions]
    split
    next own =>
      rw [Option.some.injEq]
      refine ⟨fun same => .inr ⟨same.symm, own⟩, fun held => ?_⟩
      rcases held with known | ⟨same, -⟩
      · exact Option.some.inj (found.symm.trans (existing_of_lookup own known))
      · exact same.symm
    next other => exact ⟨.inl, fun held => held.resolve_right fun ⟨_, own⟩ => other own⟩
  · exact (inGroup_modify inside).mpr (.inl (tidy.invocations invocation k owner))

/-- A segment without a node starts a group. -/
theorem SessionNodes.Tidy.append (tidy : state.Tidy groups seen) (qualifies : span.Qualifies)
    (fresh : state.existing span.last = none) :
    Tidy { nodes := state.nodes ++ [span]
           sessions := insertKey span.last.sessionKey state.nodes.length state.sessions
           invocations := insertKey span.last.invocation state.nodes.length state.invocations }
      (groups ++ [[span]]) (seen ++ [span]) := by
  refine ⟨?_, ?_, fun key k => ?_, fun invocation k owner => ?_⟩
  · rw [List.filter_append, List.filter_singleton, decide_eq_true qualifies, cond_true, List.flatten_concat]
    exact tidy.covers.append_right _
  · exact List.rel_append tidy.gathers (.cons (gathers_singleton span) .nil)
  · dsimp only
    rw [lookup_insertKey, inGroup_concat, ← tidy.sessions, tidy.length]
    split
    next own =>
      rw [Option.some.injEq]
      refine ⟨fun same => .inr ⟨same.symm, own⟩, fun held => ?_⟩
      rcases held with known | ⟨same, -⟩
      · exact absurd (fresh.symm.trans (existing_of_lookup own known)) (by simp)
      · exact same.symm
    next other => exact ⟨.inl, fun held => held.resolve_right fun ⟨_, own⟩ => other own⟩
  · rw [lookup_insertKey] at owner
    refine inGroup_concat.mpr ?_
    split at owner
    next own => exact .inr ⟨tidy.length ▸ (Option.some.inj owner).symm, own⟩
    next => exact .inl (tidy.invocations invocation k owner)

theorem SessionNodes.Tidy.add (tidy : state.Tidy groups seen) (span : TimelineSpan) :
    ∃ groups, (state.add span).Tidy groups (seen ++ [span]) := by
  rcases state.add_cases span with ⟨other, same⟩ | ⟨qualifies, index, found, merged⟩ | ⟨qualifies, fresh, opened⟩
  · rw [same]
    refine ⟨groups, ?_, tidy.gathers, tidy.sessions, tidy.invocations⟩
    rw [List.filter_append, List.filter_singleton, decide_eq_false other, cond_false, List.append_nil]
    exact tidy.covers
  · exact ⟨_, merged ▸ tidy.merge qualifies found⟩
  · exact ⟨_, opened ▸ tidy.append qualifies fresh⟩

private theorem sessionNodes_tidy (entries : List TimelineEntry) : ∃ groups, (sessionNodes entries).Tidy groups
    (spans entries) := by
  unfold sessionNodes
  induction spans entries using List.reverseRecOn with
  | nil =>
    refine ⟨[], .nil, .nil, fun key k => iff_of_false (by simp) ?_, fun _ _ owner => absurd owner (by simp)⟩
    exact fun held => absurd held.lt (Nat.not_lt_zero _)
  | append_singleton spans span ih =>
    obtain ⟨groups, tidy⟩ := ih
    rw [List.foldl_append]
    exact tidy.add span

/-- The session of a node is that of one of its segments. -/
theorem Gathers.sessionKey (gathers : Gathers group node) {key : Text × Text} (own : node.last.sessionKey = some key) :
    ∃ span ∈ group, span.last.sessionKey = some key := by
  obtain ⟨span, member, last, -⟩ := gathers.last
  rw [last] at own
  exact ⟨span, member, own⟩

/-- No two nodes belong to one session. -/
theorem SessionNodes.Tidy.nodup (tidy : state.Tidy groups seen) : (state.nodes.filterMap (·.last.sessionKey)).Nodup := by
  rw [List.Nodup, List.pairwise_filterMap, List.pairwise_iff_getElem]
  intro i j inI inJ lt key own key' own' same
  subst same
  have keyed (k : ℕ) (inK : k < state.nodes.length) (own : state.nodes[k].last.sessionKey = some key) :
      state.sessions.lookup key = some k := by
    rcases getElem?_of_forall₂ tidy.gathers k with ⟨_, absent⟩ | ⟨group, node, atK, atK', gathers⟩
    · exact absurd (List.getElem?_eq_none_iff.mp absent) (Nat.not_le.mpr inK)
    · rw [List.getElem?_eq_getElem inK] at atK'
      obtain rfl := Option.some.inj atK'
      exact (tidy.sessions key k).mpr ⟨group, atK, gathers.sessionKey own⟩
  exact absurd (Option.some.inj ((keyed i inI own).symm.trans (keyed j inJ own'))) lt.ne

theorem SessionNodes.parent_some {p : ℕ} {node : TimelineSpan} (resolved : state.parent index node = some p) :
    ∃ key, node.last.parentKey = some key ∧ state.sessions.lookup key = some p :=
  Option.bind_eq_some_iff.mp (Option.filter_eq_some_iff.mp resolved).1

/-- The session forest is well formed for any input. -/
theorem agentTree_sessionForest (entries : List TimelineEntry) :
    ∃ groups rows, agentTree entries = some rows ∧ SessionForest entries groups rows := by
  obtain ⟨groups, tidy⟩ := sessionNodes_tidy entries
  set state := sessionNodes entries with ofState
  obtain ⟨visits, walked, forest, once⟩ := walkForest_forest (state.nodes.mapIdx state.parent)
  rw [List.length_mapIdx] at once
  have walkedDepths : walkForest (state.nodes.mapIdx state.parent) (fun _ depth => depth + 1) 0 =
      some (visits.map (Prod.map id Prod.snd)) := by
    rw [← Option.map_some, ← walked]
    refine walkForest_map (f := Prod.snd) ?_ _ (none, 0)
    exact fun _ _ => rfl
  obtain ⟨rows, mapped, related⟩ := mapM_of_forall (f := fun visit => state.row (Prod.map id Prod.snd visit)) visits
    fun visit member => by
      have inside : visit.1 < state.nodes.length := List.mem_range.mp (once.subset (List.mem_map_of_mem member))
      exact ⟨_, by rw [SessionNodes.row, Prod.map_fst, id_eq, List.getElem?_eq_getElem inside]; rfl⟩
  -- what a visit shows, and what a row says about its visit
  have visit_shows : ∀ (visit : ℕ × Option ℕ × ℕ) row, state.row (Prod.map id Prod.snd visit) = some row →
      state.nodes[visit.1]? = some row.span ∧ row.depth = visit.2.2 := by
    intro visit row same
    obtain ⟨node, found, rfl⟩ := Option.map_eq_some_iff.mp same
    exact ⟨found, rfl⟩
  have shown : List.Forall₂ (fun visit row => state.nodes[visit.1]? = some row.span) visits rows :=
    related.imp fun visit row same => (visit_shows visit row same).1
  have read : ∀ (i : ℕ) row, rows[i]? = some row → ∃ visit, visits[i]? = some visit ∧
      state.nodes[visit.1]? = some row.span ∧ row.depth = visit.2.2 := by
    intro i row found
    rcases getElem?_of_forall₂ related i with ⟨_, absent⟩ | ⟨visit, row', atI, atI', same⟩
    · exact absurd (found.symm.trans absent) (by simp)
    · obtain rfl := Option.some.inj (atI'.symm.trans found)
      exact ⟨visit, atI, visit_shows visit row' same⟩
  -- the groups in the order of the rows
  obtain ⟨shares, -, taken⟩ := mapM_of_forall (f := fun visit : ℕ × Option ℕ × ℕ => groups[visit.1]?) visits
    fun visit member => by
      have inside : visit.1 < groups.length :=
        tidy.length ▸ List.mem_range.mp (once.subset (List.mem_map_of_mem member))
      exact ⟨_, List.getElem?_eq_getElem inside⟩
  have shared : ∀ {i : ℕ} {p : TimelineSpan → Prop}, InGroup shares i p →
      ∃ visit, visits[i]? = some visit ∧ InGroup groups visit.1 p := by
    rintro i p ⟨share, atI, held⟩
    rcases getElem?_of_forall₂ taken i with ⟨_, absent⟩ | ⟨visit, share', atI', found, atVisit⟩
    · exact absurd (atI.symm.trans absent) (by simp)
    · obtain rfl := Option.some.inj (atI.symm.trans found)
      exact ⟨visit, atI', share, atVisit, held⟩
  refine ⟨shares, rows, ?_, ?covers, ?gathers, ?apart, ?distinct, ?preorder, ?missing⟩
  · rw [agentTree, ← ofState]
    refine (congrArg (· >>= _) walkedDepths).trans ?_
    exact List.mapM_map.trans mapped
  case covers =>
    have same : (shares.map id).Perm groups := perm_of_visits taken (tidy.length ▸ once)
    rw [List.map_id] at same
    exact same.flatten.trans tidy.covers
  case gathers => exact forall₂_of_visits tidy.gathers taken shown
  case apart =>
    intro i j key first second
    obtain ⟨visit, atI, held⟩ := shared first
    obtain ⟨visit', atJ, held'⟩ := shared second
    have same : visit.1 = visit'.1 :=
      Option.some.inj (((tidy.sessions key _).mpr held).symm.trans ((tidy.sessions key _).mpr held'))
    have inside := (List.getElem?_eq_some_iff.mp atI).1
    have distinct := (once.nodup_iff.mpr List.nodup_range)
    refine (List.getElem?_inj (by rwa [List.length_map]) distinct).mp ?_
    rw [List.getElem?_map, List.getElem?_map, atI, atJ, Option.map_some, Option.map_some, same]
  case distinct =>
    have distinct := ((perm_of_visits shown once).filterMap (·.last.sessionKey)).nodup_iff.mpr tidy.nodup
    rwa [List.filterMap_map] at distinct
  case preorder =>
    intro i row found
    obtain ⟨⟨k, origin, depth⟩, atI, atK, rfl⟩ := read i row found
    cases origin with
    | none => exact .inl (forest.depth_zero atI)
    | some o =>
      obtain ⟨parent, tag, before, atO, resolved, deeper, inside⟩ := forest.row atI
      rw [List.getElem?_mapIdx, atK] at resolved
      obtain ⟨key, recorded, owner⟩ := SessionNodes.parent_some (Option.some.inj resolved)
      rcases getElem?_of_forall₂ related o with ⟨absent, _⟩ | ⟨visit, above, atO', found', same⟩
      · exact absurd (atO.symm.trans absent) (by simp)
      obtain rfl : (parent, tag) = visit := Option.some.inj (atO.symm.trans atO')
      obtain ⟨_, ofDepth⟩ := visit_shows _ _ same
      refine .inr ⟨o, above, before, found', ofDepth ▸ deeper, fun j between later earlier atJ => ?_, key, recorded, ?_⟩
      · obtain ⟨visit, atJ', _, ofBetween⟩ := read j between atJ
        rw [ofDepth, ofBetween]
        exact forest.deeper atO inside j visit later earlier atJ'
      · obtain ⟨group, atGroup, held⟩ := (tidy.sessions key parent).mp owner
        rcases getElem?_of_forall₂ taken o with ⟨absent, _⟩ | ⟨visit, share, atO'', atShare, same'⟩
        · exact absurd (atO.symm.trans absent) (by simp)
        · obtain rfl : (parent, tag) = visit := Option.some.inj (atO.symm.trans atO'')
          obtain rfl : group = share := Option.some.inj (atGroup.symm.trans same')
          exact ⟨group, atShare, held⟩
  case missing =>
    intro row member
    obtain ⟨visit, _, same⟩ := exists_of_mem_right related member
    obtain ⟨node, _, rfl⟩ := Option.map_eq_some_iff.mp same
    simp

end Sessions

/-- Both projections end in well-formed forests for any input: recorded ancestry may be missing, duplicated or
cyclic. -/
theorem agentForests_wellFormed (entries : List TimelineEntry) :
    (∃ rows, agentFlow entries = some rows ∧ LaunchForest entries rows) ∧
      ∃ groups rows, agentTree entries = some rows ∧ SessionForest entries groups rows :=
  ⟨agentFlow_launchForest entries, agentTree_sessionForest entries⟩

end Uniterm.Model.Timeline
