import Mathlib.Data.List.Induction
import Mathlib.Order.Basic
import Mathlib.Order.Nat
import Uniterm.Model.Timeline.Spans

/-! # Timeline spans

The segments of one invocation are intervals of its observations: each observation joins the segment of the one
before it or opens a segment of its own. A segment remembers the last project that it saw, but only the session of
its last observation, so an observation that names no session lets another session in.
-/

namespace Uniterm.Model.Timeline

open Model ToMathlib

section Observations

/-- The last project that the observations name, the latest first, after the latest change of session. -/
def standing : List TimelineEntry → Option ProjectId
  | [] => none
  | [entry] => entry.context.project
  | entry :: previous :: earlier =>
    if sameOrUnknown previous.sessionId entry.sessionId then
      entry.context.project.or (standing (previous :: earlier))
    else entry.context.project

/-- Whether the next observation of an invocation is compatible with the ones before it, the latest first. -/
def joins : List TimelineEntry → TimelineEntry → Bool
  | [], _ => false
  | previous :: earlier, entry =>
    sameOrUnknown previous.sessionId entry.sessionId &&
      sameOrUnknown (standing (previous :: earlier)) entry.context.project

/-- Wherever observations without a session stand between two different sessions of one invocation, the latest
first, one of them or the second session names another project than the standing one. -/
def Separated (history : List TimelineEntry) : Prop :=
  ∀ newer entry silent previous older, history = newer ++ entry :: (silent ++ previous :: older) →
    silent ≠ [] → (∀ e ∈ silent, e.sessionId = none) →
    sameOrUnknown previous.sessionId entry.sessionId = false →
    ∃ later e earlier, entry :: silent = later ++ e :: earlier ∧
      sameOrUnknown (standing (earlier ++ previous :: older)) e.context.project = false

/-- The agent observations of an invocation, the latest first. -/
def observationsOf (invocation : ℕ) (entries : List TimelineEntry) : List TimelineEntry :=
  (entries.filter (·.agentInvocation == some invocation)).reverse

end Observations

/-- Each observation is counted in exactly one segment, and the observations of one segment agree in their
invocation, their known session and their known project. -/
structure Partitioned (entries : List TimelineEntry) : Prop where
  all : (counted entries).length = entries.length
  indexed : ∀ k ∈ counted entries, k < (spans entries).length
  observations : ∀ (k : ℕ) (span : TimelineSpan), (spans entries)[k]? = some span → span.observations = (counted entries).count k
  nonempty : ∀ k < (spans entries).length, k ∈ counted entries
  agree : (entries.zip (counted entries)).Pairwise fun p q => p.2 = q.2 →
    (p.1.agentInvocation.isSome ∧ p.1.agentInvocation = q.1.agentInvocation) ∧
      sameOrUnknown p.1.sessionId q.1.sessionId ∧ sameOrUnknown p.1.context.project q.1.context.project

section Standing

variable {entry : TimelineEntry} {earlier : List TimelineEntry}

/-- The project of an observation that opens a segment. -/
theorem standing_of_separate (separate : joins earlier entry = false) :
    standing (entry :: earlier) = entry.context.project := by
  cases earlier with
  | nil => rfl
  | cons previous earlier =>
    rw [standing]
    split
    next same =>
      rw [joins, same, Bool.true_and] at separate
      cases named : entry.context.project with
      | none => simp [named, sameOrUnknown] at separate
      | some project => rfl
    next => rfl

private theorem standing_of_joins {previous : TimelineEntry} (joined : joins (previous :: earlier) entry) :
    standing (entry :: previous :: earlier) = entry.context.project.or (standing (previous :: earlier)) := by
  rw [joins, Bool.and_eq_true] at joined
  rw [standing, if_pos joined.1]

end Standing

section SameOrUnknown

variable {α : Type*} [BEq α] [LawfulBEq α] {a b : Option α}

omit [LawfulBEq α] in
private theorem sameOrUnknown_none_left (b : Option α) : sameOrUnknown none b := rfl

omit [LawfulBEq α] in
private theorem sameOrUnknown_none_right (a : Option α) : sameOrUnknown a none := by
  simp [sameOrUnknown]

private theorem sameOrUnknown_some {x y : α} : sameOrUnknown (some x) (some y) ↔ x = y := by
  simp [sameOrUnknown]

private theorem sameOrUnknown_eq_false : sameOrUnknown a b = false ↔ ∃ x y, a = some x ∧ b = some y ∧ x ≠ y := by
  cases a <;> cases b <;> simp [sameOrUnknown]

private theorem sameOrUnknown_comm (a b : Option α) : sameOrUnknown a b = sameOrUnknown b a := by
  cases a <;> cases b <;> simp [sameOrUnknown, BEq.comm]

end SameOrUnknown

section Grouped

/-- The observations of one invocation, the latest first, with the index of their segment: one that is compatible
joins the segment of the one before it, and another opens a segment with a new index. -/
def Grouped : List (TimelineEntry × ℕ) → Prop
  | [] => True
  | (entry, k) :: earlier =>
    Grouped earlier ∧
      if joins (earlier.map Prod.fst) entry then earlier.head?.map Prod.snd = some k else ∀ p ∈ earlier, p.2 < k

variable {history newer older : List (TimelineEntry × ℕ)} {entry : TimelineEntry} {k : ℕ}

theorem Grouped.suffix (grouped : Grouped (newer ++ older)) : Grouped older := by
  induction newer with
  | nil => exact grouped
  | cons _ _ ih => exact ih grouped.1

theorem Grouped.le (grouped : Grouped ((entry, k) :: older)) : ∀ p ∈ older, p.2 ≤ k := by
  induction older generalizing entry k with
  | nil => exact fun p member => absurd member List.not_mem_nil
  | cons previous older ih =>
    obtain ⟨rest, placed⟩ := grouped
    split at placed
    next joined =>
      obtain rfl : previous.2 = k := Option.some.inj placed
      intro p member
      rcases List.mem_cons.mp member with rfl | member
      · exact le_rfl
      · exact ih rest p member
    next => exact fun p member => (placed p member).le

/-- A segment that continues is continued by compatible observations. -/
theorem Grouped.joined (grouped : Grouped ((entry, k) :: older)) {p : TimelineEntry × ℕ} (member : p ∈ older)
    (same : p.2 = k) : joins (older.map Prod.fst) entry = true ∧ older.head?.map Prod.snd = some k := by
  obtain ⟨_, placed⟩ := grouped
  split at placed
  next joined => exact ⟨joined, placed⟩
  next => exact absurd same (placed p member).ne

/-- Observations that all join are in one segment. -/
theorem Grouped.index_eq {p : TimelineEntry × ℕ} (grouped : Grouped (newer ++ p :: older))
    (joined : ∀ later e earlier, newer.map Prod.fst = later ++ e :: earlier →
      joins (earlier ++ p.1 :: older.map Prod.fst) e = true) : ∀ q ∈ newer, q.2 = p.2 := by
  induction newer with
  | nil => exact fun q member => absurd member List.not_mem_nil
  | cons latest newer ih =>
    have rest : ∀ q ∈ newer, q.2 = p.2 := by
      refine ih grouped.1 fun later e earlier split => joined (latest.1 :: later) e earlier ?_
      rw [List.map_cons, split, List.cons_append]
    have joinsLatest := joined [] latest.1 (newer.map Prod.fst) rfl
    have placed : (newer ++ p :: older).head?.map Prod.snd = some latest.2 := by
      have placed := grouped.2
      rwa [List.append_eq, List.map_append, List.map_cons, if_pos joinsLatest] at placed
    intro q member
    rcases List.mem_cons.mp member with rfl | member
    · cases newer with
      | nil => exact (Option.some.inj placed).symm
      | cons previous newer =>
        exact (Option.some.inj placed).symm.trans (rest previous (List.mem_cons_self ..))
    · exact rest q member

/-- The segment of the latest observation stands at the project that any of its observations names. -/
theorem Grouped.standing_eq (grouped : Grouped ((entry, k) :: older)) {p : TimelineEntry × ℕ}
    (member : p ∈ (entry, k) :: older) (same : p.2 = k) {project : ProjectId}
    (named : p.1.context.project = some project) : standing (entry :: older.map Prod.fst) = some project := by
  induction older generalizing entry k with
  | nil =>
    obtain rfl := List.mem_singleton.mp member
    exact named
  | cons previous older ih =>
    rcases List.mem_cons.mp member with rfl | inside
    · rw [List.map_cons, standing, named, Option.some_or, ite_self]
    · obtain ⟨joined, head⟩ := grouped.joined inside same
      obtain ⟨previous, _⟩ := previous
      obtain rfl := Option.some.inj head
      have before : standing (previous :: older.map Prod.fst) = some project := ih grouped.1 inside same
      simp only [joins, List.map_cons, Bool.and_eq_true] at joined
      rw [before] at joined
      simp only [List.map_cons, standing, if_pos joined.1, before]
      cases project' : entry.context.project with
      | none => rfl
      | some x =>
        rw [project', sameOrUnknown_some] at joined
        rw [Option.some_or, joined.2]

/-- Two observations of one segment name the same project or one of them names none. -/
theorem Grouped.project_agrees (grouped : Grouped ((entry, k) :: older)) {p : TimelineEntry × ℕ}
    (member : p ∈ older) (same : p.2 = k) :
    sameOrUnknown p.1.context.project entry.context.project := by
  cases named : p.1.context.project with
  | none => exact sameOrUnknown_none_left _
  | some project =>
    have later := grouped.standing_eq (.tail _ member) same named
    cases named' : entry.context.project with
    | none => exact sameOrUnknown_none_right _
    | some project' =>
      have own := grouped.standing_eq (List.mem_cons_self ..) rfl named'
      rw [sameOrUnknown_some]
      exact Option.some.inj (later.symm.trans own)

/-- What two observations of one segment should agree on. -/
def Agree (p q : TimelineEntry × ℕ) : Prop :=
  p.2 = q.2 → sameOrUnknown p.1.sessionId q.1.sessionId ∧ sameOrUnknown p.1.context.project q.1.context.project

theorem Agree.symm {p q : TimelineEntry × ℕ} (agree : Agree p q) : Agree q p := by
  intro same
  obtain ⟨session, project⟩ := agree same.symm
  rw [sameOrUnknown_comm q.1.sessionId, sameOrUnknown_comm q.1.context.project]
  exact ⟨session, project⟩

theorem Separated.tail {e : TimelineEntry} {earlier : List TimelineEntry} (separated : Separated (e :: earlier)) :
    Separated earlier := by
  intro newer entry silent previous older split
  exact separated (e :: newer) entry silent previous older (by rw [split, List.cons_append])

/-- The sessions of a segment agree when the latest known one agrees with the new observation. -/
theorem Grouped.session_agrees (grouped : Grouped ((entry, k) :: older))
    (separated : Separated (entry :: older.map Prod.fst)) (agree : older.Pairwise Agree)
    {p : TimelineEntry × ℕ} (member : p ∈ older) (same : p.2 = k) :
    sameOrUnknown p.1.sessionId entry.sessionId := by
  by_contra differ
  rw [Bool.not_eq_true] at differ
  obtain ⟨x, y, ofP, ofEntry, ne⟩ := sameOrUnknown_eq_false.mp differ
  -- the latest observation of the segment that names a session
  have known : older.find? (·.1.sessionId.isSome) ≠ none := by
    rw [Ne, List.find?_eq_none, not_forall]
    exact ⟨p, fun silent => silent member (by rw [ofP]; rfl)⟩
  obtain ⟨latest, found⟩ := Option.ne_none_iff_exists'.mp known
  obtain ⟨named, silent, before, split, quiet⟩ := List.find?_eq_some_iff_append.mp found
  obtain ⟨z, ofLatest⟩ := Option.isSome_iff_exists.mp named
  have silentNone : ∀ e ∈ silent.map Prod.fst, e.sessionId = none := by
    intro e member
    obtain ⟨q, inside, rfl⟩ := List.mem_map.mp member
    simpa using quiet q inside
  have pBehind : p ∈ latest :: before := by
    rw [split] at member
    rcases List.mem_append.mp member with inside | inside
    · have := quiet p inside
      simp [ofP] at this
    · exact inside
  have inBlock : latest.2 = k := by
    refine le_antisymm (grouped.le latest (split ▸ by simp)) ?_
    rcases List.mem_cons.mp pBehind with rfl | later
    · exact same.ge
    · have suffix : Grouped (latest :: before) := (split ▸ grouped.1 : Grouped (silent ++ latest :: before)).suffix
      exact same.ge.trans (suffix.le p later)
  have zx : z = x := by
    rcases List.mem_cons.mp pBehind with rfl | later
    · exact Option.some.inj (ofLatest.symm.trans ofP)
    · rw [split] at agree
      have pair := List.rel_of_pairwise_cons (List.pairwise_append.mp agree).2.1 later (inBlock.trans same.symm)
      rw [ofLatest, ofP, sameOrUnknown_some] at pair
      exact pair.1
  have zy : sameOrUnknown latest.1.sessionId entry.sessionId = false := by
    rw [ofLatest, ofEntry, sameOrUnknown_eq_false]
    exact ⟨z, y, rfl, rfl, zx ▸ ne⟩
  rcases silent with - | ⟨previous, silent⟩
  · obtain ⟨joined, _⟩ := grouped.joined member same
    rw [split] at joined
    simp only [List.nil_append, List.map_cons, joins, Bool.and_eq_true] at joined
    exact absurd joined.1 (by simp [zy])
  · obtain ⟨later, e, earlier, parts, boundary⟩ := separated [] entry ((previous :: silent).map Prod.fst) latest.1
      (before.map Prod.fst) (by simp [split]) (by simp) silentNone zy
    -- the boundary opens a segment above the one of the latest known session
    obtain ⟨later', rest', parts', rfl, cut⟩ := List.map_eq_append_iff.mp
      (show ((entry, k) :: previous :: silent).map Prod.fst = later ++ e :: earlier by simpa using parts)
    obtain ⟨boundary', earlier', rfl, rfl, rfl⟩ := List.map_eq_cons_iff.mp cut
    have whole : (entry, k) :: older = later' ++ boundary' :: (earlier' ++ latest :: before) := by
      rw [split, ← List.cons_append, parts', List.append_assoc, List.cons_append]
    have opened := (whole ▸ grouped : Grouped (later' ++ boundary' :: (earlier' ++ latest :: before))).suffix.2
    rw [if_neg] at opened
    · have above := opened latest (by simp)
      have below : boundary'.2 ≤ k := by
        have inside : boundary' ∈ (entry, k) :: older := whole ▸ by simp
        rcases List.mem_cons.mp inside with rfl | inside
        · exact le_rfl
        · exact grouped.le boundary' inside
      omega
    · intro joined
      rw [List.map_append, List.map_cons] at joined
      cases earlier' <;>
      · simp only [List.map_nil, List.nil_append, List.cons_append, List.map_cons, joins,
          Bool.and_eq_true] at joined boundary
        exact absurd joined.2 (by simp [boundary])

theorem Grouped.agree_of_separated (grouped : Grouped history) (separated : Separated (history.map Prod.fst)) :
    history.Pairwise Agree := by
  induction history with
  | nil => exact .nil
  | cons latest history ih =>
    have rest := ih grouped.1 separated.tail
    refine .cons (fun p member same => ?_) rest
    rw [sameOrUnknown_comm, sameOrUnknown_comm latest.1.context.project]
    exact ⟨grouped.session_agrees separated rest member same.symm, grouped.project_agrees member same.symm⟩

theorem Grouped.separated_of_agree (grouped : Grouped history) (agree : history.Pairwise Agree) :
    Separated (history.map Prod.fst) := by
  intro newer entry silent previous older split some quiet differ
  by_contra none
  obtain ⟨newer', rest, rfl, rfl, cut⟩ := List.map_eq_append_iff.mp split
  obtain ⟨entry', rest', rfl, rfl, cut'⟩ := List.map_eq_cons_iff.mp cut
  obtain ⟨silent', rest'', rfl, rfl, cut''⟩ := List.map_eq_append_iff.mp cut'
  obtain ⟨previous', older', rfl, rfl, rfl⟩ := List.map_eq_cons_iff.mp cut''
  have joined : ∀ later e earlier, (entry' :: silent').map Prod.fst = later ++ e :: earlier →
      joins (earlier ++ previous'.1 :: older'.map Prod.fst) e = true := by
    intro later e earlier parts
    have project : sameOrUnknown (standing (earlier ++ previous'.1 :: older'.map Prod.fst)) e.context.project := by
      by_contra boundary
      exact none ⟨later, e, earlier, parts, Bool.not_eq_true _ ▸ boundary⟩
    have session : ∀ q ∈ earlier, q.sessionId = .none := by
      intro q member
      cases later with
      | nil => exact quiet q ((List.cons.inj parts).2 ▸ member)
      | cons => exact quiet q ((List.cons.inj parts).2 ▸ by simp [member])
    cases earlier with
    | nil =>
      -- the first silent observation follows the known session
      have silentFirst : e.sessionId = .none := by
        cases later with
        | nil => exact absurd ((List.cons.inj parts).2) some
        | cons => exact quiet e ((List.cons.inj parts).2 ▸ by simp)
      simp only [List.nil_append, joins, Bool.and_eq_true] at project ⊢
      exact ⟨silentFirst ▸ sameOrUnknown_none_right _, project⟩
    | cons q earlier =>
      simp only [List.cons_append, joins, Bool.and_eq_true] at project ⊢
      exact ⟨session q (List.mem_cons_self ..) ▸ sameOrUnknown_none_left _, project⟩
  have suffix : Grouped ((entry' :: silent') ++ previous' :: older') := grouped.suffix
  have same := suffix.index_eq joined entry' (List.mem_cons_self ..)
  have pair := List.rel_of_pairwise_cons (List.pairwise_append.mp agree).2.1
    (show previous' ∈ silent' ++ previous' :: older' by simp) same
  rw [sameOrUnknown_comm, differ] at pair
  exact absurd pair.1 Bool.false_ne_true

end Grouped

namespace TimelineSpan

variable (span : TimelineSpan) (entry : TimelineEntry)

private theorem observe_agentInvocation : (span.observe entry).last.agentInvocation = entry.agentInvocation := by
  simp only [observe, TimelineEntry.keepContext]
  split <;> rfl

private theorem observe_sessionId : (span.observe entry).last.sessionId = entry.sessionId := by
  simp only [observe, TimelineEntry.keepContext]
  split <;> rfl

private theorem observe_project :
    (span.observe entry).last.context.project = entry.context.project.or span.last.context.project := by
  simp only [observe, TimelineEntry.keepContext]
  cases named : entry.context.project <;> simp [named]

end TimelineSpan

section Tracks

/-- The observations with their segments, the latest first. -/
def history (entries : List TimelineEntry) : List (TimelineEntry × ℕ) := (entries.zip (counted entries)).reverse

/-- Those of one invocation. -/
def owned (invocation : ℕ) (history : List (TimelineEntry × ℕ)) : List (TimelineEntry × ℕ) :=
  history.filter (·.1.agentInvocation == some invocation)

private theorem owned_cons (invocation : ℕ) (p : TimelineEntry × ℕ) (history : List (TimelineEntry × ℕ)) :
    owned invocation (p :: history) =
      if p.1.agentInvocation = some invocation then p :: owned invocation history else owned invocation history := by
  simp only [owned, List.filter_cons, beq_iff_eq]

/-- What the lanes record about the observations so far, the latest first. -/
structure Tracks (lanes : Lanes) (history : List (TimelineEntry × ℕ)) : Prop where
  member : ∀ p ∈ history, ∃ span, lanes.result[p.2]? = some span ∧ span.last.agentInvocation = p.1.agentInvocation
  current : ∀ invocation, lanes.invocations.lookup invocation = (owned invocation history).head?.map Prod.snd
  remembers : ∀ invocation entry k earlier, owned invocation history = (entry, k) :: earlier →
    ∀ span, lanes.result[k]? = some span →
      span.last.sessionId = entry.sessionId ∧
        span.last.context.project = standing (entry :: earlier.map Prod.fst)
  grouped : ∀ invocation, Grouped (owned invocation history)
  shared : history.Pairwise fun p q => p.2 = q.2 → p.1.agentInvocation.isSome
  observations : ∀ (k : ℕ) (span : TimelineSpan), lanes.result[k]? = some span →
    span.observations = (history.map Prod.snd).count k
  inhabited : ∀ k < lanes.result.length, ∃ p ∈ history, p.2 = k

variable {lanes : Lanes} {history : List (TimelineEntry × ℕ)} {invocation : ℕ} {entry : TimelineEntry}

theorem Tracks.lt (tracks : Tracks lanes history) : ∀ p ∈ history, p.2 < lanes.result.length := by
  intro p member
  obtain ⟨span, found, _⟩ := tracks.member p member
  exact (List.getElem?_eq_some_iff.mp found).1

/-- The lanes continue a segment exactly where the observation joins the ones before it. -/
theorem Tracks.continued_eq (tracks : Tracks lanes history) :
    lanes.continued invocation entry =
      if joins ((owned invocation history).map Prod.fst) entry then
        (owned invocation history).head?.map Prod.snd else none := by
  rw [Lanes.continued, tracks.current]
  cases own : owned invocation history with
  | nil => rfl
  | cons latest earlier =>
    have inside : latest ∈ history := List.mem_of_mem_filter (own ▸ List.mem_cons_self ..)
    obtain ⟨span, found, _⟩ := tracks.member latest inside
    obtain ⟨session, project⟩ := tracks.remembers invocation latest.1 latest.2 earlier own span found
    rw [List.head?_cons, Option.map_some, Option.filter_some, found, Option.any_some, TimelineSpan.continues, session,
      project]
    rfl

/-- Opening a segment. -/
theorem Tracks.start (tracks : Tracks lanes history) {invocations : List (ℕ × ℕ)}
    (current : ∀ invocation, invocations.lookup invocation =
      (owned invocation ((entry, lanes.result.length) :: history)).head?.map Prod.snd)
    (separate : ∀ invocation, entry.agentInvocation = some invocation →
      joins ((owned invocation history).map Prod.fst) entry = false) :
    Tracks ⟨lanes.result ++ [.start entry], invocations⟩ ((entry, lanes.result.length) :: history) where
  member := by
    intro p member
    rcases List.mem_cons.mp member with rfl | member
    · exact ⟨.start entry, List.getElem?_concat_length, rfl⟩
    · obtain ⟨span, found, same⟩ := tracks.member p member
      exact ⟨span, by rw [List.getElem?_append_left (tracks.lt p member), found], same⟩
  current := current
  remembers := by
    intro invocation e k earlier own span found
    rw [owned_cons] at own
    split at own
    next agent =>
      obtain ⟨⟨⟩, rfl⟩ := List.cons.inj own
      rw [List.getElem?_concat_length] at found
      obtain rfl := Option.some.inj found
      exact ⟨rfl, (standing_of_separate (separate invocation agent)).symm⟩
    next =>
      have inside : (e, k) ∈ history := List.mem_of_mem_filter (own ▸ List.mem_cons_self ..)
      rw [List.getElem?_append_left (tracks.lt _ inside)] at found
      exact tracks.remembers invocation e k earlier own span found
  grouped := by
    intro invocation
    rw [owned_cons]
    split
    next agent =>
      refine ⟨tracks.grouped invocation, ?_⟩
      rw [separate invocation agent, if_neg Bool.false_ne_true]
      exact fun p member => tracks.lt p (List.mem_of_mem_filter member)
    next => exact tracks.grouped invocation
  shared := .cons (fun p member same => absurd same (tracks.lt p member).ne') tracks.shared
  observations := by
    intro k span found
    rw [List.map_cons, List.count_cons]
    rcases Nat.lt_or_ge k lanes.result.length with inside | outside
    · rw [List.getElem?_append_left inside] at found
      rw [tracks.observations k span found, if_neg (by simpa using inside.ne'), Nat.add_zero]
    · have last : k = lanes.result.length := by
        have := (List.getElem?_eq_some_iff.mp found).1
        rw [List.length_append, List.length_singleton] at this
        omega
      subst last
      rw [List.getElem?_concat_length] at found
      obtain rfl := Option.some.inj found
      have absent : lanes.result.length ∉ history.map Prod.snd := by
        intro inside
        obtain ⟨p, member, same⟩ := List.mem_map.mp inside
        exact absurd same (tracks.lt p member).ne
      rw [List.count_eq_zero.mpr absent, if_pos (beq_self_eq_true _)]
      rfl
  inhabited := by
    intro k inside
    rw [List.length_append, List.length_singleton] at inside
    rcases Nat.lt_succ_iff_lt_or_eq.mp inside with earlier | rfl
    · obtain ⟨p, member, same⟩ := tracks.inhabited k earlier
      exact ⟨p, .tail _ member, same⟩
    · exact ⟨_, List.mem_cons_self .., rfl⟩

/-- Counting an observation in the segment of the one before it. -/
theorem Tracks.observe (tracks : Tracks lanes history) {k : ℕ} (agent : entry.agentInvocation = some invocation)
    (joined : joins ((owned invocation history).map Prod.fst) entry)
    (head : (owned invocation history).head?.map Prod.snd = some k) :
    Tracks { lanes with result := lanes.result.modify k (·.observe entry) } ((entry, k) :: history) := by
  obtain ⟨previous, earlier, own⟩ : ∃ previous earlier, owned invocation history = (previous, k) :: earlier := by
    cases own : owned invocation history with
    | nil => exact absurd head (by simp [own])
    | cons latest earlier =>
      rw [own] at head
      exact ⟨latest.1, earlier, by rw [← Option.some.inj head]⟩
  have before : (previous, k) ∈ owned invocation history := own ▸ List.mem_cons_self ..
  have agentBefore : previous.agentInvocation = some invocation := by simpa using List.of_mem_filter before
  obtain ⟨span, found, kept⟩ := tracks.member _ (List.mem_of_mem_filter before)
  rw [agentBefore] at kept
  have changed : (lanes.result.modify k (·.observe entry))[k]? = some (span.observe entry) := by
    rw [List.getElem?_modify_eq, found]
    rfl
  have other : ∀ {k' : ℕ}, k' ≠ k → (lanes.result.modify k (·.observe entry))[k']? = lanes.result[k']? :=
    fun ne => List.getElem?_modify_ne _ _ ne.symm
  have separate : ∀ p ∈ history, p.2 = k → p.1.agentInvocation = some invocation := by
    intro p member same
    obtain ⟨span', found', kept'⟩ := tracks.member p member
    obtain rfl : span = span' := Option.some.inj (found.symm.trans (same ▸ found'))
    exact kept'.symm.trans kept
  refine ⟨?member, ?current, ?remembers, ?grouped, ?shared, ?observations, ?inhabited⟩
  case member =>
    intro p member
    rcases List.mem_cons.mp member with rfl | member
    · exact ⟨_, changed, span.observe_agentInvocation entry⟩
    · by_cases same : p.2 = k
      · exact ⟨_, same ▸ changed, (span.observe_agentInvocation entry).trans
          (agent.trans (separate p member same).symm)⟩
      · rw [other same]
        exact tracks.member p member
  case current =>
    intro v
    rw [owned_cons]
    split
    next own' =>
      obtain rfl : v = invocation := Option.some.inj (own'.symm.trans agent)
      exact (tracks.current v).trans head
    next => exact tracks.current v
  case remembers =>
    intro v e k' rest own' span' found'
    rw [owned_cons] at own'
    split at own'
    next same =>
      obtain ⟨⟨⟩, rfl⟩ := List.cons.inj own'
      obtain rfl : v = invocation := Option.some.inj (same.symm.trans agent)
      obtain rfl : span.observe entry = span' := Option.some.inj (changed.symm.trans found')
      obtain ⟨_, project⟩ := tracks.remembers v previous k earlier own span found
      rw [own] at joined ⊢
      refine ⟨span.observe_sessionId entry, ?_⟩
      rw [span.observe_project, project, List.map_cons, standing_of_joins joined]
    next foreign =>
      have inside : (e, k') ∈ owned v history := own' ▸ List.mem_cons_self ..
      have ne : k' ≠ k := by
        rintro rfl
        have := separate _ (List.mem_of_mem_filter inside) rfl
        have mine : e.agentInvocation = some v := by simpa using List.of_mem_filter inside
        exact foreign (agent.trans (this.symm.trans mine))
      exact tracks.remembers v e k' rest own' span' (other ne ▸ found')
  case grouped =>
    intro v
    rw [owned_cons]
    split
    next own' =>
      obtain rfl : v = invocation := Option.some.inj (own'.symm.trans agent)
      exact ⟨tracks.grouped v, by rwa [if_pos joined]⟩
    next => exact tracks.grouped v
  case shared => exact .cons (fun _ _ _ => by rw [agent]; rfl) tracks.shared
  case observations =>
    intro k' span' found'
    rw [List.map_cons, List.count_cons]
    by_cases same : k' = k
    · subst same
      obtain rfl : span.observe entry = span' := Option.some.inj (changed.symm.trans found')
      rw [if_pos (beq_self_eq_true _), ← tracks.observations k' span found]
      rfl
    · rw [other same] at found'
      rw [tracks.observations k' span' found', if_neg (by simpa using Ne.symm same), Nat.add_zero]
  case inhabited =>
    intro k' inside
    rw [List.length_modify] at inside
    obtain ⟨p, member, same⟩ := tracks.inhabited k' inside
    exact ⟨p, .tail _ member, same⟩

/-- One turn of the loop. -/
theorem Tracks.step (tracks : Tracks lanes history) (entry : TimelineEntry) :
    Tracks (lanes.step entry).1 ((entry, (lanes.step entry).2) :: history) := by
  unfold Lanes.step
  split
  next discrete =>
    refine tracks.start (fun v => ?_) (fun v agent => absurd (discrete.symm.trans agent) (by simp))
    rw [owned_cons, if_neg (by simp [discrete])]
    exact tracks.current v
  next invocation agent =>
    have continued : lanes.continued invocation entry = _ := tracks.continued_eq
    split
    next k found =>
      rw [found] at continued
      split at continued
      next joined => exact tracks.observe agent joined continued.symm
      next => exact absurd continued (by simp)
    next absent =>
      have separate : joins ((owned invocation history).map Prod.fst) entry = false := by
        by_contra joined
        rw [Bool.not_eq_false] at joined
        rw [absent, if_pos joined] at continued
        cases own : owned invocation history with
        | nil => simp [own, joins] at joined
        | cons => simp [own] at continued
      refine tracks.start (fun v => ?_) (fun v agent' => ?_)
      · rw [owned_cons, List.lookup_cons]
        by_cases same : v = invocation
        · subst same
          simp [agent]
        · rw [if_neg (by simpa [agent] using Ne.symm same), beq_false_of_ne same]
          exact tracks.current v
      · obtain rfl : v = invocation := Option.some.inj (agent'.symm.trans agent)
        exact separate

end Tracks

section Lanes

private theorem lanes_concat (entries : List TimelineEntry) (entry : TimelineEntry) :
    lanes (entries ++ [entry]) =
      (((lanes entries).1.step entry).1, (lanes entries).2 ++ [((lanes entries).1.step entry).2]) :=
  mapAccum_concat ..

private theorem length_counted (entries : List TimelineEntry) : (counted entries).length = entries.length :=
  length_mapAccum ..

private theorem history_concat (entries : List TimelineEntry) (entry : TimelineEntry) :
    history (entries ++ [entry]) = (entry, ((lanes entries).1.step entry).2) :: history entries := by
  rw [history, counted, lanes_concat, ← counted, List.zip_append (length_counted entries).symm, List.reverse_append]
  rfl

/-- The lanes track every day. -/
theorem tracks_history (entries : List TimelineEntry) : Tracks (lanes entries).1 (history entries) := by
  induction entries using List.reverseRecOn with
  | nil =>
    exact ⟨fun _ member => absurd member List.not_mem_nil, fun _ => rfl, fun _ _ _ _ own => absurd own (by simp [owned, history]),
      fun _ => trivial, .nil, fun _ _ found => absurd found (by simp [lanes, mapAccum]),
      fun _ inside => absurd inside (by simp [lanes, mapAccum])⟩
  | append_singleton entries entry ih =>
    rw [lanes_concat, history_concat]
    exact ih.step entry

private theorem history_eq (entries : List TimelineEntry) : (history entries).map Prod.fst = entries.reverse := by
  rw [history, List.map_reverse, List.map_fst_zip (length_counted entries).ge]

private theorem owned_eq (invocation : ℕ) (entries : List TimelineEntry) :
    (owned invocation (history entries)).map Prod.fst = observationsOf invocation entries := by
  rw [owned, observationsOf, ← List.filter_reverse, ← history_eq, List.filter_map]
  rfl

private theorem counted_eq (entries : List TimelineEntry) :
    (history entries).map Prod.snd = (counted entries).reverse := by
  rw [history, List.map_reverse, List.map_snd_zip (length_counted entries).le]

/-- Observations of one segment belong to one invocation. -/
theorem Tracks.shared_eq {lanes : Lanes} {history : List (TimelineEntry × ℕ)} (tracks : Tracks lanes history) :
    history.Pairwise fun p q => p.2 = q.2 →
      p.1.agentInvocation.isSome ∧ p.1.agentInvocation = q.1.agentInvocation := by
  refine tracks.shared.imp_of_mem fun {p q} inP inQ agent same => ⟨agent same, ?_⟩
  obtain ⟨span, found, ofP⟩ := tracks.member p inP
  obtain ⟨span', found', ofQ⟩ := tracks.member q inQ
  obtain rfl : span = span' := Option.some.inj (found.symm.trans (same ▸ found'))
  exact ofP.symm.trans ofQ

/-- The observations of a segment agree exactly when those of each invocation are separated. -/
theorem pairwise_agree_iff (entries : List TimelineEntry) :
    (history entries).Pairwise Agree ↔ ∀ invocation, Separated (observationsOf invocation entries) := by
  have tracks := tracks_history entries
  have each : (∀ invocation, Separated (observationsOf invocation entries)) ↔
      ∀ invocation, (owned invocation (history entries)).Pairwise Agree :=
    forall_congr' fun invocation => by
      rw [← owned_eq]
      exact ⟨(tracks.grouped invocation).agree_of_separated, (tracks.grouped invocation).separated_of_agree⟩
  rw [each]
  refine ⟨fun agree invocation => agree.filter _, fun agree => ?_⟩
  refine List.pairwise_iff_getElem.mpr fun i j inI inJ lt same => ?_
  obtain ⟨agent, own⟩ := List.pairwise_iff_getElem.mp tracks.shared_eq i j inI inJ lt same
  obtain ⟨invocation, agent⟩ := Option.isSome_iff_exists.mp agent
  have among := List.pairwise_iff_getElem.mp (List.pairwise_filter.mp (agree invocation)) i j inI inJ lt
  exact among (by simp [agent]) (by simp [← own, agent]) same

/-- The segments of a day partition it into compatible observations exactly when, in each invocation, observations
without a session never stand between two sessions unless the project changes there too. -/
theorem partitioned_iff (entries : List TimelineEntry) :
    Partitioned entries ↔ ∀ invocation, Separated (observationsOf invocation entries) := by
  have tracks := tracks_history entries
  have count (k : ℕ) : ((history entries).map Prod.snd).count k = (counted entries).count k := by
    rw [counted_eq, List.count_reverse]
  have zipped : entries.zip (counted entries) = (history entries).reverse := (List.reverse_reverse _).symm
  rw [← pairwise_agree_iff]
  constructor
  · intro partitioned
    have agree := partitioned.agree
    rw [zipped, List.pairwise_reverse] at agree
    exact agree.imp fun rel => Agree.symm fun same => (rel same).2
  · intro agree
    refine ⟨length_counted entries, fun k member => ?_, fun k span found => ?_, fun k inside => ?_, ?_⟩
    · rw [← List.mem_reverse, ← counted_eq] at member
      obtain ⟨p, inside, rfl⟩ := List.mem_map.mp member
      exact tracks.lt p inside
    · rw [← count]
      exact tracks.observations k span found
    · obtain ⟨p, member, rfl⟩ := tracks.inhabited k inside
      rw [← List.mem_reverse, ← counted_eq]
      exact List.mem_map_of_mem member
    · rw [zipped, List.pairwise_reverse]
      refine (tracks.shared_eq.and agree).imp fun rel same => ?_
      obtain ⟨shared, agree⟩ := rel
      obtain ⟨agent, own⟩ := shared same.symm
      exact ⟨⟨own ▸ agent, own.symm⟩, Agree.symm agree same⟩

/-- An observation of an invocation, with the session that it names. -/
private def observation (sequence : ℕ) (sessionId : Option Text) : TimelineEntry where
  sequence := sequence
  timestampMs := 1000 * sequence
  context := { project := some 1, pane := some 1 }
  invocation := some 1
  provider := ['t']
  sessionId := sessionId
  parentSessionId := none
  parentInvocation := none
  kind := .agent
  summary := []

/-- Two sessions of one invocation share a segment once an observation without a session stands between them. -/
theorem silent_observation_merges :
    (spans [observation 1 (some ['a']), observation 2 none, observation 3 (some ['b'])]).length = 1 ∧
      ¬ Partitioned [observation 1 (some ['a']), observation 2 none, observation 3 (some ['b'])] := by
  refine ⟨by decide, fun partitioned => ?_⟩
  have sessions := List.rel_of_pairwise_cons partitioned.agree
    (show (observation 3 (some ['b']), 0) ∈ [(observation 2 none, 0), (observation 3 (some ['b']), 0)] by simp) rfl
  exact absurd sessions.2.1 (by decide)

end Lanes

end Uniterm.Model.Timeline
