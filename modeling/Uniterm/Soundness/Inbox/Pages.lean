import Uniterm.Soundness.Inbox.Moves
import Uniterm.ToMathlib.ListRanks

/-! # Pagination

A page ends at the change stamp of its last entry, and the next request must pass the cursor check
against the retention floor. The floor follows removals in every project, so a cursor in the middle
of a listing may already lie below it. The listing from zero completes exactly when it needs a
single page or when its first page reaches the floor; every later cursor is then beyond it.
-/

namespace Uniterm.Model.Inbox.Board

open ToMathlib

/-- The live entries of a project, and optionally of one thread. -/
def live (b : Board) (project : ProjectId) (thread : Option ℕ) : List Entry :=
  b.values.filter fun e => e.message.project == project && thread.all (e.message.thread == ·)

/-- Request pages with the cursor of the page before, until one says that there are no more. -/
inductive Paginates (b : Board) (project : ProjectId) (thread : Option ℕ) (limit : ℕ) :
    ℕ → List Entry → ℕ → Prop
  | last {after : ℕ} {page : Page} (listed : b.list project after thread limit = .ok page)
      (final : page.more = false) :
      Paginates b project thread limit after page.entries page.cursor
  | next {after cursor : ℕ} {page : Page} {rest : List Entry}
      (listed : b.list project after thread limit = .ok page) (more : page.more = true)
      (tail : Paginates b project thread limit page.cursor rest cursor) :
      Paginates b project thread limit after (page.entries ++ rest) cursor

/-- Listing from a cursor succeeds and yields the wanted entries once each, in change order. -/
def Yields (b : Board) (project : ProjectId) (thread : Option ℕ) (limit after : ℕ)
    (wanted : Entry → Prop) (cursor : ℕ) : Prop :=
  ∃ entries, b.Paginates project thread limit after entries cursor ∧
    (∀ e, e ∈ entries ↔ wanted e) ∧ entries.Pairwise fun e e' => e.changed < e'.changed

/-- The listing from zero yields the live entries, and its final cursor resumes: after any calls
that neither remove an entry nor truncate the journal, hence leave the floor, listing from it yields
the live entries that are not as they were. -/
def PagesComplete (b : Board) (project : ProjectId) (thread : Option ℕ) (limit : ℕ) : Prop :=
  ∃ cursor, b.Yields project thread limit 0 (· ∈ b.live project thread) cursor ∧
    ∀ calls : List Call, (calls.foldl call b).floor = b.floor →
      ∃ cursor', (calls.foldl call b).Yields project thread limit cursor
        (fun e => e ∈ (calls.foldl call b).live project thread ∧
          b.entries[e.message.id]? ≠ some e) cursor'

section Listing

variable {b : Board} {project : ProjectId} {thread : Option ℕ} {limit after : ℕ}

theorem mem_live {e : Entry} : e ∈ b.live project thread ↔
    (∃ id : ℕ, b.entries[id]? = some e) ∧ e.message.project = project ∧
      thread.all (e.message.thread == ·) = true := by
  simp only [live, List.mem_filter, mem_values, Bool.and_eq_true, beq_iff_eq]

theorem WellFormed.mem_matching (wf : b.WellFormed) {e : Entry} :
    e ∈ b.matching project after thread ↔ e ∈ b.live project thread ∧ after < e.changed := by
  simp only [matching, List.mem_mergeSort, List.mem_filter, projectEntries, List.mem_filterMap,
    wf.indexed, mem_live, Bool.and_eq_true, decide_eq_true_eq]
  constructor
  · rintro ⟨⟨id, ⟨e', read', same⟩, read⟩, late, tagged⟩
    obtain rfl := Option.some.inj (read'.symm.trans read)
    exact ⟨⟨⟨id, read⟩, same, tagged⟩, late⟩
  · rintro ⟨⟨⟨id, read⟩, same, tagged⟩, late⟩
    exact ⟨⟨id, ⟨e, read, same⟩, read⟩, late, tagged⟩

private theorem WellFormed.live_distinct (wf : b.WellFormed) (project : ProjectId)
    (thread : Option ℕ) :
    (b.live project thread).Pairwise fun e e' => e.changed ≠ e'.changed :=
  wf.values_distinct.filter _

/-- Distinct entries of the selection have distinct stamps, so sorting by stamp is strict. -/
theorem WellFormed.matching_sorted (wf : b.WellFormed) :
    (b.matching project after thread).Pairwise fun e e' => e.changed < e'.changed := by
  have ordered : (b.matching project after thread).Pairwise fun e e' => e.changed ≤ e'.changed := by
    refine (List.pairwise_mergeSort ?_ ?_ _).imp of_decide_eq_true
    · intro e e' e'' low high
      simp only [decide_eq_true_eq] at low high ⊢
      omega
    · intro e e'
      simp only [Bool.or_eq_true, decide_eq_true_eq]
      omega
  have apart : (b.matching project after thread).Pairwise fun e e' => e.changed ≠ e'.changed :=
    ((wf.projectEntries_distinct project).filter _).perm (List.mergeSort_perm ..).symm Ne.symm
  exact ordered.imp₂ (fun _ _ => lt_of_le_of_ne) apart

/-- The first request selects the live entries: every stamp is positive. -/
theorem WellFormed.matching_zero (wf : b.WellFormed) (project : ProjectId) (thread : Option ℕ) :
    (b.matching project 0 thread).Perm (b.live project thread) := by
  have apart (entries : List Entry) (distinct : entries.Pairwise fun e e' => e.changed ≠ e'.changed) :
      entries.Nodup := distinct.imp fun stamps same => stamps (congrArg Entry.changed same)
  refine (List.perm_ext_iff_of_nodup
    (apart _ (wf.matching_sorted.imp fun low => low.ne)) (apart _ (wf.live_distinct ..))).mpr ?_
  intro e
  rw [wf.mem_matching, and_iff_left_iff_imp]
  intro member
  obtain ⟨⟨id, read⟩, _⟩ := mem_live.mp member
  exact wf.stamped id e read

/-- A page that is not the last ends at a stamp, and the rest of the selection follows that stamp. -/
theorem WellFormed.matching_next (wf : b.WellFormed) {last : Entry}
    (read : (b.matching project after thread)[pageSize limit - 1]? = some last) :
    b.matching project last.changed thread =
      (b.matching project after thread).drop (pageSize limit) := by
  have positive : pageSize limit - 1 + 1 = pageSize limit := by
    unfold pageSize
    omega
  have late := (wf.mem_matching.mp (List.mem_of_getElem? read)).2
  refine eq_of_sorted_of_mem_iff wf.matching_sorted (wf.matching_sorted.sublist (List.drop_sublist ..)) ?_
  intro e
  rw [← positive, mem_drop_iff_of_sorted wf.matching_sorted read, wf.mem_matching, wf.mem_matching]
  constructor
  · rintro ⟨member, high⟩
    exact ⟨⟨member, late.trans high⟩, high⟩
  · rintro ⟨⟨member, _⟩, high⟩
    exact ⟨member, high⟩

/-- One request, split by whether the selection fits on the page. -/
theorem list_cases (project : ProjectId) (thread : Option ℕ) (limit : ℕ)
    (valid : b.validateCursor after = .ok ()) :
    (∃ page, b.list project after thread limit = .ok page ∧ page.more = false ∧
      (b.matching project after thread).length ≤ pageSize limit ∧
      page.entries = b.matching project after thread ∧ page.cursor = b.sequence) ∨
    ∃ page last, b.list project after thread limit = .ok page ∧ page.more = true ∧
      pageSize limit < (b.matching project after thread).length ∧
      page.entries = (b.matching project after thread).take (pageSize limit) ∧
      (b.matching project after thread)[pageSize limit - 1]? = some last ∧
      page.cursor = last.changed := by
  have positive : 0 < pageSize limit := by
    unfold pageSize
    omega
  by_cases fits : (b.matching project after thread).length ≤ pageSize limit
  · left
    refine ⟨_, by rw [list, valid]; rfl, ?_, fits, ?_, ?_⟩
    · simp [fits]
    · simp [List.take_of_length_le fits]
    · simp [fits]
  · right
    have more := Nat.lt_of_not_le fits
    obtain ⟨last, read⟩ : ∃ last, (b.matching project after thread)[pageSize limit - 1]? = some last :=
      ⟨_, List.getElem?_eq_getElem (by omega)⟩
    have final : ((b.matching project after thread).take (pageSize limit)).getLast? = some last := by
      rw [List.getLast?_take, if_neg positive.ne', read, Option.some_or]
    refine ⟨_, last, by rw [list, valid]; rfl, ?_, more, rfl, read, ?_⟩
    · simp [more]
    · simp [more, final]

theorem validateCursor_eq_ok : b.validateCursor after = .ok () ↔
    after ≤ b.sequence ∧ (after = 0 ∨ b.floor ≤ after) := by
  unfold validateCursor
  split
  · next refused => simp only [reduceCtorEq, false_iff]; omega
  · next accepted => simp only [true_iff]; omega

/-- Once a page ends at or above the floor, the listing runs to its end. -/
theorem WellFormed.paginates (wf : b.WellFormed) (valid : b.validateCursor after = .ok ())
    (reaches : ∀ last, pageSize limit < (b.matching project after thread).length →
      (b.matching project after thread)[pageSize limit - 1]? = some last → b.floor ≤ last.changed) :
    b.Paginates project thread limit after (b.matching project after thread) b.sequence := by
  -- The induction is on the number of entries still to be listed.
  induction count : (b.matching project after thread).length using Nat.strong_induction_on
    generalizing after with
  | _ count' ih =>
    obtain ⟨page, listed, final, _, entries, cursor⟩ |
      ⟨page, last, listed, more, longer, entries, read, cursor⟩ :=
        list_cases project thread limit valid
    · rw [← entries, ← cursor]
      exact .last listed final
    · have above := reaches last longer read
      have next := wf.matching_next read
      obtain ⟨⟨id, found⟩, _⟩ := mem_live.mp (wf.mem_matching.mp (List.mem_of_getElem? read)).1
      have valid' : b.validateCursor last.changed = .ok () :=
        validateCursor_eq_ok.mpr ⟨(wf.bounded id last found).2, .inr above⟩
      have reaches' : ∀ last', pageSize limit < (b.matching project last.changed thread).length →
          (b.matching project last.changed thread)[pageSize limit - 1]? = some last' →
          b.floor ≤ last'.changed := by
        intro last' _ read'
        exact above.trans (wf.mem_matching.mp (List.mem_of_getElem? read')).2.le
      have shorter : (b.matching project last.changed thread).length < count' := by
        have : 0 < pageSize limit := by unfold pageSize; omega
        rw [next, List.length_drop]
        omega
      have tail := ih _ shorter valid' reaches' rfl
      have whole : b.matching project after thread =
          page.entries ++ b.matching project last.changed thread := by
        rw [next, entries, List.take_append_drop]
      rw [whole]
      rw [← cursor] at tail ⊢
      exact .next listed more tail

theorem Paginates.valid {entries : List Entry} {cursor : ℕ}
    (paginates : b.Paginates project thread limit after entries cursor) :
    b.validateCursor after = .ok () := by
  have accepted {page : Page} (listed : b.list project after thread limit = .ok page) :
      b.validateCursor after = .ok () := by
    rw [list] at listed
    cases checked : b.validateCursor after with
    | ok => rfl
    | error refusal => simp [checked, bind, Except.bind] at listed
  cases paginates with
  | last listed final => exact accepted listed
  | next listed more tail => exact accepted listed

end Listing

/-- Entries not stamped since an earlier board are entries of that board. -/
def Continues (origin b : Board) : Prop :=
  origin.sequence ≤ b.sequence ∧ ∀ (id : ℕ) e, b.entries[id]? = some e →
    e.changed ≤ origin.sequence → origin.entries[id]? = some e

private theorem Continues.record {origin b : Board} (continues : Continues origin b) (event : Event) :
    Continues origin (b.record event) := by
  refine ⟨by rw [record_sequence]; exact Nat.le_succ_of_le continues.1, fun id e read old => ?_⟩
  have := continues.1
  obtain ⟨message, _, _, rfl⟩ | ⟨before, found, _, rfl | ⟨stamp, _⟩⟩ := record_entry_cases read
  · simp only at old
    omega
  · exact continues.2 id e found old
  · omega

theorem Continues.move {origin b b' : Board} (continues : Continues origin b) (move : Move b b') :
    Continues origin b' := by
  refine move.keeps_recorded (fun _ event continues _ => continues.record event) ?_ continues
  intro b b' entries sequence continues
  rwa [Continues, entries, sequence]

/-- The final cursor is the sequence, so a later listing from it selects what changed since. -/
private theorem WellFormed.resumes {b : Board} (wf : b.WellFormed) (calls : List Call)
    (floor : (calls.foldl call b).floor = b.floor) (project : ProjectId) (thread : Option ℕ)
    (limit : ℕ) : ∃ cursor', (calls.foldl call b).Yields project thread limit b.sequence
      (fun e => e ∈ (calls.foldl call b).live project thread ∧ b.entries[e.message.id]? ≠ some e)
      cursor' := by
  have wf' : (calls.foldl call b).WellFormed := calls_keep (fun _ _ wf move => wf.move move) wf calls
  have continues : Continues b (calls.foldl call b) :=
    calls_keep (fun _ _ continues move => continues.move move) ⟨le_rfl, fun _ _ read _ => read⟩ calls
  generalize calls.foldl call b = b' at floor wf' continues
  have valid : b'.validateCursor b.sequence = .ok () := by
    have := wf.floored
    exact validateCursor_eq_ok.mpr ⟨continues.1, .inr (by omega)⟩
  refine ⟨b'.sequence, _, wf'.paginates valid ?_, fun e => ?_, wf'.matching_sorted⟩
  · intro last _ read
    have late := (wf'.mem_matching.mp (List.mem_of_getElem? read)).2
    have := wf.floored
    omega
  · rw [wf'.mem_matching, and_congr_right_iff]
    intro member
    obtain ⟨⟨id, read⟩, _⟩ := mem_live.mp member
    rw [wf'.keyed id e read]
    constructor
    · intro late same
      have := (wf.bounded id e same).2
      omega
    · intro differs
      by_contra early
      exact differs (continues.2 id e read (Nat.le_of_not_lt early))

/-- The second request is accepted exactly when the first page ends at or above the floor. -/
theorem WellFormed.pagesComplete_iff {b : Board} (wf : b.WellFormed) (project : ProjectId)
    (thread : Option ℕ) (limit : ℕ) :
    b.PagesComplete project thread limit ↔
      (b.live project thread).length ≤ pageSize limit ∨
        ((b.live project thread).filter fun e => e.changed < b.floor).length < pageSize limit := by
  have positive : 0 < pageSize limit := by unfold pageSize; omega
  have perm := wf.matching_zero project thread
  have start : b.validateCursor 0 = .ok () := validateCursor_eq_ok.mpr ⟨Nat.zero_le _, .inl rfl⟩
  rw [← perm.length_eq, ← (perm.filter _).length_eq]
  constructor
  · rintro ⟨cursor, ⟨entries, paginates, _⟩, _⟩
    obtain ⟨page, listed, final, fits, _⟩ | ⟨page, last, listed, more, _, _, read, ends⟩ :=
      list_cases project thread limit start
    · exact .inl fits
    · right
      cases paginates with
      | last listed' final =>
        obtain rfl := Except.ok.inj (listed.symm.trans listed')
        rw [final] at more
        contradiction
      | next listed' _ tail =>
        obtain rfl := Except.ok.inj (listed.symm.trans listed')
        have late := (wf.mem_matching.mp (List.mem_of_getElem? read)).2
        have above := (validateCursor_eq_ok.mp tail.valid).2
        have below := (key_lt_iff_of_sorted wf.matching_sorted read b.floor).not.mp (by omega)
        omega
  · intro condition
    refine ⟨b.sequence, ⟨b.matching project 0 thread, wf.paginates start ?_, fun e => perm.mem_iff,
      wf.matching_sorted⟩, fun calls floor => wf.resumes calls floor project thread limit⟩
    intro last longer read
    rcases condition with fits | few
    · omega
    · by_contra below
      have := (key_lt_iff_of_sorted wf.matching_sorted read b.floor).mp (by omega)
      omega

/-- In every reachable board the listing from zero is complete exactly when it fits on one page or
when fewer live entries than a page holds were last changed below the retention floor. -/
theorem reached_pages_complete_iff (b : Board) (reached : Reached b) (project : ProjectId)
    (thread : Option ℕ) (limit : ℕ) :
    b.PagesComplete project thread limit ↔
      (b.live project thread).length ≤ pageSize limit ∨
        ((b.live project thread).filter fun e => e.changed < b.floor).length < pageSize limit :=
  reached.wellFormed.pagesComplete_iff project thread limit

/-- Two posts of one project, and a shorter-lived post of another project. -/
def mixedPosts : List Call :=
  [.apply 1 .human (.post .plan ['a'] none none none ['a'] 10000) 0,
   .apply 1 .human (.post .plan ['b'] none none none ['b'] 10000) 0,
   .apply 2 .human (.post .plan ['c'] none none none ['c'] 1000) 0]

theorem reached_pages_complete_mixed : (after mixedPosts).PagesComplete 1 none 1 := by
  refine (reached_pages_complete_iff _ (reached_after mixedPosts) 1 none 1).mpr (.inr ?_)
  decide +kernel

/-- Expiry of the post of the other project raises the floor above the first page of this one. -/
theorem pages_incomplete_after_expiry :
    Reached (after (mixedPosts ++ [.expire 1000])) ∧
      ¬ (after (mixedPosts ++ [.expire 1000])).PagesComplete 1 none 1 := by
  refine ⟨reached_after _, ?_⟩
  rw [(reached_after _).wellFormed.pagesComplete_iff]
  decide +kernel

end Uniterm.Model.Inbox.Board
