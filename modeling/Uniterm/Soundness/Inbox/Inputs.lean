import Uniterm.Soundness.Inbox.Watches

/-! # Runs of the inbox service

Over any inputs each watch is answered once or dropped with its connection, in time, and for a cause of its own or
because of the retention floor. An answer is taken where the output of its connection has room, and lost elsewhere.
-/

namespace Uniterm.Model.Inbox

open Std Board

/-- The times at which an input reads the clock to look for ready watches. -/
def Input.readings : Input → List ℕ
  | .request _ _ _ _ _ _ before _ after _ => [before, after]
  | .tick now => [now]
  | _ => []

def Input.keepsProject : Input → ProjectId → Prop
  | .retainProjects live, project => project ∈ live
  | _, _ => True

def Input.keepsAuthor : Input → Author → Prop
  | .forget pane, author => author.onPane pane = false
  | _, _ => True

/-- Why a watch is answered at an input. -/
inductive Cause (input : Input) (b : Board) (w : Waiter) : Prop where
  | told (told : Service.Told input.readings b w)
  | removed (gone : ¬input.keepsProject w.project)
  | forgotten (ended : ¬input.keepsAuthor w.author)

namespace Runtime

variable {r r' : Runtime} {input : Input}

/-- The watches that were answered, whether or not the answer was taken. -/
def settled (r : Runtime) : List ℕ := (answered r.outputs.sent).map Waiter.watch ++ (answered r.outputs.lost).map Waiter.watch

/-- What holds of the runtime between two inputs: each serial number given out is pending, answered or dropped. -/
structure Sound (r : Runtime) : Prop where
  service : r.service.Sound
  account : (List.range r.service.watches).Perm (r.service.serials ++ r.settled ++ r.dropped)

private theorem sound_initial (epoch : ℕ) : Sound { service := { epoch } } where
  service :=
    { held := held_empty
      keys := List.nodup_nil
      bounded := Nat.zero_le _
      numbered := by simp
      cursors := by simp
      observed := le_rfl
      quiet := by simp }
  account := .refl _

/-- What one input does: what it sends was taken or is lost by the room that the outputs had before. -/
structure Steps (input : Input) (r r' : Runtime) (new gone : List Sent) : Prop where
  sound : r'.Sound
  sent : r'.outputs.sent = r.outputs.sent ++ new
  lost : r'.outputs.lost = r.outputs.lost ++ gone
  taken : ∀ x ∈ new, x.answers ≠ none → r.outputs.Takes x.connection
  refused : ∀ x ∈ gone, x.answers ≠ none → ¬r.outputs.Takes x.connection
  carries : Carries input.keepsProject input.keepsAuthor r.service.board r'.service.board
  watches : r.service.watches ≤ r'.service.watches
  kept : ∀ entry ∈ r'.service.waiting, entry ∈ r.service.waiting ∨ r.service.watches ≤ entry.2.watch
  concerned : ∀ entry ∈ r'.service.waiting, input.keepsProject entry.2.project ∧ input.keepsAuthor entry.2.author
  addressed : ∀ x ∈ new ++ gone, ∀ w, x.answers = some w →
    (x.connection, w) ∈ r.service.waiting ∧ x.response.request = w.request
  caused : ∀ x ∈ new ++ gone, ∀ w, x.answers = some w → Cause input r'.service.board w

/-- A call on the service, put together with the outputs. -/
theorem Sound.then' (sound : r.Sound) {s' : Service} {outputs' : Outputs} {offers : List Sent} (held : s'.Sound)
    (sends : outputs' = r.outputs.sendAll offers)
    (serves : Service.Serves input.keepsProject input.keepsAuthor (Cause input) r.service s' offers)
    (concerned : ∀ entry ∈ s'.waiting, input.keepsProject entry.2.project ∧ input.keepsAuthor entry.2.author) :
    ∃ new gone, Steps input r (r.then' (s', outputs')) new gone := by
  obtain ⟨new, gone, sent, lost, all, taken, refused⟩ := r.outputs.sendAll_split serves.first
  rw [← sends] at sent lost
  refine ⟨new, gone, ⟨held, List.perm_iff_count.mpr fun n => ?_⟩, sent, lost, taken, refused, serves.carries,
    serves.watches, serves.kept, concerned, fun x member => serves.addressed x (all.subset member),
    fun x member => serves.caused x (all.subset member)⟩
  have before := List.perm_iff_count.mp sound.account n
  have during := List.perm_iff_count.mp serves.account n
  have offered := List.perm_iff_count.mp ((all.filterMap Sent.answers).map Waiter.watch) n
  have range : List.range s'.watches =
      List.range r.service.watches ++ List.range' r.service.watches (s'.watches - r.service.watches) := by
    have whole := List.range'_append_1 (s := 0) (m := r.service.watches) (n := s'.watches - r.service.watches)
    rw [Nat.zero_add, Nat.add_sub_cancel' serves.watches] at whole
    rw [List.range_eq_range', List.range_eq_range', whole]
  change List.count n ((answered (new ++ gone)).map Waiter.watch) = List.count n ((answered offers).map Waiter.watch)
    at offered
  unfold settled at before ⊢
  unfold Runtime.then'
  dsimp only
  rw [range, sent, lost]
  simp only [answered_append, List.map_append, List.count_append] at before during offered ⊢
  omega

/-- A removal on the board answers the watches that it concerns. -/
theorem Sound.removes (sound : r.Sound) (input : Input) {b : Board}
    (carries : Carries input.keepsProject input.keepsAuthor r.service.board b)
    (grants : ExtTreeMap Author (ProjectId × Text)) {ready : Waiter → Bool} {response : Waiter → Response}
    (replies : ∀ w, (response w).request = w.request) (causes : ∀ w, ready w = true → Cause input b w)
    (concerned : ∀ w, ready w = false → input.keepsProject w.project ∧ input.keepsAuthor w.author) :
    ∃ new gone, Steps input r (r.then' (Service.answer
      { r.service with board := b, grants, nextExpiry := b.deadline } r.outputs ready response)) new gone := by
  let moved : Service := { r.service with board := b, grants, nextExpiry := b.deadline }
  have carried : moved.Sound := sound.service.carried carries grants b.deadline
  refine sound.then' (carried.fewer List.filter_sublist) (Service.answer_outputs moved r.outputs ready response)
    (Service.answer_serves carried.keys carries rfl rfl rfl r.outputs ready response replies
      fun entry _ => causes entry.2) fun entry member => concerned entry.2 ?_
  have silent := (List.mem_filter.mp member).2
  rwa [Bool.not_eq_true'] at silent

/-- What happens to the outputs beside the service leaves the watches and what was sent alone. -/
theorem Sound.outputs (sound : r.Sound) (input : Input) {outputs : Outputs} (sent : outputs.sent = r.outputs.sent)
    (lost : outputs.lost = r.outputs.lost) (projects : ∀ project, input.keepsProject project)
    (authors : ∀ author, input.keepsAuthor author) : Steps input r { r with outputs } [] [] := by
  have refl : Carries input.keepsProject input.keepsAuthor r.service.board r.service.board := .refl sound.service.held
  refine ⟨⟨sound.service, ?_⟩, by simp [sent], by simp [lost], by simp, by simp, refl, le_rfl,
    fun entry member => .inl member, fun _ _ => ⟨projects _, authors _⟩, by simp, by simp⟩
  have account := sound.account
  unfold settled at account ⊢
  rwa [sent, lost]

private theorem sendBounded_logs (outputs : Outputs) (connection : ℕ) :
    ((outputs.sendBounded connection).getD outputs).sent = outputs.sent ∧
      ((outputs.sendBounded connection).getD outputs).lost = outputs.lost := by
  rcases outputs.sendBounded_cases connection with ⟨-, output, sent⟩ | ⟨-, sent⟩
  · rw [sent]
    exact ⟨rfl, rfl⟩
  · rw [sent]
    exact ⟨rfl, rfl⟩

theorem Sound.steps (sound : r.Sound) (input : Input) : ∃ new gone, Steps input r (r.step input) new gone := by
  cases input with
  | connect connection => exact ⟨[], [], sound.outputs _ rfl rfl (fun _ => trivial) fun _ => trivial⟩
  | request connection request project author epoch operation before now after entropy =>
    unfold Runtime.step
    dsimp only
    split
    · obtain ⟨offers, sends, held, serves⟩ := Service.request_spec sound.service r.outputs connection request project
        author epoch operation before now after entropy
      exact sound.then' held sends (serves.because fun w told => .told told) fun _ _ => ⟨trivial, trivial⟩
    · exact ⟨[], [], sound.outputs _ rfl rfl (fun _ => trivial) fun _ => trivial⟩
  | tick now =>
    obtain ⟨offers, sends, ticked⟩ := Service.tick_ticked sound.service r.outputs now
    exact sound.then' ticked.sound sends (ticked.serves.because fun w told => .told told) fun _ _ => ⟨trivial, trivial⟩
  | retainProjects live =>
    refine sound.removes (.retainProjects live) (sound.service.held.retainProjects live) _ (fun _ => rfl)
      (fun w dead => .removed fun alive => ?_) fun w alive => ⟨?_, trivial⟩
    · rw [ExtTreeSet.contains_iff_mem.mpr alive] at dead
      exact Bool.noConfusion dead
    · rw [Bool.not_eq_false'] at alive
      exact ExtTreeSet.contains_iff_mem.mp alive
  | forget pane =>
    refine sound.removes (.forget pane) (sound.service.held.forgetPane pane) _ (fun _ => rfl)
      (fun w ended => .forgotten fun other => ?_) fun w other => ⟨trivial, other⟩
    rw [show w.author.onPane pane = false from other] at ended
    exact Bool.noConfusion ended
  | disconnect connection =>
    have fewer : (r.service.waiting.filter fun entry => entry.1 != connection).Sublist r.service.waiting :=
      List.filter_sublist
    have split := List.filter_append_perm (fun entry : ℕ × Waiter => entry.1 != connection) r.service.waiting
    refine ⟨[], [], ⟨⟨sound.service.fewer fewer, ?_⟩, (List.append_nil _).symm, (List.append_nil _).symm, by simp, by simp,
      .refl sound.service.held, le_rfl, fun entry member => .inl (fewer.subset member), fun _ _ => ⟨trivial, trivial⟩,
      by simp, by simp⟩⟩
    refine List.perm_iff_count.mpr fun n => ?_
    have before := List.perm_iff_count.mp sound.account n
    have apart := List.perm_iff_count.mp (split.map fun entry => entry.2.watch) n
    unfold Runtime.step Runtime.withQueues Service.disconnect settled Service.serials at *
    dsimp only at *
    simp only [List.map_append, List.count_append, bne, Bool.not_not] at before apart ⊢
    omega
  | frame connection =>
    obtain ⟨sent, lost⟩ := sendBounded_logs r.outputs connection
    exact ⟨[], [], sound.outputs _ sent lost (fun _ => trivial) fun _ => trivial⟩
  | written connection => exact ⟨[], [], sound.outputs _ rfl rfl (fun _ => trivial) fun _ => trivial⟩
  | ended connection => exact ⟨[], [], sound.outputs _ rfl rfl (fun _ => trivial) fun _ => trivial⟩
  | close connection => exact ⟨[], [], sound.outputs _ rfl rfl (fun _ => trivial) fun _ => trivial⟩

/-- The board has something to tell a watch, whatever the time. -/
def Owed (b : Board) (w : Waiter) : Prop := w.author ∈ b.revoked ∨ w.after < b.changedIn w.project

/-- A watch that is no longer pending: it was answered, or its connection disconnected first. -/
def Settled (r : Runtime) (w : Waiter) : Prop := w.watch ∈ r.settled ∨ w.watch ∈ r.dropped

/-- What a pending watch is owed stays owed while it is pending. -/
theorem Steps.owed {new gone : List Sent} (steps : Steps input r r' new gone) {entry : ℕ × Waiter}
    (pending : entry ∈ r'.service.waiting) (owed : Owed r.service.board entry.2) : Owed r'.service.board entry.2 := by
  obtain ⟨project, author⟩ := steps.concerned entry pending
  rcases owed with gone | beyond
  · exact .inl (steps.carries.revoked _ author gone)
  · exact .inr (beyond.trans_le (steps.carries.changed _ project))

/-- What any inputs do with the watches that are pending before them. -/
structure Runs (r r' : Runtime) : Prop where
  sound : r'.Sound
  watches : r.service.watches ≤ r'.service.watches
  kept : ∀ entry ∈ r'.service.waiting, entry ∈ r.service.waiting ∨ r.service.watches ≤ entry.2.watch
  owed : ∀ entry ∈ r'.service.waiting, entry.2.watch < r.service.watches → Owed r.service.board entry.2 →
    Owed r'.service.board entry.2

theorem Sound.runs (sound : r.Sound) (inputs : List Input) : Runs r (inputs.foldl step r) := by
  induction inputs generalizing r with
  | nil => exact ⟨sound, le_rfl, fun entry member => .inl member, fun _ _ _ => id⟩
  | cons input rest ih =>
    obtain ⟨new, gone, steps⟩ := sound.steps input
    have runs := ih steps.sound
    rw [List.foldl_cons]
    refine ⟨runs.sound, steps.watches.trans runs.watches, fun entry member => ?_, fun entry member old owed => ?_⟩
    · rcases runs.kept entry member with before | later
      · exact steps.kept entry before
      · exact .inr (steps.watches.trans later)
    · have before := old.trans_le steps.watches
      have pending := (runs.kept entry member).resolve_right (Nat.not_le.mpr before)
      exact runs.owed entry member before (steps.owed pending owed)

theorem Sound.serials_nodup (sound : r.Sound) : r.service.serials.Nodup := by
  have account := sound.account.nodup_iff.mp List.nodup_range
  exact account.of_append_left.of_append_left

/-- A watch that was pending and no longer is, is settled. -/
theorem Runs.settled (runs : Runs r r') (sound : r.Sound) {entry : ℕ × Waiter} (pending : entry ∈ r.service.waiting)
    (absent : entry ∉ r'.service.waiting) : Settled r' entry.2 := by
  have number : entry.2.watch < r.service.watches := sound.service.numbered entry pending
  have given := runs.sound.account.subset (List.mem_range.mpr (number.trans_le runs.watches))
  rcases List.mem_append.mp given with first | dropped
  · rcases List.mem_append.mp first with still | answered
    · obtain ⟨other, inside, same⟩ := List.mem_map.mp still
      have old := (runs.kept other inside).resolve_right (Nat.not_le.mpr (same ▸ number))
      have equal := List.inj_on_of_nodup_map sound.serials_nodup old pending same
      exact absurd (equal ▸ inside) absent
    · exact .inl answered
  · exact .inr dropped

theorem Steps.runs {new gone : List Sent} (steps : Steps input r r' new gone) : Runs r r' :=
  ⟨steps.sound, steps.watches, steps.kept, fun _ pending _ owed => steps.owed pending owed⟩

/-- After a tick no watch is pending that is owed something or whose deadline has passed. -/
theorem Sound.tick_pending (sound : r.Sound) (now : ℕ) {entry : ℕ × Waiter}
    (pending : entry ∈ (r.step (.tick now)).service.waiting) :
    ¬Owed (r.step (.tick now)).service.board entry.2 ∧ now < entry.2.deadline := by
  obtain ⟨offers, -, ticked⟩ := Service.tick_ticked sound.service r.outputs now
  have quiet := ticked.sound.quiet ticked.observed entry pending
  refine ⟨?_, ticked.early entry pending⟩
  rintro (gone | beyond)
  · exact quiet.authorized gone
  · exact absurd quiet.unchanged (Nat.not_le.mpr beyond)

/-- After any inputs, at most one watch is pending for each connection and at most 64 are; every watch made pending is
pending, answered or dropped, once; what an input answers was pending for that connection and request and has its
cause, and its answer is taken if the output of the connection has room when the input arrives; what is owed or past
its deadline is settled by the next tick, and by the removal of its project or of its pane at once. -/
theorem after_watches (epoch : ℕ) (inputs : List Input) :
    let r := Runtime.after epoch inputs
    (r.service.waiting.map Prod.fst).Nodup ∧ r.service.waiting.length ≤ 64 ∧
    (∀ n < r.service.watches, r.service.serials.count n + r.settled.count n + r.dropped.count n = 1) ∧
    (∀ input, ∃ new gone, (r.step input).outputs.sent = r.outputs.sent ++ new ∧
      (r.step input).outputs.lost = r.outputs.lost ++ gone ∧ ∀ x ∈ new ++ gone, ∀ w, x.answers = some w →
        (x.connection, w) ∈ r.service.waiting ∧ x.response.request = w.request ∧
          Cause input (r.step input).service.board w ∧ (x ∈ new ↔ r.outputs.Takes x.connection)) ∧
    ∀ entry ∈ r.service.waiting,
      (∀ later now, Owed r.service.board entry.2 ∨ entry.2.deadline ≤ now →
        Settled (Runtime.after epoch (inputs ++ later ++ [.tick now])) entry.2) ∧
      (∀ live, entry.2.project ∉ live → Settled (r.step (.retainProjects live)) entry.2) ∧
      ∀ pane, entry.2.author.onPane pane = true → Settled (r.step (.forget pane)) entry.2 := by
  intro r
  have sound : r.Sound := (sound_initial epoch).runs inputs |>.sound
  refine ⟨sound.service.keys, sound.service.bounded, fun n given => ?_, fun input => ?_, fun entry pending =>
    ⟨fun later now due => ?_, fun live dead => ?_, fun pane ended => ?_⟩⟩
  · have account := List.perm_iff_count.mp sound.account n
    rw [List.count_append, List.count_append, List.count_eq_one_of_mem List.nodup_range (List.mem_range.mpr given)]
      at account
    exact account.symm
  · obtain ⟨new, gone, steps⟩ := sound.steps input
    refine ⟨new, gone, steps.sent, steps.lost, fun x member w answers => ?_⟩
    obtain ⟨waited, request⟩ := steps.addressed x member w answers
    have some : x.answers ≠ none := fun none => Option.some_ne_none w (answers.symm.trans none)
    refine ⟨waited, request, steps.caused x member w answers, fun taken => steps.taken x taken some, fun takes => ?_⟩
    rcases List.mem_append.mp member with taken | lost
    · exact taken
    · exact absurd takes (steps.refused x lost some)
  · have runs := sound.runs (later ++ [.tick now])
    have same : Runtime.after epoch (inputs ++ later ++ [.tick now]) =
        (later ++ [Input.tick now]).foldl step r := by
      rw [Runtime.after, List.append_assoc, List.foldl_append]
      rfl
    rw [same]
    refine runs.settled sound pending fun still => ?_
    have owed := runs.owed entry still (sound.service.numbered entry pending)
    rw [List.foldl_append] at still owed
    obtain ⟨quiet, early⟩ := (sound.runs later).sound.tick_pending now still
    rcases due with due | passed
    · exact quiet (owed due)
    · exact absurd passed (Nat.not_le.mpr early)
  · obtain ⟨new, gone, steps⟩ := sound.steps (.retainProjects live)
    exact steps.runs.settled sound pending fun still => dead (steps.concerned entry still).1
  · obtain ⟨new, gone, steps⟩ := sound.steps (.forget pane)
    refine steps.runs.settled sound pending fun still => ?_
    have other : entry.2.author.onPane pane = false := (steps.concerned entry still).2
    rw [ended] at other
    exact Bool.noConfusion other

/-- The human's request in project 2 expires after a second, while an agent watches project 1. -/
def foreignExpiry : List Input :=
  [.connect 1, .connect 2,
    .request 2 1 2 .human none (.post .request "fix".toList none none none "k".toList 1000) 0 0 0 none,
    .request 1 1 1 (.agent 3 7) (some 5) (.watch 1 60000) 0 0 0 none]

/-- The expiry in project 2 raises the retention floor, which answers the watch of project 1: nothing changed there,
its author is a member and its deadline is a minute away. -/
theorem foreignExpiry_answered :
    let r := Runtime.after 5 foreignExpiry
    let next := r.step (.tick 1000)
    let w : Waiter :=
      { watch := 0, request := 1, project := 1, author := .agent 3 7, after := 1, deadline := 60000 }
    r.service.waiting = [(1, w)] ∧ answered r.outputs.sent = [] ∧ answered next.outputs.sent = [w] ∧
      w.author ∉ next.service.board.revoked ∧ next.service.board.changedIn w.project = 0 ∧
      next.service.board.changedIn 2 = 2 ∧ next.service.board.floor = 2 := by
  decide +kernel

end Runtime

end Uniterm.Model.Inbox
