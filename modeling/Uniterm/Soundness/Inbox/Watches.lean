import Uniterm.Soundness.Inbox.Growth
import Uniterm.Soundness.Inbox.Pages
import Mathlib.Data.List.Perm.Basic
import Mathlib.Data.List.Nodup

/-! # Pending watches

Every watch that is made pending takes a serial number, and after any inputs each number given out is found
exactly once: pending, answered, or dropped with its connection. A tick leaves no watch pending that has
something to be told, because the sequence moves with everything that a watch waits for, and a watch is answered
only for its own project, author or deadline, or because the retention floor passed its cursor.

No call looks at what the outputs take, so the responses are first listed as they are offered. The one that
answers a watch is the first offered to its connection in that call, and is taken if the output had room before.
-/

namespace Uniterm.Model.Inbox

open Std Board

variable {outputs outputs' : Outputs} {s s' s'' : Service} {offers offers' : List Sent}

/-- The watches that responses answer. -/
def answered (sent : List Sent) : List Waiter := sent.filterMap Sent.answers

theorem answered_append : answered (offers ++ offers') = answered offers ++ answered offers' := List.filterMap_append

section Outputs

/-- The output of a connection takes another frame. -/
def Outputs.Takes (outputs : Outputs) (connection : ℕ) : Prop :=
  ∃ output, outputs.queues[connection]? = some output ∧ output.closed = false ∧ output.frames < controlMaxQueuedFrames

def Outputs.sendAll (outputs : Outputs) (offers : List Sent) : Outputs :=
  offers.foldl (fun outputs x => Service.send outputs x.connection x.response x.answers) outputs

/-- The response that answers a watch is the first that its connection is offered. -/
def First (offers : List Sent) : Prop := offers.Pairwise fun y x => x.answers ≠ none → y.connection ≠ x.connection

theorem Outputs.sendAll_append : outputs.sendAll (offers ++ offers') = (outputs.sendAll offers).sendAll offers' :=
  List.foldl_append

theorem Outputs.sendBounded_cases (outputs : Outputs) (connection : ℕ) :
    (outputs.Takes connection ∧ ∃ output, outputs.sendBounded connection =
      some { outputs with queues := outputs.queues.insert connection output }) ∨
    ¬outputs.Takes connection ∧ outputs.sendBounded connection = none := by
  unfold Outputs.sendBounded Outputs.Takes Output.trySend
  rcases outputs.queues[connection]? with none | output
  · simp
  · cases closed : output.closed
    · by_cases room : output.frames < controlMaxQueuedFrames
      · exact .inl ⟨⟨output, rfl, closed, room⟩, { output with frames := output.frames + 1 }, by simp [closed, Nat.not_le.mpr room]⟩
      · exact .inr ⟨by simp [room], by simp [closed, Nat.le_of_not_lt room]⟩
    · simp [closed]

/-- Other connections take what they took before. -/
theorem Outputs.takes_send {connection other : ℕ} (apart : connection ≠ other) (response : Response)
    (answers : Option Waiter) : (Service.send outputs connection response answers).Takes other ↔ outputs.Takes other := by
  unfold Service.send
  rcases outputs.sendBounded_cases connection with ⟨-, output, sent⟩ | ⟨-, sent⟩
  · rw [sent]
    simp [Outputs.Takes, ExtTreeMap.getElem?_insert, apart]
  · rw [sent]
    rfl

/-- Of the responses offered, those that answer a watch are taken exactly where there was room before. -/
theorem Outputs.sendAll_split (first : First offers) : ∃ new gone,
    (outputs.sendAll offers).sent = outputs.sent ++ new ∧ (outputs.sendAll offers).lost = outputs.lost ++ gone ∧
    (new ++ gone).Perm offers ∧ (∀ x ∈ new, x.answers ≠ none → outputs.Takes x.connection) ∧
    ∀ x ∈ gone, x.answers ≠ none → ¬outputs.Takes x.connection := by
  induction offers generalizing outputs with
  | nil => exact ⟨[], [], (List.append_nil _).symm, (List.append_nil _).symm, .refl _, by simp, by simp⟩
  | cons x rest ih =>
    obtain ⟨ahead, first⟩ := List.pairwise_cons.mp first
    obtain ⟨new, gone, sent, lost, all, taken, refused⟩ :=
      @ih (Service.send outputs x.connection x.response x.answers) first
    have same {y : Sent} (later : y ∈ rest) (answers : y.answers ≠ none) :
        (Service.send outputs x.connection x.response x.answers).Takes y.connection ↔ outputs.Takes y.connection :=
      takes_send (ahead y later answers) x.response x.answers
    have early (y : Sent) (member : y ∈ new) (answers : y.answers ≠ none) : outputs.Takes y.connection :=
      (same (all.subset (List.mem_append_left _ member)) answers).mp (taken y member answers)
    have late (y : Sent) (member : y ∈ gone) (answers : y.answers ≠ none) : ¬outputs.Takes y.connection :=
      fun takes => refused y member answers ((same (all.subset (List.mem_append_right _ member)) answers).mpr takes)
    rw [sendAll, List.foldl_cons]
    change (sendAll _ rest).sent = _ at sent
    rcases outputs.sendBounded_cases x.connection with ⟨takes, output, accepted⟩ | ⟨full, refusal⟩
    · refine ⟨x :: new, gone, sent.trans ?_, lost.trans ?_, all.cons x, ?_, late⟩
      · simp [Service.send, accepted]
      · simp [Service.send, accepted]
      · exact List.forall_mem_cons.mpr ⟨fun _ => takes, early⟩
    · refine ⟨new, x :: gone, sent.trans ?_, lost.trans ?_, List.perm_middle.trans (all.cons x), early, ?_⟩
      · simp [Service.send, refusal]
      · simp [Service.send, refusal]
      · exact List.forall_mem_cons.mpr ⟨fun _ => full, late⟩

end Outputs

namespace Service

/-- The serial numbers of the pending watches. -/
def serials (s : Service) : List ℕ := s.waiting.map fun entry => entry.2.watch

/-- Nothing on the board concerns the watch. -/
structure Quiet (b : Board) (w : Waiter) : Prop where
  authorized : w.author ∉ b.revoked
  unchanged : b.changedIn w.project ≤ w.after
  retained : w.after = 0 ∨ b.floor ≤ w.after

private theorem ready_eq_false {b : Board} {now : ℕ} {w : Waiter} (cursor : w.after ≤ b.sequence) :
    ready b now w = false ↔ now < w.deadline ∧ Quiet b w := by
  have valid : (b.validateCursor w.after).isOk = true ↔ w.after = 0 ∨ b.floor ≤ w.after := by
    rw [← and_iff_right cursor (b := w.after = 0 ∨ b.floor ≤ w.after), ← validateCursor_eq_ok]
    cases b.validateCursor w.after <;> simp [Except.isOk, Except.toBool]
  have member : (b.authorize w.author).isOk = true ↔ w.author ∉ b.revoked := by
    unfold Board.authorize
    split <;> simp [Except.isOk, Except.toBool, *]
  unfold ready
  simp only [Bool.or_eq_false_iff, decide_eq_false_iff_not, Bool.not_eq_false', valid, member, Nat.not_le, Nat.not_lt,
    gt_iff_lt]
  constructor
  · rintro ⟨⟨⟨deadline, authorized⟩, unchanged⟩, retained⟩
    exact ⟨deadline, authorized, unchanged, retained⟩
  · rintro ⟨deadline, quiet⟩
    exact ⟨⟨⟨deadline, quiet.authorized⟩, quiet.unchanged⟩, quiet.retained⟩

/-- What holds of the service between two inputs. -/
structure Sound (s : Service) : Prop where
  held : s.board.Held
  keys : (s.waiting.map Prod.fst).Nodup
  bounded : s.waiting.length ≤ 64
  numbered : ∀ entry ∈ s.waiting, entry.2.watch < s.watches
  cursors : ∀ entry ∈ s.waiting, entry.2.after ≤ s.board.sequence
  observed : s.observedSequence ≤ s.board.sequence
  quiet : s.observedSequence = s.board.sequence → ∀ entry ∈ s.waiting, Quiet s.board entry.2

/-- What a call that offers responses does with the watches: each is accounted for, and each answer goes to the
connection and the request that it was pending for, ahead of what else goes there, and has a cause on the board left
behind. -/
structure Serves (projects : ProjectId → Prop) (authors : Author → Prop) (cause : Board → Waiter → Prop) (s s' : Service)
    (offers : List Sent) : Prop where
  carries : Carries projects authors s.board s'.board
  watches : s.watches ≤ s'.watches
  account : (s.serials ++ List.range' s.watches (s'.watches - s.watches)).Perm
    (s'.serials ++ (answered offers).map Waiter.watch)
  kept : ∀ entry ∈ s'.waiting, entry ∈ s.waiting ∨ s.watches ≤ entry.2.watch
  addressed : ∀ x ∈ offers, ∀ w, x.answers = some w → (x.connection, w) ∈ s.waiting ∧ x.response.request = w.request
  caused : ∀ x ∈ offers, ∀ w, x.answers = some w → cause s'.board w
  first : First offers

section Answers

variable {projects : ProjectId → Prop} {authors : Author → Prop} {cause : Board → Waiter → Prop}

/-- The responses that answer the ready watches. -/
def answers (s : Service) (ready : Waiter → Bool) (response : Waiter → Response) : List Sent :=
  (s.waiting.filter fun entry => ready entry.2).map fun entry =>
    { connection := entry.1, response := response entry.2, answers := some entry.2 }

theorem answer_outputs (s : Service) (outputs : Outputs) (ready : Waiter → Bool) (response : Waiter → Response) :
    (s.answer outputs ready response).2 = outputs.sendAll (s.answers ready response) := by
  rw [answers, Outputs.sendAll, List.foldl_map]
  rfl

private theorem answered_answers (ready : Waiter → Bool) (response : Waiter → Response) :
    answered (s.answers ready response) = (s.waiting.filter fun entry => ready entry.2).map Prod.snd := by
  rw [answered, answers, List.filterMap_map]
  exact List.filterMap_eq_map_iff_forall_eq_some.mpr fun _ _ => rfl

private theorem mem_answers {ready : Waiter → Bool} {response : Waiter → Response} {x : Sent}
    (member : x ∈ s.answers ready response) : ∃ entry ∈ s.waiting, ready entry.2 = true ∧
      x = { connection := entry.1, response := response entry.2, answers := some entry.2 } := by
  obtain ⟨entry, inside, rfl⟩ := List.mem_map.mp member
  obtain ⟨old, told⟩ := List.mem_filter.mp inside
  exact ⟨entry, old, told, rfl⟩

/-- Answering the ready watches accounts for every watch. -/
theorem answer_serves {b : Board} (keys : (s.waiting.map Prod.fst).Nodup)
    (carries : Carries projects authors b s.board) (same : s'.board = b) (waiting : s'.waiting = s.waiting)
    (watches : s'.watches = s.watches) (outputs : Outputs) (ready : Waiter → Bool) (response : Waiter → Response)
    (replies : ∀ w, (response w).request = w.request)
    (causes : ∀ entry ∈ s.waiting, ready entry.2 = true → cause s.board entry.2) :
    Serves projects authors cause s' (s.answer outputs ready response).1 (s.answers ready response) := by
  refine ⟨same ▸ carries, watches.le, ?_, fun entry member => .inl ?_, fun x member w answers => ?_,
    fun x member w answers => ?_, ?_⟩
  · have none : (s.answer outputs ready response).1.watches - s'.watches = 0 := by
      rw [watches]
      exact Nat.sub_self _
    rw [none, List.range'_zero, List.append_nil, answered_answers, serials, waiting, List.map_map, serials]
    refine .trans ?_ List.perm_append_comm
    have split := List.filter_append_perm (fun entry => ready entry.2) s.waiting
    exact (split.symm.map fun entry => entry.2.watch).trans (by rw [List.map_append])
  · rw [waiting]
    exact List.mem_of_mem_filter member
  · obtain ⟨entry, old, -, rfl⟩ := mem_answers member
    cases answers
    exact ⟨waiting ▸ old, replies entry.2⟩
  · obtain ⟨entry, old, told, rfl⟩ := mem_answers member
    cases answers
    exact causes entry old told
  · have apart : (s.waiting.filter fun entry => ready entry.2).Pairwise fun one other => one.1 ≠ other.1 :=
      List.pairwise_map.mp (keys.sublist (List.filter_sublist.map _))
    refine List.pairwise_map.mpr (apart.imp ?_)
    intro one other apart _
    exact apart

/-- No watch is left pending for a connection whose watch was answered. -/
theorem answers_freed (keys : (s.waiting.map Prod.fst).Nodup) (outputs : Outputs) (ready : Waiter → Bool)
    (response : Waiter → Response) {x : Sent} (offered : x ∈ s.answers ready response) {entry : ℕ × Waiter}
    (pending : entry ∈ (s.answer outputs ready response).1.waiting) : x.connection ≠ entry.1 := by
  intro same
  obtain ⟨other, old, told, rfl⟩ := mem_answers offered
  obtain ⟨inside, silent⟩ := List.mem_filter.mp pending
  have equal : other = entry := List.inj_on_of_nodup_map keys old inside same
  rw [equal] at told
  rw [told] at silent
  exact Bool.noConfusion silent

theorem Serves.because {cause' : Board → Waiter → Prop} (serves : Serves projects authors cause s s' offers)
    (weaker : ∀ w, cause s'.board w → cause' s'.board w) : Serves projects authors cause' s s' offers :=
  ⟨serves.carries, serves.watches, serves.account, serves.kept, serves.addressed,
    fun x member w answers => weaker w (serves.caused x member w answers), serves.first⟩

/-- Two calls after each other, when the first makes no watch pending and leaves none for a connection that it offers a
response, and the second keeps what caused the answers of the first. -/
theorem Serves.trans (first : Serves projects authors cause s s' offers)
    (second : Serves projects authors cause s' s'' offers') (old : s'.waiting ⊆ s.waiting)
    (freed : ∀ x ∈ offers, ∀ entry ∈ s'.waiting, x.connection ≠ entry.1)
    (lasts : ∀ w, cause s'.board w → cause s''.board w) :
    Serves projects authors cause s s'' (offers ++ offers') := by
  have le := first.watches
  have le' := second.watches
  refine ⟨first.carries.trans second.carries, le.trans le', ?_, fun entry member => ?_, fun x member w answers => ?_,
    fun x member w answers => ?_, List.pairwise_append.mpr ⟨first.first, second.first, fun y early x late answers => ?_⟩⟩
  · have ranges : List.range' s.watches (s''.watches - s.watches) =
        List.range' s.watches (s'.watches - s.watches) ++ List.range' s'.watches (s''.watches - s'.watches) := by
      have start : s.watches + (s'.watches - s.watches) = s'.watches := by omega
      have total : s'.watches - s.watches + (s''.watches - s'.watches) = s''.watches - s.watches := by omega
      have appended := List.range'_append_1 (s := s.watches) (m := s'.watches - s.watches)
        (n := s''.watches - s'.watches)
      rw [start, total] at appended
      exact appended.symm
    rw [ranges, ← List.append_assoc, answered_append, List.map_append]
    refine (first.account.append_right _).trans ?_
    rw [List.append_assoc]
    refine (List.perm_append_comm.append_left _).trans ?_
    rw [← List.append_assoc]
    refine (second.account.append_right _).trans ?_
    rw [List.append_assoc]
    exact List.perm_append_comm.append_left _
  · rcases second.kept entry member with old | new
    · exact first.kept entry old
    · exact .inr (le.trans new)
  · rcases List.mem_append.mp member with early | late
    · exact first.addressed x early w answers
    · obtain ⟨waited, request⟩ := second.addressed x late w answers
      exact ⟨old waited, request⟩
  · rcases List.mem_append.mp member with early | late
    · exact lasts w (first.caused x early w answers)
    · exact second.caused x late w answers
  · obtain ⟨w, told⟩ := Option.ne_none_iff_exists'.mp answers
    exact freed y early _ (second.addressed x late w told).1

end Answers

section Ticks

private theorem response_request (s : Service) (request : ℕ) (project : ProjectId) (author : Author) (after : ℕ)
    (thread : Option ℕ) (limit : ℕ) (id : Option ℕ) :
    (s.response request project author after thread limit id).request = request := by
  unfold Service.response
  split <;> rfl

/-- Why a watch is answered when the clock is read at some times. -/
inductive Told (times : List ℕ) (b : Board) (w : Waiter) : Prop where
  | deadline (now : ℕ) (read : now ∈ times) (passed : w.deadline ≤ now)
  | revoked (gone : w.author ∈ b.revoked)
  | changed (beyond : w.after < b.changedIn w.project)
  | behind (cursor : w.after ≠ 0) (floor : w.after < b.floor)

theorem Told.grow {times times' : List ℕ} {b b' : Board} {w : Waiter} (told : Told times b w) (grown : Grown b b')
    (more : times ⊆ times') : Told times' b' w := by
  cases told with
  | deadline now read passed => exact .deadline now (more read) passed
  | revoked gone => exact .revoked (grown.revoked _ trivial gone)
  | changed beyond => exact .changed (beyond.trans_le (grown.changed _ trivial))
  | behind cursor floor => exact .behind cursor (floor.trans_le grown.floor)

private theorem told_of_ready {b : Board} {now : ℕ} {w : Waiter} (cursor : w.after ≤ b.sequence)
    (told : ready b now w = true) :
    Told [now] b w := by
  by_contra silent
  have quiet : ready b now w = false := (ready_eq_false cursor).mpr
    ⟨Nat.lt_of_not_le fun passed => silent (.deadline now (List.mem_singleton_self now) passed),
      fun gone => silent (.revoked gone), Nat.le_of_not_lt fun beyond => silent (.changed beyond),
      or_iff_not_imp_left.mpr fun cursor => Nat.le_of_not_lt fun behind => silent (.behind cursor behind)⟩
  rw [told] at quiet
  exact Bool.noConfusion quiet

/-- What a tick leaves behind. -/
structure Ticked (now : ℕ) (s s' : Service) (offers : List Sent) : Prop where
  sound : s'.Sound
  serves : Serves (fun _ => True) (fun _ => True) (Told [now]) s s' offers
  observed : s'.observedSequence = s'.board.sequence
  early : ∀ entry ∈ s'.waiting, now < entry.2.deadline
  watches : s'.watches = s.watches
  fewer : s'.waiting.Sublist s.waiting
  freed : ∀ x ∈ offers, ∀ entry ∈ s'.waiting, x.connection ≠ entry.1

private theorem wake_ticked (sound : s.Sound) (outputs : Outputs) (now : ℕ) (due : Bool) : ∃ offers,
    (s.wake outputs now due).2 = outputs.sendAll offers ∧ Ticked now s (s.wake outputs now due).1 offers := by
  have swept : ∃ b next, Grown s.board b ∧ (if due = true then
      { s with board := s.board.expire now, nextExpiry := (s.board.expire now).deadline } else s) =
        { s with board := b, nextExpiry := next } := by
    cases due with
    | true => exact ⟨_, _, sound.held.expire now, rfl⟩
    | false => exact ⟨s.board, s.nextExpiry, .refl sound.held, rfl⟩
  obtain ⟨b, next, grown, same⟩ := swept
  unfold wake
  dsimp only
  rw [same]
  dsimp only
  have cursors (entry : ℕ × Waiter) (member : entry ∈ s.waiting) : entry.2.after ≤ b.sequence :=
    (sound.cursors entry member).trans grown.sequence
  have kept {entry : ℕ × Waiter} (member : entry ∈ s.waiting.filter fun entry => !ready b now entry.2) :
      entry ∈ s.waiting ∧ now < entry.2.deadline ∧ Quiet b entry.2 := by
    obtain ⟨inside, silent⟩ := List.mem_filter.mp member
    rw [Bool.not_eq_true'] at silent
    exact ⟨inside, (ready_eq_false (cursors entry inside)).mp silent⟩
  have fewer : (s.waiting.filter fun entry => !ready b now entry.2).Sublist s.waiting := List.filter_sublist
  let swept : Service := { s with board := b, nextExpiry := next, observedSequence := b.sequence }
  have keys : (swept.waiting.map Prod.fst).Nodup := sound.keys
  refine ⟨_, answer_outputs .., ⟨grown.held, sound.keys.sublist (fewer.map _), fewer.length_le.trans sound.bounded,
      fun entry member => sound.numbered entry (kept member).1, fun entry member => cursors entry (kept member).1, le_rfl,
      fun _ entry member => (kept member).2.2⟩, ?_, rfl, fun entry member => (kept member).2.1, rfl, fewer, ?_⟩
  · exact answer_serves keys grown rfl rfl rfl outputs _ _ (fun w => response_request ..)
      fun entry member told => told_of_ready (cursors entry member) told
  · exact fun x offered entry pending => answers_freed keys outputs _ _ offered pending

/-- After a tick no pending watch is ready: where the tick returned early, none was. -/
theorem tick_ticked (sound : s.Sound) (outputs : Outputs) (now : ℕ) : ∃ offers,
    (s.tick outputs now).2 = outputs.sendAll offers ∧ Ticked now s (s.tick outputs now).1 offers := by
  have idle : Serves (fun _ => True) (fun _ => True) (Told [now]) s s [] :=
    ⟨.refl sound.held, le_rfl, by simp [answered], fun entry member => .inl member, by simp, by simp, .nil⟩
  unfold tick
  split
  next quiet =>
    simp only [Bool.and_eq_true, List.isEmpty_iff, beq_iff_eq] at quiet
    refine ⟨[], rfl, sound, idle, quiet.2, ?_, rfl, List.Sublist.refl _, by simp⟩
    rw [quiet.1.2]
    simp
  dsimp only
  split
  next quiet =>
    simp only [Bool.and_eq_true, Bool.not_eq_true', bne_eq_false_iff_eq, List.all_eq_true, decide_eq_true_eq] at quiet
    exact ⟨[], rfl, sound, idle, quiet.1.2, quiet.2, rfl, List.Sublist.refl _, by simp⟩
  · exact wake_ticked sound outputs now _

end Ticks

section Requests

variable {projects : ProjectId → Prop} {authors : Author → Prop}

/-- A board that moved on without a new sequence number concerns no watch. -/
theorem Sound.carried (sound : s.Sound) {b : Board} (carries : Carries projects authors s.board b)
    (grants : ExtTreeMap Author (ProjectId × Text)) (nextExpiry : Option ℕ) :
    Sound { s with board := b, grants, nextExpiry } := by
  have le := carries.sequence
  have observed := sound.observed
  refine ⟨carries.held, sound.keys, sound.bounded, sound.numbered,
    fun entry member => (sound.cursors entry member).trans le, observed.trans le, fun same entry member => ?_⟩
  dsimp only at same
  obtain ⟨floor, changed, revoked⟩ := carries.still (by omega)
  have quiet := sound.quiet (by omega) entry member
  exact ⟨fun gone => quiet.authorized (revoked _ gone), (changed _).trans quiet.unchanged, floor.symm ▸ quiet.retained⟩

/-- Fewer watches are no harder to keep. -/
theorem Sound.fewer (sound : s.Sound) {waiting : List (ℕ × Waiter)} (fewer : waiting.Sublist s.waiting) :
    Sound { s with waiting } :=
  ⟨sound.held, sound.keys.sublist (fewer.map _), fewer.length_le.trans sound.bounded,
    fun entry member => sound.numbered entry (fewer.subset member),
    fun entry member => sound.cursors entry (fewer.subset member), sound.observed,
    fun same entry member => sound.quiet same entry (fewer.subset member)⟩

/-- A call that leaves the watches alone. -/
theorem serves_board {cause : Board → Waiter → Prop} {b : Board} (carries : Carries projects authors s.board b)
    (grants : ExtTreeMap Author (ProjectId × Text)) (nextExpiry : Option ℕ) (connection : ℕ) (response : Response) :
    Serves projects authors cause s { s with board := b, grants, nextExpiry }
      [{ connection, response, answers := none }] :=
  ⟨carries, le_rfl, by simp [serials, answered], fun entry member => .inl member, by simp, by simp,
    List.pairwise_singleton _ _⟩

/-- A watch stays pending only when nothing concerns it. -/
theorem quiet_of_list {b : Board} {w : Waiter} {page : Page} (authorized : w.author ∉ b.revoked)
    (unchanged : b.changedIn w.project ≤ w.after) (listed : b.list w.project w.after none 50 = .ok page) :
    w.after ≤ b.sequence ∧ Quiet b w := by
  have valid : b.validateCursor w.after = .ok () := by
    unfold Board.list at listed
    rcases refused : b.validateCursor w.after with code | ⟨⟩
    · rw [refused] at listed
      cases listed
    · rfl
  obtain ⟨cursor, retained⟩ := validateCursor_eq_ok.mp valid
  exact ⟨cursor, authorized, unchanged, retained⟩

/-- A watch is made pending under the next serial number, or the board alone moves on and a response is due. -/
theorem perform_cases (sound : s.Sound) {author : Author} (authorized : author ∉ s.board.revoked)
    (connection request : ℕ) (project : ProjectId) (operation : Operation) (now : ℕ) (entropy : Option Text) :
    (∃ w : Waiter, w.watch = s.watches ∧ Quiet s.board w ∧ w.after ≤ s.board.sequence ∧ s.waiting.length < 64 ∧
      s.perform connection request project author operation now entropy =
        ({ s with waiting := s.waiting ++ [(connection, w)], watches := s.watches + 1 }, none)) ∨
    ∃ b grants response, Grown s.board b ∧ s.perform connection request project author operation now entropy =
      ({ s with board := b, grants }, some response) := by
  have same (response : Response) : ∃ b grants response', Grown s.board b ∧
      ((s, some response) : Service × Option Response) = ({ s with board := b, grants }, some response') :=
    ⟨s.board, s.grants, response, .refl sound.held, rfl⟩
  have mutated : ∃ b grants response, Grown s.board b ∧
      (((s.mutate request project author operation now).1, some (s.mutate request project author operation now).2) :
        Service × Option Response) = ({ s with board := b, grants }, some response) := by
    have grown := sound.held.apply project author operation now
    unfold mutate
    dsimp only
    split
    · exact ⟨_, s.grants, _, grown, rfl⟩
    · exact ⟨_, s.grants, _, grown, rfl⟩
  cases operation with
  | credential =>
    refine .inr ?_
    unfold perform credential
    dsimp only
    split
    · exact same _
    split
    · exact same _
    split
    · exact same _
    have grown := sound.held.apply project author .credential now
    split
    · exact ⟨_, s.grants, _, grown, rfl⟩
    · exact ⟨_, _, _, grown, rfl⟩
  | discover => exact .inr (same _)
  | list after thread limit => exact .inr (same _)
  | watch after timeoutMs =>
    unfold perform
    dsimp only
    split
    · exact .inr (same _)
    next room =>
    rcases listed : s.board.list project after none 50 with code | page
    · exact .inr (by rw [if_neg (by simp)]; exact same _)
    · dsimp only
      split
      next pending =>
        obtain ⟨cursor, quiet⟩ := quiet_of_list
          (w := { watch := s.watches, request, project, author, after, deadline := saturatingAdd64 now timeoutMs }) authorized pending.2.1 listed
        exact .inl ⟨_, rfl, quiet, cursor, by omega, rfl⟩
      · exact .inr (same _)
  | post kind body replyTo recipient task key ttl => exact .inr mutated
  | ack id => exact .inr mutated
  | claim id revision leaseMs => exact .inr mutated
  | release id revision => exact .inr mutated
  | pause paused => exact .inr mutated
  | clear confirmed => exact .inr mutated
  | revoke target => exact .inr mutated

/-- A connection that is not waiting has no pending watch. -/
theorem free_of_isWaiting {connection : ℕ} (free : s.isWaiting connection = false) {entry : ℕ × Waiter}
    (pending : entry ∈ s.waiting) : connection ≠ entry.1 := by
  intro same
  have other := List.any_eq_false.mp free entry pending
  exact other (beq_iff_eq.mpr same.symm)

/-- A watch made pending is a further one to account for. -/
theorem Sound.pend (sound : s.Sound) {connection : ℕ} (free : s.isWaiting connection = false) {w : Waiter} (number : w.watch = s.watches) (quiet : Quiet s.board w)
    (cursor : w.after ≤ s.board.sequence) (room : s.waiting.length < 64) (cause : Board → Waiter → Prop) :
    Sound { s with waiting := s.waiting ++ [(connection, w)], watches := s.watches + 1 } ∧
      Serves (fun _ => True) (fun _ => True) cause s
        { s with waiting := s.waiting ++ [(connection, w)], watches := s.watches + 1 } [] := by
  have absent : connection ∉ s.waiting.map Prod.fst := by
    intro member
    obtain ⟨entry, inside, same⟩ := List.mem_map.mp member
    exact free_of_isWaiting free inside same.symm
  have cases' {P : ℕ × Waiter → Prop} (old : ∀ entry ∈ s.waiting, P entry) (new : P (connection, w)) :
      ∀ entry ∈ s.waiting ++ [(connection, w)], P entry := by
    intro entry member
    rcases List.mem_append.mp member with before | last
    · exact old entry before
    · rw [List.mem_singleton.mp last]
      exact new
  constructor
  · refine ⟨sound.held, ?_, ?_, ?_, cases' sound.cursors cursor, sound.observed,
      fun same => cases' (sound.quiet same) quiet⟩
    · rw [List.map_append]
      exact sound.keys.append (List.nodup_singleton _) (by simpa using absent)
    · rw [List.length_append]
      exact room
    · exact cases' (fun entry member => Nat.lt_succ_of_lt (sound.numbered entry member)) (by rw [number]; exact Nat.lt_succ_self _)
  · refine ⟨.refl sound.held, Nat.le_succ _, ?_, cases' (fun entry member => .inl member) (.inr number.ge), by simp, by simp, .nil⟩
    dsimp only
    rw [Nat.add_sub_cancel_left, serials, serials, List.map_append, List.range'_one]
    simp [answered, number]

/-- A request: its ticks answer what is ready, and its operation makes at most one watch pending. -/
theorem request_spec (sound : s.Sound) (outputs : Outputs) (connection request : ℕ) (project : ProjectId)
    (author : Author) (epoch : Option ℕ) (operation : Operation) (before now after : ℕ) (entropy : Option Text) :
    let next := s.request connection request project author epoch operation outputs before now after entropy
    ∃ offers, next.2 = outputs.sendAll offers ∧ Sound next.1 ∧
      Serves (fun _ => True) (fun _ => True) (Told [before, after]) s next.1 offers := by
  obtain ⟨woken, out, ticked⟩ := tick_ticked sound outputs before
  unfold Service.request
  dsimp only
  generalize s.tick outputs before = first at out ticked ⊢
  obtain ⟨s₁, outputs₁⟩ := first
  dsimp only at out ticked ⊢
  have serves : Serves (fun _ => True) (fun _ => True) (Told [before, after]) s s₁ woken :=
    ticked.serves.because fun w told => told.grow (.refl ticked.sound.held) (by simp)
  have lasts {b : Board} (grown : Grown s₁.board b) (w : Waiter) (told : Told [before, after] s₁.board w) :
      Told [before, after] b w := told.grow grown (List.Subset.refl _)
  have sends (response : Response) : send outputs₁ connection response none =
      outputs.sendAll (woken ++ [{ connection, response, answers := none }]) := by
    rw [Outputs.sendAll_append, ← out]
    rfl
  have refused (response : Response) : ∃ offers, send outputs₁ connection response none = outputs.sendAll offers ∧
      s₁.Sound ∧ Serves (fun _ => True) (fun _ => True) (Told [before, after]) s s₁ offers :=
    ⟨_, sends response, ticked.sound, serves.trans (serves_board (.refl ticked.sound.held) s₁.grants s₁.nextExpiry
      connection response) ticked.fewer.subset ticked.freed (lasts (.refl ticked.sound.held))⟩
  split
  · exact refused _
  split
  · exact refused _
  split
  · exact refused _
  next free =>
  rw [Bool.not_eq_true] at free
  split
  · exact refused _
  next member =>
  have authorized : author ∉ s₁.board.revoked := by
    unfold Board.authorize at member
    split at member
    · cases member
    · assumption
  obtain ⟨w, number, quiet, cursor, room, performed⟩ | ⟨b, grants, response, grown, performed⟩ :=
    perform_cases ticked.sound authorized connection request project operation now entropy
  · rw [performed]
    obtain ⟨sound', serves'⟩ := ticked.sound.pend free number quiet cursor room (Told [before, after])
    have both := serves.trans serves' ticked.fewer.subset ticked.freed (lasts (.refl ticked.sound.held))
    rw [List.append_nil] at both
    exact ⟨woken, out, sound', both⟩
  · rw [performed]
    dsimp only
    have sound' := ticked.sound.carried grown grants b.deadline
    obtain ⟨last, out', late⟩ := tick_ticked sound' (send outputs₁ connection response none) after
    rw [sends response, ← Outputs.sendAll_append] at out'
    have middle := serves.trans (serves_board grown grants b.deadline connection response)
      ticked.fewer.subset ticked.freed (lasts grown)
    have serves' : Serves (fun _ => True) (fun _ => True) (Told [before, after]) _ _ last :=
      late.serves.because fun w told => told.grow (.refl late.sound.held) (by simp)
    refine ⟨_, sends response ▸ out', late.sound, middle.trans serves' ticked.fewer.subset ?_
      fun w told => told.grow late.serves.carries (List.Subset.refl _)⟩
    -- the response goes to a connection that has no watch pending
    intro x offered entry pending
    rcases List.mem_append.mp offered with early | own
    · exact ticked.freed x early entry pending
    · rw [List.mem_singleton.mp own]
      exact free_of_isWaiting free pending

end Requests

end Service

end Uniterm.Model.Inbox
