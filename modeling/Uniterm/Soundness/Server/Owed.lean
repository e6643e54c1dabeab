import Uniterm.Model.Server.Client

/-! # What a client is owed

What has been written and what is still queued are the accepted frames, whole and in order, and an owed
frame keeps the next writable event coming. The exception is a writable event whose socket takes both the
backlog and the stashed last frame: the repaint is then owed with nothing left to send.
-/

namespace Uniterm.Model.Output

open Machine

section Drain

/-- The socket takes this much without blocking. -/
def takes : List Transfer → ℕ → Prop
  | _, 0 => True
  | [], _ + 1 => False
  | .accepts n :: room, k => n ≠ 0 ∧ (k ≤ n ∨ takes room (k - n))
  | .interrupted :: room, k => takes room k
  | .failed :: _, _ => False

@[simp] theorem takes_zero (room : List Transfer) : takes room 0 := by
  cases room with
  | nil => trivial
  | cons transfer room => cases transfer <;> trivial

private theorem takes_accepts {n k : ℕ} {room : List Transfer} (some : n ≠ 0) :
    takes (.accepts n :: room) k ↔ k ≤ n ∨ takes room (k - n) := by
  cases k with
  | zero => simp [takes]
  | succ k => simp [takes, some]

private theorem takes_interrupted {k : ℕ} {room : List Transfer} :
    takes (.interrupted :: room) k ↔ takes room k := by
  cases k with
  | zero => simp [takes]
  | succ k => rfl

variable {client : Client} {room : List Transfer} {received : Bytes}

private theorem length_unsent (client : Client) :
    client.unsent.length = client.outbuf.length - client.outOffset := List.length_drop ..

private theorem unsent_sent (client : Client) (n : ℕ) : (client.sent n).unsent = client.unsent.drop n := by
  simp only [Client.unsent, Client.sent, List.drop_drop]

private theorem filter_filter_lt (renderEnd : Option ℕ) {low high : ℕ} (order : low ≤ high) :
    (renderEnd.filter (low < ·)).filter (high < ·) = renderEnd.filter (high < ·) := by
  cases renderEnd with
  | none => rfl
  | some e =>
    by_cases ahead : high < e
    · simp [Option.filter_some, ahead, Nat.lt_of_le_of_lt order ahead]
    · by_cases reached : low < e <;> simp [Option.filter_some, ahead, reached]

private theorem sent_sent (client : Client) (n m : ℕ) : (client.sent n).sent m = client.sent (n + m) := by
  have ends := filter_filter_lt client.renderEnd (Nat.le_add_right (client.outOffset + n) m)
  unfold Client.sent
  dsimp only
  rw [ends, Nat.add_assoc]

/-- The end of the queued render frame is ahead of what has been sent. -/
def Ahead (client : Client) : Prop := ∀ e, client.renderEnd = some e → client.outOffset < e

private theorem sent_zero (ahead : Ahead client) : client.sent 0 = client := by
  have ends : client.renderEnd.filter (client.outOffset + 0 < ·) = client.renderEnd := by
    cases read : client.renderEnd with
    | none => rfl
    | some e => simp [Option.filter_some, ahead e read]
  unfold Client.sent
  rw [ends]
  rfl

/-- A drain that leaves the client alive has sent some of the backlog. -/
structure Drained (client : Client) (room : List Transfer) (received : Bytes) (n : ℕ)
    (result : Client × List Transfer × Bytes) : Prop where
  within : n ≤ client.unsent.length
  sent : result.1 = client.sent n
  written : result.2.2 = received ++ client.unsent.take n
  taken : n = client.unsent.length → ∀ k, takes result.2.1 k → takes room (client.unsent.length + k)

private theorem drained_done (ahead : Ahead client) (done : ¬ client.outOffset < client.outbuf.length) :
    Drained client room received 0 (client, room, received) where
  within := Nat.zero_le _
  sent := (sent_zero ahead).symm
  written := by simp
  taken _ k taken := by
    rw [length_unsent, Nat.sub_eq_zero_of_le (Nat.not_lt.mp done), Nat.zero_add]
    exact taken

private theorem ahead_sent (client : Client) (n : ℕ) : Ahead (client.sent n) := by
  intro e read
  have kept := Option.filter_eq_some_iff.mp read
  simp only [Client.sent]
  simpa using kept.2

theorem Drained.after {m n : ℕ} {result : Client × List Transfer × Bytes} (some : m ≠ 0)
    (partway : m ≤ client.unsent.length)
    (drained : Drained (client.sent m) room (received ++ client.unsent.take m) n result) :
    Drained client (.accepts m :: room) received (m + n) result where
  within := by
    have within := drained.within
    rw [unsent_sent, List.length_drop] at within
    omega
  sent := by rw [drained.sent, sent_sent]
  written := by
    rw [drained.written, unsent_sent, List.append_assoc, ← List.take_add]
  taken all k taken := by
    have rest := drained.taken (by rw [unsent_sent, List.length_drop]; omega) k taken
    rw [unsent_sent, List.length_drop] at rest
    rw [takes_accepts some, show client.unsent.length + k - m = client.unsent.length - m + k by omega]
    exact .inr rest

private theorem drain_drained (ahead : Ahead client) (alive : (client.drain room received).1.dead = false) :
    ∃ n, Drained client room received n (client.drain room received) := by
  induction room generalizing client received with
  | nil =>
    refine ⟨0, Nat.zero_le _, (sent_zero ahead).symm, by simp [Client.drain], fun none k taken => ?_⟩
    rw [← none, Nat.zero_add]
    exact taken
  | cons transfer room ih =>
    by_cases more : client.outOffset < client.outbuf.length
    · cases transfer with
      | accepts m =>
        rw [Client.drain, if_pos more] at alive ⊢
        by_cases none : m = 0
        · rw [if_pos none] at alive
          cases alive
        rw [if_neg none] at alive ⊢
        by_cases partway : m ≤ client.unsent.length
        · rw [if_pos partway] at alive ⊢
          obtain ⟨n, drained⟩ := ih (ahead_sent client m) alive
          exact ⟨m + n, drained.after none partway⟩
        · rw [if_neg partway]
          refine ⟨client.unsent.length, Nat.le_refl _, rfl, by rw [List.take_length], fun _ k taken => ?_⟩
          rw [takes_accepts (by omega)] at taken
          rw [takes_accepts none]
          rw [show client.unsent.length + k - m = k - (m - client.unsent.length) by omega]
          exact taken.imp_left fun fits => by omega
      | interrupted =>
        rw [Client.drain, if_pos more] at alive ⊢
        obtain ⟨n, drained⟩ := ih ahead alive
        exact ⟨n, drained.within, drained.sent, drained.written,
          fun all k taken => takes_interrupted.mpr (drained.taken all k taken)⟩
      | failed =>
        rw [Client.drain, if_pos more] at alive
        cases alive
    · refine ⟨0, ?_⟩
      have done : client.drain (transfer :: room) received = (client, transfer :: room, received) := by
        cases transfer <;> exact if_neg more
      rw [done]
      exact drained_done ahead more

end Drain

section Owes

/-- The bytes of the accepted frames. -/
def framed (accepted : List (Bool × Frame)) : Bytes := accepted.flatMap (·.2.bytes)

/-- The last accepted render frame ends at this position of the stream. -/
def EndsRender (accepted : List (Bool × Frame)) (position : ℕ) : Prop :=
  ∃ before frame after, accepted = before ++ (true, frame) :: after ∧ (∀ later ∈ after, later.1 = false) ∧
    position = (framed (before ++ [(true, frame)])).length

/-- The queue holds what is left of the accepted frames, and knows where a render frame ends. -/
structure Owes (s : Session) : Prop where
  whole : s.received ++ s.client.unsent = framed s.accepted
  offset : s.client.outOffset ≤ s.client.outbuf.length
  render : ∀ e, s.client.renderEnd = some e → s.client.outOffset < e ∧ e ≤ s.client.outbuf.length ∧
    EndsRender s.accepted (s.received.length + (e - s.client.outOffset))
  bounded : s.client.unsent.length ≤ maxPendingClient

variable {s : Session} {room : List Transfer}

private theorem framed_append (before after : List (Bool × Frame)) :
    framed (before ++ after) = framed before ++ framed after := List.flatMap_append

private theorem framed_one (entry : Bool × Frame) : framed [entry] = entry.2.bytes := by
  simp [framed]

theorem EndsRender.reply {accepted : List (Bool × Frame)} {position : ℕ}
    (ends : EndsRender accepted position) (frame : Frame) :
    EndsRender (accepted ++ [(false, frame)]) position := by
  obtain ⟨before, render, after, rfl, replies, same⟩ := ends
  refine ⟨before, render, after ++ [(false, frame)], by simp, ?_, same⟩
  intro later member
  rcases List.mem_append.mp member with member | member
  · exact replies later member
  · rw [List.mem_singleton.mp member]

theorem Owes.ahead (owes : Owes s) : Ahead s.client := fun e read => (owes.render e read).1

theorem Owes.sent (owes : Owes s) {n : ℕ} (within : n ≤ s.client.unsent.length) :
    Owes { s with client := s.client.sent n, received := s.received ++ s.client.unsent.take n } where
  whole := by
    dsimp only
    rw [unsent_sent, List.append_assoc, List.take_append_drop]
    exact owes.whole
  offset := by
    rw [length_unsent] at within
    have offset := owes.offset
    simp only [Client.sent]
    omega
  render e read := by
    obtain ⟨known, later⟩ := Option.filter_eq_some_iff.mp read
    obtain ⟨_, inside, ends⟩ := owes.render e known
    have later : s.client.outOffset + n < e := by simpa using later
    refine ⟨later, inside, ?_⟩
    simp only [Client.sent, List.length_append, List.length_take, Nat.min_eq_left within]
    rw [show s.received.length + n + (e - (s.client.outOffset + n)) =
      s.received.length + (e - s.client.outOffset) by omega]
    exact ends
  bounded := by
    dsimp only
    rw [unsent_sent, List.length_drop]
    exact Nat.le_trans (Nat.sub_le ..) owes.bounded

/-- What a flush that leaves the client alive does not change, and what draining everything takes. -/
structure Flushed (s : Session) (room : List Transfer) (result : Session × List Transfer) : Prop where
  alive : s.client.dead = false
  owes : Owes result.1
  repaintPending : result.1.client.repaintPending = s.client.repaintPending
  finalFrame : result.1.client.finalFrame = s.client.finalFrame
  refused : result.1.refused = s.refused
  accepted : result.1.accepted = s.accepted
  drained : result.1.client.unsent = [] → result.1.client.renderEnd = none ∧
    ∀ k, takes result.2 k → takes room (s.client.unsent.length + k)

private theorem drain_alive {client : Client} {received : Bytes}
    (alive : (client.drain room received).1.dead = false) : client.dead = false := by
  induction room generalizing client received with
  | nil => exact alive
  | cons transfer room ih =>
    cases transfer with
    | accepts n =>
      unfold Client.drain at alive
      split at alive
      · split at alive
        · cases alive
        · split at alive
          · have rest := ih alive
            exact rest
          · exact alive
      · exact alive
    | interrupted =>
      unfold Client.drain at alive
      split at alive
      · exact ih alive
      · exact alive
    | failed =>
      unfold Client.drain at alive
      split at alive
      · cases alive
      · exact alive

private theorem flushReady_alive (alive : (s.flushReady room).1.client.dead = false) :
    s.client.dead = false := by
  unfold Session.flushReady Client.flushReady at alive
  dsimp only at alive
  split at alive
  · exact drain_alive alive
  · exact drain_alive alive

theorem Owes.flushReady (owes : Owes s) (alive : (s.flushReady room).1.client.dead = false) :
    Flushed s room (s.flushReady room) := by
  have aliveBefore := flushReady_alive alive
  unfold Session.flushReady Client.flushReady at alive ⊢
  have aliveDrain : (s.client.drain room s.received).1.dead = false := by
    dsimp only at alive
    split at alive
    · exact alive
    · exact alive
  obtain ⟨n, drained⟩ := drain_drained owes.ahead aliveDrain
  have sent := owes.sent drained.within
  generalize s.client.drain room s.received = result at drained alive ⊢
  obtain ⟨client, left, received⟩ := result
  obtain ⟨within, rfl, rfl, taken⟩ := drained
  dsimp only at alive ⊢
  have emptied : (s.client.sent n).outOffset = (s.client.sent n).outbuf.length ↔
      (s.client.sent n).unsent = [] := by
    rw [← List.length_eq_zero_iff, length_unsent]
    have offset := sent.offset
    dsimp only at offset
    omega
  have all : (s.client.sent n).unsent = [] → n = s.client.unsent.length := by
    intro none
    rw [unsent_sent, List.drop_eq_nil_iff] at none
    exact Nat.le_antisymm within none
  split
  · next done =>
    have none := emptied.mp done
    refine ⟨aliveBefore, ⟨?_, Nat.le_refl _, nofun, Nat.zero_le _⟩, rfl, rfl, rfl, rfl, fun _ => ⟨rfl, ?_⟩⟩
    · have whole := sent.whole
      dsimp only at whole
      rw [none] at whole
      exact whole
    · exact taken (all none)
  · next more =>
    exact ⟨aliveBefore, sent, rfl, rfl, rfl, rfl, fun none => absurd (emptied.mpr none) more⟩

private theorem queue_alive {client : Client} {bytes : Bytes} (ahead : Ahead client)
    (alive : (client.queue bytes).dead = false) :
    client.dead = false ∧ client.unsent.length + bytes.length ≤ maxPendingClient ∧
      client.queue bytes =
        { client with
          outbuf := client.unsent ++ bytes
          outOffset := 0
          renderEnd := client.renderEnd.map (· - client.outOffset) } := by
  unfold Client.queue at alive ⊢
  by_cases dead : client.dead = true
  · rw [if_pos dead] at alive
    exact absurd dead (by rw [alive]; decide)
  rw [if_neg dead] at alive ⊢
  dsimp only at alive ⊢
  rw [← length_unsent] at alive ⊢
  by_cases full : client.unsent.length + bytes.length > maxPendingClient
  · rw [if_pos full] at alive
    cases alive
  rw [if_neg full] at alive ⊢
  refine ⟨Bool.eq_false_iff.mpr dead, Nat.not_lt.mp full, ?_⟩
  by_cases fresh : client.outOffset = 0
  · rw [if_neg (not_not.mpr fresh)]
    have outbuf : client.unsent = client.outbuf := by rw [Client.unsent, fresh, List.drop_zero]
    have ends : client.renderEnd.map (· - client.outOffset) = client.renderEnd := by
      rw [fresh]
      simp
    rw [outbuf, ends, ← fresh]
  · rw [if_pos fresh]
    have ends : (client.renderEnd.bind fun e =>
        if client.outOffset ≤ e then some (e - client.outOffset) else none).filter (· ≠ 0) =
        client.renderEnd.map (· - client.outOffset) := by
      cases read : client.renderEnd with
      | none => rfl
      | some e =>
        have later := ahead e read
        have rest : e - client.outOffset ≠ 0 := by omega
        simp [Nat.le_of_lt later, Option.filter_some, rest]
    rw [ends]
    rfl

/-- Accepting a reply. -/
theorem Owes.queue (owes : Owes s) {frame : Frame} (alive : (s.queue frame).client.dead = false) :
    s.client.dead = false ∧ Owes (s.queue frame) ∧
      (s.queue frame).client.unsent = s.client.unsent ++ frame.bytes ∧
      (s.queue frame).accepted = s.accepted ++ [(false, frame)] ∧
      (s.queue frame).client.repaintPending = s.client.repaintPending ∧
      (s.queue frame).client.finalFrame = s.client.finalFrame := by
  obtain ⟨aliveBefore, fits, queued⟩ := queue_alive owes.ahead alive
  have accepted : (s.queue frame).accepted = s.accepted ++ [(false, frame)] := by
    unfold Session.queue at alive ⊢
    exact if_neg (Bool.eq_false_iff.mp alive)
  have client : (s.queue frame).client = _ := queued
  have same : (s.queue frame).received = s.received := rfl
  have unsent : (s.queue frame).client.unsent = s.client.unsent ++ frame.bytes := by
    rw [client]
    rfl
  refine ⟨aliveBefore, ⟨?_, ?_, ?_, ?_⟩, unsent, accepted, ?_, ?_⟩
  · rw [unsent, accepted, same, framed_append, framed_one, ← owes.whole, List.append_assoc]
  · rw [client]
    exact Nat.zero_le _
  · intro e read
    rw [client] at read
    obtain ⟨old, known, rfl⟩ := Option.map_eq_some_iff.mp read
    obtain ⟨later, inside, ends⟩ := owes.render old known
    rw [client, accepted, same]
    dsimp only
    rw [List.length_append, length_unsent]
    refine ⟨by omega, by omega, ?_⟩
    rw [Nat.sub_zero]
    exact ends.reply frame
  · rw [unsent, List.length_append]
    exact fits
  · rw [client]
  · rw [client]

/-- Accepting a render frame. -/
theorem Owes.queueRender (owes : Owes s) {frame : Frame} (free : s.client.renderEnd = none)
    (alive : (s.queueRender frame).client.dead = false) :
    s.client.dead = false ∧ Owes (s.queueRender frame) ∧
      (s.queueRender frame).client.unsent = s.client.unsent ++ frame.bytes ∧
      s.client.unsent.length + frame.bytes.length ≤ maxPendingClient ∧
      (s.queueRender frame).refused = s.refused ∧
      (s.queueRender frame).client.repaintPending = s.client.repaintPending ∧
      (s.queueRender frame).client.finalFrame = s.client.finalFrame := by
  unfold Session.queueRender Client.queueRender at *
  by_cases dead : s.client.dead = true
  · rw [if_pos dead, dead] at alive
    cases alive
  rw [if_neg dead, free] at alive ⊢
  have aliveQueue : (s.client.queue frame.bytes).dead = false := by
    simp only [Option.isSome_none, Bool.false_eq_true, if_false] at alive
    split at alive
    · exact alive
    · exact alive
  obtain ⟨aliveBefore, fits, queued⟩ := queue_alive owes.ahead aliveQueue
  simp only [Option.isSome_none, Bool.false_eq_true, if_false, aliveQueue, Bool.or_false, Bool.and_false]
  rw [queued]
  have whole := owes.whole
  have some : 4 ≤ frame.bytes.length := frame.prefixed
  refine ⟨aliveBefore, ⟨?_, Nat.zero_le _, ?_, ?_⟩, rfl, fits, trivial, rfl, rfl⟩
  · show s.received ++ (s.client.unsent ++ frame.bytes) = _
    rw [framed_append, framed_one, ← whole, List.append_assoc]
  · intro e read
    obtain rfl : (s.client.unsent ++ frame.bytes).length = e := Option.some.inj read
    dsimp only
    refine ⟨?_, Nat.le_refl _, s.accepted, frame, [], rfl, nofun, ?_⟩
    · rw [List.length_append]
      omega
    · rw [framed_append, framed_one, ← whole]
      simp only [List.length_append]
      omega
  · show (s.client.unsent ++ frame.bytes).length ≤ maxPendingClient
    rw [List.length_append]
    exact fits

end Owes

section Events

/-- What holds of a live client once an event has been handled. -/
structure Holds (s : Session) : Prop extends Owes s where
  pending : s.client.repaintPending = true ∨ s.client.finalFrame.isSome = true →
    s.client.unsent ≠ [] ∧ s.client.writeInterest = true
  stashed : s.client.finalFrame.isSome = true → s.client.repaintPending = true
  refused : s.refused = true → s.client.repaintPending = true

/-- The socket does not take the whole backlog and a stashed last frame in one writable event. -/
def Spared (s : Session) : Op → Prop
  | .writable room => ∀ frame, s.client.finalFrame = some frame → s.client.dead = false →
      frame.bytes.length ≤ maxPendingClient →
        ¬ takes room (s.client.unsent.length + frame.bytes.length)
  | _ => True

variable {s : Session} {room : List Transfer} {frame : Frame}

/-- Registering interest completes an event after which something is left to send to whoever is owed. -/
theorem Owes.registered (owes : Owes s) (alive : s.client.dead = false)
    (left : s.client.repaintPending = true → s.client.unsent ≠ [])
    (stashed : s.client.finalFrame.isSome = true → s.client.repaintPending = true)
    (refused : s.refused = true → s.client.repaintPending = true) : Holds s.setInterest where
  whole := owes.whole
  offset := owes.offset
  render := owes.render
  bounded := owes.bounded
  pending owed := by
    have some := left (owed.elim id stashed)
    refine ⟨some, ?_⟩
    have more := List.length_pos_iff.mpr some
    rw [length_unsent] at more
    simp only [Session.setInterest, Client.setInterest, Client.wantsWrite, alive, Bool.not_false,
      Bool.true_and, decide_eq_true_eq]
    omega
  stashed := stashed
  refused := refused

theorem Holds.queue (holds : Holds s) (alive : (s.queue frame).client.dead = false) :
    Holds (s.queue frame).setInterest := by
  obtain ⟨_, owes, unsent, _, repaint, final⟩ := holds.toOwes.queue alive
  refine owes.registered alive ?_ ?_ ?_
  · intro pending
    rw [unsent]
    exact List.append_ne_nil_of_left_ne_nil (holds.pending (.inl (repaint ▸ pending))).1 _
  · rw [final, repaint]
    exact holds.stashed
  · rw [repaint]
    exact holds.refused

theorem Holds.queueRender (holds : Holds s) (alive : (s.queueRender frame).client.dead = false) :
    Holds (s.queueRender frame).setInterest := by
  cases free : s.client.renderEnd with
  | none =>
    obtain ⟨_, owes, unsent, _, refused, repaint, final⟩ := holds.toOwes.queueRender free alive
    refine owes.registered alive ?_ ?_ ?_
    · intro pending
      rw [unsent]
      exact List.append_ne_nil_of_left_ne_nil (holds.pending (.inl (repaint ▸ pending))).1 _
    · rw [final, repaint]
      exact holds.stashed
    · rw [refused, repaint]
      exact holds.refused
  | some e =>
    have aliveBefore : s.client.dead = false := by
      unfold Session.queueRender Client.queueRender at alive
      cases dead : s.client.dead with
      | true => simp [dead] at alive
      | false => rfl
    have client : (s.queueRender frame).client = { s.client with repaintPending := true } := by
      simp [Session.queueRender, Client.queueRender, aliveBefore, free]
    have accepted : (s.queueRender frame).accepted = s.accepted := by
      simp [Session.queueRender, free]
    have owes : Owes (s.queueRender frame) := by
      refine ⟨?_, ?_, ?_, ?_⟩
      all_goals rw [client]
      · rw [accepted]
        exact holds.whole
      · exact holds.offset
      · rw [accepted]
        exact holds.render
      · exact holds.bounded
    refine owes.registered alive ?_ ?_ ?_
    · -- the frame in the way is not yet out
      intro _ none
      rw [client] at none
      obtain ⟨later, inside, _⟩ := holds.render e free
      have nothing := List.length_eq_zero_iff.mpr none
      rw [length_unsent] at nothing
      dsimp only at nothing
      omega
    · intro _
      rw [client]
    · intro _
      rw [client]

theorem Holds.flush (holds : Holds s) (alive : (s.flush room).client.dead = false) :
    Holds (s.flush room).setInterest := by
  cases paused : s.client.repaintPending with
  | true =>
    have same : s.flush room = s := by
      unfold Session.flush Client.flush
      rw [if_pos paused]
    rw [same] at alive ⊢
    exact holds.toOwes.registered alive (fun _ => (holds.pending (.inl paused)).1) holds.stashed
      holds.refused
  | false =>
    have same : s.flush room = (s.flushReady room).1 := by
      unfold Session.flush Client.flush Session.flushReady
      rw [if_neg (by rw [paused]; decide)]
    rw [same] at alive ⊢
    have flushed := holds.toOwes.flushReady alive
    refine flushed.owes.registered alive ?_ ?_ ?_
    · rw [flushed.repaintPending, paused]
      nofun
    · rw [flushed.finalFrame, flushed.repaintPending]
      exact holds.stashed
    · rw [flushed.refused, flushed.repaintPending]
      exact holds.refused

theorem Holds.stash (holds : Holds s) (alive : s.client.dead = false) (frame : Frame) :
    Holds { s with client := s.client.stash frame }.setInterest := by
  unfold Client.stash
  split
  · next owed =>
    have repaint : s.client.repaintPending = true := by
      simp only [Bool.and_eq_true] at owed
      exact owed.2
    exact Owes.registered ⟨holds.whole, holds.offset, holds.render, holds.bounded⟩ alive
      (fun _ => (holds.pending (.inl repaint)).1) (fun _ => repaint) (fun _ => repaint)
  · exact holds.toOwes.registered alive (fun pending => (holds.pending (.inl pending)).1) holds.stashed
      holds.refused

private theorem wantsWrite_iff (owes : Owes s) (alive : s.client.dead = false) :
    s.client.wantsWrite = true ↔ s.client.unsent ≠ [] := by
  have offset := owes.offset
  rw [ne_eq, ← List.length_eq_zero_iff, length_unsent]
  simp only [Client.wantsWrite, alive, Bool.not_false, Bool.true_and, decide_eq_true_eq]
  omega

private theorem onClient_flushed (alive : (s.onClient room).client.dead = false) :
    (s.flushReady room).1.client.dead = false := by
  cases dead : (s.flushReady room).1.client.dead with
  | false => rfl
  | true =>
    unfold Session.onClient at alive
    dsimp only at alive
    rw [show (s.flushReady room).1.setInterest.client.dead = true from dead, Bool.not_true,
      Bool.false_and, if_neg Bool.false_ne_true] at alive
    exact absurd dead (by rw [show (s.flushReady room).1.client.dead = false from alive]; decide)

/-- A writable event ends with nothing owed, or with something left to send. -/
theorem Holds.onClient (holds : Holds s) (spared : Spared s (.writable room))
    (alive : (s.onClient room).client.dead = false) : Holds (s.onClient room) := by
  have aliveFlush := onClient_flushed alive
  unfold Session.onClient at alive ⊢
  have flushed := holds.toOwes.flushReady aliveFlush
  generalize s.flushReady room = result at alive aliveFlush flushed ⊢
  obtain ⟨t, left⟩ := result
  dsimp only at alive aliveFlush flushed ⊢
  have idle : (!t.setInterest.client.dead && !t.setInterest.client.wantsWrite) = !t.client.wantsWrite := by
    rw [show t.setInterest.client.wantsWrite = t.client.wantsWrite from rfl,
      show t.setInterest.client.dead = t.client.dead from rfl, aliveFlush]
    rfl
  rw [idle] at alive ⊢
  have wants := wantsWrite_iff flushed.owes aliveFlush
  have stashed : t.client.finalFrame.isSome = true → t.client.repaintPending = true := by
    rw [flushed.finalFrame, flushed.repaintPending]
    exact holds.stashed
  have refused : t.refused = true → t.client.repaintPending = true := by
    rw [flushed.refused, flushed.repaintPending]
    exact holds.refused
  cases more : t.client.wantsWrite with
  | true =>
    rw [if_neg (by decide)]
    exact flushed.owes.registered aliveFlush (fun _ => wants.mp more) stashed refused
  | false =>
    have empty : t.client.unsent = [] := by
      by_contra some
      rw [wants.mpr some] at more
      cases more
    obtain ⟨free, taken⟩ := flushed.drained empty
    rw [more] at alive
    rw [if_pos (by decide)] at alive ⊢
    have setFinal : t.setInterest.client.finalFrame = t.client.finalFrame := rfl
    rw [setFinal] at alive ⊢
    cases final : t.client.finalFrame with
    | some frame =>
      rw [final] at alive
      dsimp only at alive ⊢
      let shown : Session :=
        { t.setInterest with client := { t.setInterest.client with finalFrame := none } }
      have owes : Owes shown := ⟨flushed.owes.whole, flushed.owes.offset, flushed.owes.render,
        flushed.owes.bounded⟩
      have aliveLast : ((shown.queueRender frame).flushReady left).1.client.dead = false := alive
      have aliveQueue := flushReady_alive aliveLast
      obtain ⟨_, queued, unsent, fits, sameRefused, repaint, finalQueued⟩ :=
        owes.queueRender free aliveQueue
      have last := queued.flushReady aliveLast
      have emptyShown : shown.client.unsent = [] := empty
      rw [emptyShown] at unsent fits
      have unstashed : ((shown.queueRender frame).flushReady left).1.client.finalFrame = none := by
        rw [last.finalFrame, finalQueued]
      refine last.owes.registered aliveLast (fun _ drained => ?_) ?_ ?_
      · -- both would have gone out at once
        have room := (last.drained drained).2 0 (takes_zero _)
        rw [unsent, List.nil_append, Nat.add_zero] at room
        have known : s.client.finalFrame = some frame := flushed.finalFrame ▸ final
        exact spared frame known flushed.alive (by simpa using fits) (taken _ room)
      · rw [unstashed]
        nofun
      · rw [last.refused, last.repaintPending, sameRefused, repaint]
        exact refused
    | none =>
      have setPending : t.setInterest.client.repaintPending = t.client.repaintPending := rfl
      dsimp only
      rw [setPending]
      have owes : Owes t.setInterest := ⟨flushed.owes.whole, flushed.owes.offset, flushed.owes.render,
        flushed.owes.bounded⟩
      cases pending : t.client.repaintPending with
      | true =>
        rw [if_pos rfl]
        exact ⟨⟨owes.whole, owes.offset, owes.render, owes.bounded⟩, nofun, nofun, nofun⟩
      | false =>
        rw [if_neg (by decide)]
        exact flushed.owes.registered aliveFlush (fun impossible => by rw [pending] at impossible; cases impossible)
          stashed refused

private theorem step_alive {op : Op} (alive : (s.step op).client.dead = false) : s.client.dead = false := by
  by_contra dead
  rw [Bool.not_eq_false] at dead
  have before : s.client.dead ≠ false := by rw [dead]; decide
  cases op with
  | queue frame =>
    have same : s.client.queue frame.bytes = s.client := if_pos dead
    exact before (same ▸ alive)
  | queueRender frame =>
    have same : s.client.queueRender frame.bytes = s.client := if_pos dead
    exact before (same ▸ alive)
  | flush room =>
    have alive : (s.client.flush room s.received).1.dead = false := alive
    unfold Client.flush at alive
    split at alive
    · exact before alive
    · exact before (flushReady_alive (s := s) alive)
  | stash frame =>
    have alive : (s.client.stash frame).dead = false := alive
    unfold Client.stash at alive
    split at alive
    · exact before alive
    · exact before alive
  | writable room => exact before (flushReady_alive (onClient_flushed alive))

theorem Holds.step {op : Op} (holds : Holds s) (spared : Spared s op)
    (alive : (s.step op).client.dead = false) : Holds (s.step op) := by
  have aliveBefore := step_alive alive
  cases op with
  | queue frame => exact holds.queue alive
  | queueRender frame => exact holds.queueRender alive
  | flush room => exact holds.flush alive
  | stash frame => exact holds.stash aliveBefore frame
  | writable room => exact holds.onClient spared alive

/-- Unless the connection has been given up. -/
def InOrder (s : Session) : Prop := s.client.dead = false → Holds s

private theorem holds_fresh (attached direct : Bool) :
    Holds { client := { attached := attached, direct := direct } } where
  whole := rfl
  offset := Nat.le_refl _
  render := nofun
  bounded := Nat.zero_le _
  pending := nofun
  stashed := nofun
  refused := nofun

/-- In every run in which no writable event takes a backlog together with a stashed last frame, a live
client is owed nothing that no later event will send. -/
theorem owed_output (attached direct : Bool) (ops : List Op)
    (spared : Guards Spared (fun s op => some (s.step op))
      { client := { attached := attached, direct := direct } } ops) (t : Session)
    (ran : exec (fun s op => some (s.step op)) { client := { attached := attached, direct := direct } } ops =
      some t) (alive : t.client.dead = false) : Holds t := by
  have keeps : ∀ (s : Session) (op : Op) (t : Session), InOrder s → Spared s op →
      some (s.step op) = some t → InOrder t := by
    rintro s op t holds guard ⟨⟩ alive
    exact (holds (step_alive alive)).step guard alive
  exact exec_preserves keeps (fun _ => holds_fresh attached direct) spared ran alive

/-- A client that is owed a repaint, with its last frame stashed. -/
def blocked : List Op :=
  [.queueRender ⟨[0, 0, 0, 0], by decide⟩, .queueRender ⟨[0, 0, 0, 0], by decide⟩,
    .stash ⟨[0, 0, 0, 0], by decide⟩]

/-- A socket that takes the backlog and the last frame at once leaves the repaint owed for good. -/
theorem not_owed_output :
    ∃ t : Session, exec (fun s op => some (s.step op)) {} (blocked ++ [.writable [.accepts 8]]) = some t ∧
      t.client.dead = false ∧ t.client.repaintPending = true ∧ t.client.unsent = [] ∧
        t.client.writeInterest = false := ⟨_, rfl, by decide⟩

/-- One that takes less leaves something to send. -/
theorem owed_output_partial :
    ∃ t : Session, exec (fun s op => some (s.step op)) {} (blocked ++ [.writable [.accepts 7]]) = some t ∧
      t.client.dead = false ∧ Holds t := by
  refine ⟨_, rfl, by decide, owed_output true false (blocked ++ [.writable [.accepts 7]]) ?_ _ rfl (by decide)⟩
  refine ⟨trivial, ?_⟩
  rintro s ⟨⟩
  refine ⟨trivial, ?_⟩
  rintro s ⟨⟩
  refine ⟨trivial, ?_⟩
  rintro s ⟨⟩
  refine ⟨?_, fun _ _ => trivial⟩
  rintro frame known _ _ taken
  have length : frame.bytes.length = 4 := by
    cases known
    rfl
  rw [length] at taken
  rcases taken.2 with few | rest
  · exact absurd few (by decide)
  · exact rest

end Events

end Uniterm.Model.Output
