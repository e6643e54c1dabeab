import Uniterm.Machine.Run
import Uniterm.Model.Utf8

/-! # A client's output queue

Render frames, replies, a stashed last frame and an owed repaint share one byte queue with a lazily
drained offset. What the socket takes in an event is given; once that is used up it reports
`WouldBlock`.
-/

namespace Uniterm.Model.Output

/-- `MAX_SERVER_FRAME` and the length prefix. -/
def maxPendingClient : ℕ := 8 * 1024 * 1024 + 4

/-- What `encode_frame` makes of a message: a length prefix and a payload. -/
structure Frame where
  bytes : Bytes
  prefixed : 4 ≤ bytes.length
deriving DecidableEq, Repr

/-- What the next write comes to. A socket that accepts more than it is given accepts the rest later. -/
inductive Transfer where
  | accepts (n : ℕ)
  | interrupted
  | failed
deriving DecidableEq, Repr

structure Client where
  attached : Bool := true
  direct : Bool := false
  dead : Bool := false
  outbuf : Bytes := []
  outOffset : ℕ := 0
  renderEnd : Option ℕ := none
  repaintPending : Bool := false
  finalFrame : Option Frame := none
  writeInterest : Bool := false
deriving DecidableEq, Repr

namespace Client

/-- Give up on the connection. -/
def fail (client : Client) : Client :=
  { client with outbuf := [], outOffset := 0, renderEnd := none, dead := true }

def queue (client : Client) (bytes : Bytes) : Client :=
  if client.dead then client
  else
    let pending := client.outbuf.length - client.outOffset
    if pending + bytes.length > maxPendingClient then client.fail
    else
      let drained := client.outOffset
      let client := if drained ≠ 0 then
        { client with
          outbuf := client.outbuf.drop drained
          renderEnd := (client.renderEnd.bind fun e =>
            if drained ≤ e then some (e - drained) else none).filter (· ≠ 0)
          outOffset := 0 } else client
      { client with outbuf := client.outbuf ++ bytes }

/-- Queue render output, which a later full repaint supersedes. -/
def queueRender (client : Client) (bytes : Bytes) : Client :=
  if client.dead then client
  else if client.renderEnd.isSome then { client with repaintPending := true }
  else
    let client := client.queue bytes
    if client.dead then client else { client with renderEnd := some client.outbuf.length }

def unsent (client : Client) : Bytes := client.outbuf.drop client.outOffset

/-- `n` more bytes have been written. -/
def sent (client : Client) (n : ℕ) : Client :=
  { client with
    outOffset := client.outOffset + n
    -- cleared with its last byte
    renderEnd := client.renderEnd.filter (client.outOffset + n < ·) }

/-- The write loop: the client, what the socket would still take, and what the peer has received. -/
def drain (client : Client) : List Transfer → Bytes → Client × List Transfer × Bytes
  | [], received => (client, [], received)
  | .accepts n :: room, received =>
    if client.outOffset < client.outbuf.length then
      if n = 0 then (client.fail, room, received)
      else if n ≤ client.unsent.length then
        (client.sent n).drain room (received ++ client.unsent.take n)
      else
        (client.sent client.unsent.length, .accepts (n - client.unsent.length) :: room,
          received ++ client.unsent)
    else (client, .accepts n :: room, received)
  | .interrupted :: room, received =>
    if client.outOffset < client.outbuf.length then client.drain room received
    else (client, .interrupted :: room, received)
  | .failed :: room, received =>
    if client.outOffset < client.outbuf.length then (client.fail, room, received)
    else (client, .failed :: room, received)

def flushReady (client : Client) (room : List Transfer) (received : Bytes) :
    Client × List Transfer × Bytes :=
  let (client, room, received) := client.drain room received
  if client.outOffset = client.outbuf.length then
    ({ client with outbuf := [], outOffset := 0, renderEnd := none }, room, received)
  else (client, room, received)

/-- Once render output has been superseded, only a writable event drains the older frame. -/
def flush (client : Client) (room : List Transfer) (received : Bytes) :
    Client × List Transfer × Bytes :=
  if client.repaintPending then (client, room, received) else client.flushReady room received

def wantsWrite (client : Client) : Bool := !client.dead && client.outOffset < client.outbuf.length

def setInterest (client : Client) : Client := { client with writeInterest := client.wantsWrite }

/-- `stash_final_frames`: keep the current frame for a client that is owed a repaint. -/
def stash (client : Client) (frame : Frame) : Client :=
  if client.attached && !client.direct && !client.dead && client.repaintPending then
    { client with finalFrame := some frame }
  else client

end Client

/-- A client, what its peer has received, the frames the queue has accepted (marked where they are
render frames), and whether a render frame was refused and no full repaint requested since. -/
structure Session where
  client : Client := {}
  received : Bytes := []
  accepted : List (Bool × Frame) := []
  refused : Bool := false
deriving Repr

inductive Op where
  | queue (frame : Frame)
  | queueRender (frame : Frame)
  | flush (room : List Transfer)
  | stash (frame : Frame)
  | writable (room : List Transfer)
deriving Repr

namespace Session

def queue (s : Session) (frame : Frame) : Session :=
  let client := s.client.queue frame.bytes
  { s with
    client := client
    accepted := if client.dead then s.accepted else s.accepted ++ [(false, frame)] }

def queueRender (s : Session) (frame : Frame) : Session :=
  let client := s.client.queueRender frame.bytes
  { s with
    client := client
    accepted := if client.dead || s.client.renderEnd.isSome then s.accepted
      else s.accepted ++ [(true, frame)]
    refused := s.refused || (!s.client.dead && s.client.renderEnd.isSome) }

def flushReady (s : Session) (room : List Transfer) : Session × List Transfer :=
  let (client, room, received) := s.client.flushReady room s.received
  ({ s with client := client, received := received }, room)

def flush (s : Session) (room : List Transfer) : Session :=
  let (client, _, received) := s.client.flush room s.received
  { s with client := client, received := received }

def setInterest (s : Session) : Session := { s with client := s.client.setInterest }

/-- `on_client` on a writable event. -/
def onClient (s : Session) (room : List Transfer) : Session :=
  let (s, room) := s.flushReady room
  let s := s.setInterest
  if !s.client.dead && !s.client.wantsWrite then
    match s.client.finalFrame with
    | some frame =>
      let s := { s with client := { s.client with finalFrame := none } }
      let s := s.queueRender frame
      let (s, _) := s.flushReady room
      s.setInterest
    | none =>
      if s.client.repaintPending then
        -- the full repaint is requested
        { s with client := { s.client with repaintPending := false }, refused := false }
      else s
  else s

/-- Handle one event. -/
def step (s : Session) : Op → Session
  | .queue frame => (s.queue frame).setInterest
  | .queueRender frame => (s.queueRender frame).setInterest
  | .flush room => (s.flush room).setInterest
  | .stash frame => { s with client := s.client.stash frame }.setInterest
  | .writable room => s.onClient room

end Session

end Uniterm.Model.Output
