import FastapiTurbo.Lib.Transition
import FastapiTurbo.WebSocketInbound

/-! The outbound half of a WebSocket connection (`websocket.rs`).  A data frame is
written by its sender under the lock of the sink, or it goes through the channel of the
select task, on which every Close frame goes; the count of the frames on the way through
the channel decides between the two.  The steps are the atomic operations and the lock
sections. -/
namespace FastapiTurbo.WebSocketOutbound

open Lib WebSocketInbound

inductive Cmd where
  | send (frame : WsMessage)
  | flush
  deriving DecidableEq

def Cmd.frame : Cmd → Option WsMessage
  | .send frame => some frame
  | .flush => none

def frames (cmds : List Cmd) : List WsMessage :=
  cmds.filterMap Cmd.frame

/-- The write half in its slot.  Once it has failed or has taken a Close frame, it takes
no more frames. -/
inductive Sink where
  | absent
  | writable
  | refusing
  | taken
  deriving DecidableEq

inductive Attempt where
  /-- `poll_ready` is not `Ready(Ok)`. -/
  | notReady
  | accepted
  | acceptedThenFailed
  | failed
  deriving DecidableEq

inductive Holder where
  | nobody
  | task
  /-- A spawned flush, of a direct send or of the debounce timer. -/
  | flusher
  deriving DecidableEq

inductive Handler where
  | idle
  /-- The load of `queued` in `queue_send`. -/
  | loading (frame : WsMessage)
  /-- `try_direct_send`. -/
  | trying (frame : WsMessage)
  /-- `queued.fetch_add` of `queue_send`. -/
  | counting (frame : WsMessage)
  | pushing (frame : WsMessage)
  | awaiting
  /-- `queued.fetch_add` of `queue_seq`. -/
  | countingSeq (cmds : List Cmd)
  | queueing (cmds : List Cmd)
  deriving DecidableEq

inductive Task where
  | absent
  | selecting
  /-- `sink.lock().await` for a frame of the channel. -/
  | locking (frame : WsMessage)
  /-- `s.send(msg).await`, with the lock. -/
  | writing (frame : WsMessage)
  /-- `queued.fetch_sub`. -/
  | written (frame : WsMessage) (sentOk : Bool)
  /-- `s.close()` after a Close frame was written. -/
  | closing
  | echoing
  /-- `rx_out.close()`. -/
  | leaving
  /-- `drain_next`. -/
  | draining
  /-- `sink.lock().await.take()`. -/
  | taking
  | gone
  deriving DecidableEq

/-- A task that was spawned on `Full`; the handler may be suspended until it is done. -/
structure Waiter where
  cmds : List Cmd
  awaited : Bool
  deriving DecidableEq

structure Socket where
  /-- `None` for the unbounded channel of thread mode. -/
  capacity : Option Nat
  /-- `ws_direct_enabled`. -/
  direct : Bool
  sink : Sink
  holder : Holder
  queued : Nat
  channel : List Cmd
  closed : Bool
  waiters : List Waiter
  handler : Handler
  task : Task
  /-- The frames that the sink has taken, without the echo of the peer's Close. -/
  accepted : List WsMessage
  /-- The frames of the handler in program order. -/
  issued : List WsMessage
  deriving DecidableEq

def wsOutCap : Nat :=
  256

def Socket.initial (loopMode direct : Bool) : Socket where
  capacity := if loopMode then some wsOutCap else none
  direct := direct
  sink := .absent
  holder := .nobody
  queued := 0
  channel := []
  closed := false
  waiters := []
  handler := .idle
  task := .absent
  accepted := []
  issued := []

inductive Action where
  | send (frame : WsMessage)
  | close (code : Nat) (reason : String)
  | closeAndWait (code : Nat) (reason : String)
  | handler (attempt : Attempt)
  /-- The waiter at this place sends its next command. -/
  | deliver (index : Nat)
  | upgrade
  | recv
  | peerClose
  /-- The loop is left because of the read side or of the end of the channel. -/
  | stop
  | task (attempt : Attempt)
  | flushLock
  | flushUnlock
  | fail

namespace Socket

variable (socket : Socket)

def full : Bool :=
  match socket.capacity with
  | some capacity => capacity ≤ socket.channel.length
  | none => false

/-- `start_send` and `flush`, and whether both succeeded. -/
def write (frame : WsMessage) (attempt : Attempt) : Socket × Bool :=
  match socket.sink, attempt with
  | .writable, .accepted =>
    ({ socket with
        sink := if frame.isClose then .refusing else .writable
        accepted := socket.accepted ++ [frame] }, true)
  | .writable, .acceptedThenFailed =>
    ({ socket with sink := .refusing, accepted := socket.accepted ++ [frame] }, false)
  | .writable, _ => ({ socket with sink := .refusing }, false)
  | _, _ => (socket, false)

def published : Bool :=
  socket.sink = .writable || socket.sink = .refusing

/-- `try_direct_send`, up to the channel that it falls back to.  Its lock section is one
step. -/
def tryDirectSend (frame : WsMessage) (attempt : Attempt) : Socket :=
  if socket.holder = .nobody && socket.queued == 0 && socket.published && attempt ≠ .notReady then
    { (socket.write frame attempt).1 with handler := .idle }
  else { socket with handler := .counting frame }

def handlerStep (attempt : Attempt) : Option Socket :=
  match socket.handler with
  | .idle => none
  | .loading frame =>
    if socket.direct && socket.queued == 0 then some { socket with handler := .trying frame }
    else some { socket with handler := .counting frame }
  | .trying frame => some (socket.tryDirectSend frame attempt)
  | .counting frame =>
    some { socket with queued := socket.queued + 1, handler := .pushing frame }
  | .pushing frame =>
    if socket.closed then some { socket with handler := .idle }
    else if socket.full then
      some { socket with
        waiters := socket.waiters ++ [⟨[.send frame], true⟩], handler := .awaiting }
    else some { socket with channel := socket.channel ++ [.send frame], handler := .idle }
  | .awaiting =>
    if socket.waiters.any Waiter.awaited then none else some { socket with handler := .idle }
  | .countingSeq cmds =>
    some { socket with
      queued := socket.queued + (frames cmds).length, handler := .queueing cmds }
  | .queueing [] => some { socket with handler := .idle }
  | .queueing (cmd :: rest) =>
    if socket.closed then some { socket with handler := .queueing rest }
    else if socket.full then
      some { socket with
        waiters := socket.waiters ++ [⟨cmd :: rest, false⟩], handler := .idle }
    else some { socket with channel := socket.channel ++ [cmd], handler := .queueing rest }

def deliver (index : Nat) : Option Socket :=
  match socket.waiters[index]? with
  | none => none
  | some waiter =>
    match waiter.cmds with
    | [] => some { socket with waiters := socket.waiters.eraseIdx index }
    | cmd :: rest =>
      if socket.closed then some { socket with waiters := socket.waiters.eraseIdx index }
      else if socket.full then none
      else some { socket with
        channel := socket.channel ++ [cmd]
        waiters := socket.waiters.set index { waiter with cmds := rest } }

def taskStep (attempt : Attempt) : Option Socket :=
  match socket.task with
  | .absent | .selecting | .gone => none
  | .locking frame =>
    match socket.holder with
    | .nobody => some { socket with holder := .task, task := .writing frame }
    | _ => none
  | .writing frame =>
    some { (socket.write frame attempt).1 with
      holder := .nobody, task := .written frame (socket.write frame attempt).2 }
  | .written frame sentOk =>
    some { socket with
      queued := socket.queued - 1
      task := if !sentOk then .leaving else if frame.isClose then .closing else .selecting }
  | .closing | .echoing =>
    -- The echo is not recorded; it leaves the sink closed all the same.
    match socket.holder, socket.sink with
    | .nobody, .writable => some { socket with sink := .refusing, task := .leaving }
    | .nobody, _ => some { socket with task := .leaving }
    | _, _ => none
  | .leaving => some { socket with closed := true, task := .draining }
  | .draining =>
    match socket.channel with
    | _ :: rest => some { socket with channel := rest }
    | [] => some { socket with task := .taking }
  | .taking =>
    match socket.holder with
    | .nobody => some { socket with sink := .taken, task := .gone }
    | _ => none

def issue (frame : WsMessage) (handler : Handler) : Option Socket :=
  match socket.handler with
  | .idle => some { socket with issued := socket.issued ++ [frame], handler }
  | _ => none

end Socket

def step : Action → Socket → Option Socket
  | .send frame, socket =>
    if frame.isClose then none else socket.issue frame (.loading frame)
  | .close code reason, socket =>
    socket.issue (.close code reason) (.countingSeq [.send (.close code reason)])
  | .closeAndWait code reason, socket =>
    socket.issue (.close code reason) (.countingSeq [.send (.close code reason), .flush])
  | .handler attempt, socket => socket.handlerStep attempt
  | .deliver index, socket => socket.deliver index
  | .upgrade, socket =>
    match socket.task, socket.sink with
    | .absent, .absent => some { socket with sink := .writable, task := .selecting }
    | _, _ => none
  | .recv, socket =>
    match socket.task, socket.channel with
    | .selecting, .send frame :: rest =>
      some { socket with channel := rest, task := .locking frame }
    | .selecting, .flush :: rest => some { socket with channel := rest }
    | _, _ => none
  | .peerClose, socket =>
    match socket.task with
    | .selecting => some { socket with task := .echoing }
    | _ => none
  | .stop, socket =>
    match socket.task with
    | .selecting => some { socket with task := .leaving }
    | _ => none
  | .task attempt, socket => socket.taskStep attempt
  | .flushLock, socket =>
    match socket.holder with
    | .nobody => some { socket with holder := .flusher }
    | _ => none
  | .flushUnlock, socket =>
    match socket.holder with
    | .flusher => some { socket with holder := .nobody }
    | _ => none
  | .fail, socket =>
    match socket.sink with
    | .writable => some { socket with sink := .refusing }
    | _ => none

end FastapiTurbo.WebSocketOutbound
