import FastapiTurbo.Lib.Coroutine
import FastapiTurbo.Lib.Transition

/-! The inbound half of a WebSocket connection (`websocket.rs`): the reader arm of the
select task pushes frames into a channel, and one handler takes them out through the
receive awaitables, by a blocking `recv` on its own thread or by a future on the shared
loop.  Every atomic operation and every lock section is a step of its own. -/
namespace FastapiTurbo.WebSocketInbound

open Lib

inductive WsMessage where
  | text (text : String)
  | binary (bytes : List UInt8)
  | close (code : Nat) (reason : String)
  deriving DecidableEq

def WsMessage.isClose : WsMessage → Bool
  | .close _ _ => true
  | _ => false

inductive RecvKind where
  | dict
  | text
  | bytes
  deriving DecidableEq

def fromUtf8 (bytes : List UInt8) : Option String :=
  String.fromUTF8? ⟨bytes.toArray⟩

def asBytes (text : String) : List UInt8 :=
  text.toByteArray.data.toList

inductive Received where
  | text (text : String)
  | bytes (bytes : List UInt8)
  /-- `websocket.receive` with the key `text` or `bytes`. -/
  | textDict (text : String)
  | bytesDict (bytes : List UInt8)
  /-- `websocket.disconnect`. -/
  | disconnectDict (code : Nat) (reason : String)
  deriving DecidableEq

inductive WsError where
  | disconnect (code : Nat) (reason : String)
  | runtimeError (text : String)
  deriving DecidableEq

def surface : RecvKind → WsMessage → Outcome Received WsError
  | .dict, .text text => .returned (.textDict text)
  | .dict, .binary bytes => .returned (.bytesDict bytes)
  | .dict, .close code reason => .returned (.disconnectDict code reason)
  | .text, .text text => .returned (.text text)
  | .text, .binary bytes =>
    match fromUtf8 bytes with
    | some text => .returned (.text text)
    | none => .raised (.runtimeError "Received binary message when expecting text")
  | .bytes, .binary bytes => .returned (.bytes bytes)
  | .bytes, .text text => .returned (.bytes (asBytes text))
  | .text, .close code reason | .bytes, .close code reason =>
    .raised (.disconnect code reason)

def closeErrText : String :=
  "WebSocket closed"

inductive AppState where
  | connected
  | disconnected
  deriving DecidableEq

inductive Source where
  | served (message : WsMessage)
  /-- The channel is empty and its sender is gone. -/
  | channelClosed
  /-- `_app_state` was `DISCONNECTED` before the awaitable was asked for. -/
  | alreadyDisconnected
  deriving DecidableEq

def Source.frame : Source → Option WsMessage
  | .served message => some message
  | _ => none

/-- `WebSocket.receive`, `receive_text` and `receive_bytes`; only the first one
translates the error of a closed channel. -/
def answer : RecvKind → Source → Outcome Received WsError
  | kind, .served message => surface kind message
  | .dict, .channelClosed => .returned (.disconnectDict 1000 closeErrText)
  | .text, .channelClosed | .bytes, .channelClosed => .raised (.runtimeError closeErrText)
  | .dict, .alreadyDisconnected =>
    .raised (.runtimeError "Cannot call \"receive\" once a disconnect has been received.")
  | .text, .alreadyDisconnected | .bytes, .alreadyDisconnected =>
    .raised (.disconnect 1000 "already disconnected")

def AppState.afterReceive (state : AppState) : RecvKind → Source → AppState
  | .dict, .served (.close _ _) | .dict, .channelClosed => .disconnected
  | _, _ => state

inductive Resume where
  | reading
  | teardown
  | gone
  deriving DecidableEq

inductive Reader where
  /-- In `select!`. -/
  | reading
  /-- Out of the loop; `drop(cb_tx)` is next. -/
  | teardown
  /-- `LoopWake.fire`: `armed.swap(false)` is next. -/
  | firing (next : Resume)
  /-- The swap gave `true`; the lock on the slot is next. -/
  | taking (next : Resume)
  | resolving (future : Nat) (next : Resume)
  | gone
  deriving DecidableEq

def Resume.reader : Resume → Reader
  | .reading => .reading
  | .teardown => .teardown
  | .gone => .gone

inductive Handler where
  | running
  /-- `buf.pop_front()`. -/
  | entering (kind : RecvKind)
  /-- The `recv` of thread mode. -/
  | blocking (kind : RecvKind)
  /-- The first `try_recv` of `loop_next`. -/
  | pulling (kind : RecvKind)
  | creating (kind : RecvKind)
  /-- `*wake.fut.lock() = Some(fut)`. -/
  | storing (kind : RecvKind) (future : Nat)
  /-- `armed.store(true)`. -/
  | arming (kind : RecvKind) (future : Nat)
  /-- The `try_recv` after arming. -/
  | checking (kind : RecvKind) (future : Nat)
  /-- A `try_recv` of the batch drain behind the first frame. -/
  | draining (kind : RecvKind) (first : WsMessage) (armed : Bool)
  /-- `armed.swap(false)` after the check found something. -/
  | disarming (kind : RecvKind) (source : Source)
  | suspended (kind : RecvKind) (future : Nat)
  deriving DecidableEq

inductive Call where
  | receive (kind : RecvKind) (source : Source)
  | close
  deriving DecidableEq

structure Connection where
  loopMode : Bool
  channel : List WsMessage
  /-- `cb_tx` is dropped. -/
  closed : Bool
  buf : List WsMessage
  armed : Bool
  slot : Option Nat
  resolved : List Nat
  created : Nat
  reader : Reader
  handler : Handler
  appState : AppState
  pushed : List WsMessage
  /-- The calls of the handler that have ended. -/
  calls : List Call
  deriving DecidableEq

def Connection.initial (loopMode : Bool) : Connection where
  loopMode := loopMode
  channel := []
  closed := false
  buf := []
  armed := false
  slot := none
  resolved := []
  created := 0
  reader := .reading
  handler := .running
  appState := .connected
  pushed := []
  calls := []

inductive Action where
  /-- A frame arrives, goes into the channel, and is fired for. -/
  | push (message : WsMessage)
  /-- The loop is left without a Close frame: the peer is gone, a read or a write
  failed, or the handler closed the connection. -/
  | stop
  | reader
  | call (kind : RecvKind)
  | close
  | handler
  /-- The task of the handler is cancelled where it is suspended. -/
  | cancel

namespace Connection

def finish (conn : Connection) (kind : RecvKind) (source : Source) : Connection :=
  { conn with
    handler := .running
    appState := conn.appState.afterReceive kind source
    calls := conn.calls ++ [.receive kind source] }

def readerStep (conn : Connection) : Option Connection :=
  match conn.reader with
  | .reading | .gone => none
  | .teardown => some { conn with closed := true, reader := .firing .gone }
  | .firing next =>
    if conn.armed then some { conn with armed := false, reader := .taking next }
    else some { conn with reader := next.reader }
  | .taking next =>
    match conn.slot with
    | some future => some { conn with slot := none, reader := .resolving future next }
    | none => some { conn with reader := next.reader }
  | .resolving future next =>
    some { conn with resolved := future :: conn.resolved, reader := next.reader }

def batchDrainCap : Nat :=
  64

def handlerStep (conn : Connection) : Option Connection :=
  match conn.handler with
  | .running => none
  | .entering kind =>
    match conn.buf with
    | message :: rest => some ({ conn with buf := rest }.finish kind (.served message))
    | [] =>
      some { conn with handler := if conn.loopMode then .pulling kind else .blocking kind }
  | .blocking kind =>
    match conn.channel with
    | first :: rest =>
      some { conn with channel := rest, handler := .draining kind first false }
    | [] => if conn.closed then some (conn.finish kind .channelClosed) else none
  | .pulling kind =>
    match conn.channel with
    | first :: rest =>
      some { conn with channel := rest, handler := .draining kind first false }
    | [] =>
      if conn.closed then some (conn.finish kind .channelClosed)
      else some { conn with handler := .creating kind }
  | .creating kind =>
    some { conn with created := conn.created + 1, handler := .storing kind conn.created }
  | .storing kind future =>
    some { conn with slot := some future, handler := .arming kind future }
  | .arming kind future => some { conn with armed := true, handler := .checking kind future }
  | .checking kind future =>
    match conn.channel with
    | first :: rest =>
      some { conn with channel := rest, handler := .draining kind first true }
    | [] =>
      if conn.closed then some { conn with handler := .disarming kind .channelClosed }
      else some { conn with handler := .suspended kind future }
  | .draining kind first armed =>
    match conn.channel with
    | message :: rest =>
      if conn.buf.length < batchDrainCap then
        some { conn with channel := rest, buf := conn.buf ++ [message] }
      else if armed then some { conn with handler := .disarming kind (.served first) }
      else some (conn.finish kind (.served first))
    | [] =>
      if armed then some { conn with handler := .disarming kind (.served first) }
      else some (conn.finish kind (.served first))
  | .disarming kind source => some ({ conn with armed := false }.finish kind source)
  | .suspended kind future =>
    if future ∈ conn.resolved then some { conn with handler := .entering kind } else none

end Connection

def step : Action → Connection → Option Connection
  | .push message, conn =>
    match conn.reader with
    | .reading => some { conn with
        channel := conn.channel ++ [message]
        pushed := conn.pushed ++ [message]
        reader := .firing (if message.isClose then .teardown else .reading) }
    | _ => none
  | .stop, conn =>
    match conn.reader with
    | .reading => some { conn with reader := .teardown }
    | _ => none
  | .reader, conn => conn.readerStep
  | .call kind, conn =>
    match conn.handler, conn.appState with
    | .running, .connected => some { conn with handler := .entering kind }
    | .running, .disconnected =>
      some { conn with calls := conn.calls ++ [.receive kind .alreadyDisconnected] }
    | _, _ => none
  | .close, conn =>
    match conn.handler with
    | .running => some { conn with appState := .disconnected, calls := conn.calls ++ [.close] }
    | _ => none
  | .handler, conn => conn.handlerStep
  | .cancel, conn =>
    match conn.handler with
    | .suspended _ _ => some { conn with handler := .running }
    | _ => none

inductive Stepped (conn : Connection) : Connection → Prop
  | push (message) (hreader : conn.reader = .reading) :
      Stepped conn { conn with
        channel := conn.channel ++ [message]
        pushed := conn.pushed ++ [message]
        reader := .firing (if message.isClose then .teardown else .reading) }
  | stop (hreader : conn.reader = .reading) : Stepped conn { conn with reader := .teardown }
  | drop (hreader : conn.reader = .teardown) :
      Stepped conn { conn with closed := true, reader := .firing .gone }
  | swap {next} (hreader : conn.reader = .firing next) (harmed : conn.armed = true) :
      Stepped conn { conn with armed := false, reader := .taking next }
  | skip {next} (hreader : conn.reader = .firing next) (harmed : conn.armed = false) :
      Stepped conn { conn with reader := next.reader }
  | take {future next} (hreader : conn.reader = .taking next) (hslot : conn.slot = some future) :
      Stepped conn { conn with slot := none, reader := .resolving future next }
  | takeNothing {next} (hreader : conn.reader = .taking next) (hslot : conn.slot = none) :
      Stepped conn { conn with reader := next.reader }
  | resolve {future next} (hreader : conn.reader = .resolving future next) :
      Stepped conn { conn with resolved := future :: conn.resolved, reader := next.reader }
  | call (kind) (hhandler : conn.handler = .running) (happ : conn.appState = .connected) :
      Stepped conn { conn with handler := .entering kind }
  | refuse (kind) (hhandler : conn.handler = .running) (happ : conn.appState = .disconnected) :
      Stepped conn { conn with calls := conn.calls ++ [.receive kind .alreadyDisconnected] }
  | close (hhandler : conn.handler = .running) :
      Stepped conn { conn with appState := .disconnected, calls := conn.calls ++ [.close] }
  | popFront {kind message rest} (hhandler : conn.handler = .entering kind)
      (hbuf : conn.buf = message :: rest) :
      Stepped conn ({ conn with buf := rest }.finish kind (.served message))
  | enter {kind} (hhandler : conn.handler = .entering kind) (hbuf : conn.buf = []) :
      Stepped conn { conn with
        handler := if conn.loopMode then .pulling kind else .blocking kind }
  | recv {kind first rest}
      (hhandler : conn.handler = .blocking kind ∨ conn.handler = .pulling kind)
      (hchannel : conn.channel = first :: rest) :
      Stepped conn { conn with channel := rest, handler := .draining kind first false }
  | recvClosed {kind}
      (hhandler : conn.handler = .blocking kind ∨ conn.handler = .pulling kind)
      (hchannel : conn.channel = []) (hclosed : conn.closed = true) :
      Stepped conn (conn.finish kind .channelClosed)
  | miss {kind} (hhandler : conn.handler = .pulling kind) (hchannel : conn.channel = []) :
      Stepped conn { conn with handler := .creating kind }
  | create {kind} (hhandler : conn.handler = .creating kind) :
      Stepped conn { conn with
        created := conn.created + 1, handler := .storing kind conn.created }
  | store {kind future} (hhandler : conn.handler = .storing kind future) :
      Stepped conn { conn with slot := some future, handler := .arming kind future }
  | arm {kind future} (hhandler : conn.handler = .arming kind future) :
      Stepped conn { conn with armed := true, handler := .checking kind future }
  | recheck {kind future first rest} (hhandler : conn.handler = .checking kind future)
      (hchannel : conn.channel = first :: rest) :
      Stepped conn { conn with channel := rest, handler := .draining kind first true }
  | recheckClosed {kind future} (hhandler : conn.handler = .checking kind future)
      (hchannel : conn.channel = []) (hclosed : conn.closed = true) :
      Stepped conn { conn with handler := .disarming kind .channelClosed }
  | suspend {kind future} (hhandler : conn.handler = .checking kind future)
      (hchannel : conn.channel = []) (hclosed : conn.closed = false) :
      Stepped conn { conn with handler := .suspended kind future }
  | drain {kind first armed message rest} (hhandler : conn.handler = .draining kind first armed)
      (hchannel : conn.channel = message :: rest) :
      Stepped conn { conn with channel := rest, buf := conn.buf ++ [message] }
  | drained {kind first} (hhandler : conn.handler = .draining kind first false) :
      Stepped conn (conn.finish kind (.served first))
  | drainedArmed {kind first} (hhandler : conn.handler = .draining kind first true) :
      Stepped conn { conn with handler := .disarming kind (.served first) }
  | disarm {kind source} (hhandler : conn.handler = .disarming kind source) :
      Stepped conn ({ conn with armed := false }.finish kind source)
  | wake {kind future} (hhandler : conn.handler = .suspended kind future)
      (hresolved : future ∈ conn.resolved) :
      Stepped conn { conn with handler := .entering kind }
  | cancel {kind future} (hhandler : conn.handler = .suspended kind future) :
      Stepped conn { conn with handler := .running }

theorem stepped_of_readerStep {conn next : Connection} (hs : conn.readerStep = some next) :
    Stepped conn next := by
  unfold Connection.readerStep at hs
  split at hs
  · cases hs
  · cases hs
  · cases hs
    exact .drop ‹_›
  · split at hs <;> cases hs
    · exact .swap ‹_› ‹_›
    · exact .skip ‹_› (Bool.eq_false_iff.2 ‹_›)
  · split at hs <;> cases hs
    · exact .take ‹_› ‹_›
    · exact .takeNothing ‹_› ‹_›
  · cases hs
    exact .resolve ‹_›

theorem stepped_of_handlerStep {conn next : Connection} (hs : conn.handlerStep = some next) :
    Stepped conn next := by
  unfold Connection.handlerStep at hs
  split at hs
  case h_1 => cases hs
  case h_2 kind hh =>
    split at hs <;> cases hs
    · exact .popFront hh ‹_›
    · exact .enter hh ‹_›
  case h_3 kind hh =>
    split at hs
    · cases hs
      exact .recv (.inl hh) ‹_›
    · split at hs <;> cases hs
      exact .recvClosed (.inl hh) ‹_› ‹_›
  case h_4 kind hh =>
    split at hs
    · cases hs
      exact .recv (.inr hh) ‹_›
    · split at hs <;> cases hs
      · exact .recvClosed (.inr hh) ‹_› ‹_›
      · exact .miss hh ‹_›
  case h_5 kind hh =>
    cases hs
    exact .create hh
  case h_6 kind future hh =>
    cases hs
    exact .store hh
  case h_7 kind future hh =>
    cases hs
    exact .arm hh
  case h_8 kind future hh =>
    split at hs
    · cases hs
      exact .recheck hh ‹_›
    · split at hs <;> cases hs
      · exact .recheckClosed hh ‹_› ‹_›
      · exact .suspend hh ‹_› (Bool.eq_false_iff.2 ‹_›)
  case h_9 kind first armed hh =>
    -- The drain is over, with the buffer full or the channel empty.
    have ho : (if armed then some { conn with handler := .disarming kind (.served first) }
        else some (conn.finish kind (.served first))) = some next → Stepped conn next := by
      intro hn
      cases armed with
      | true =>
        cases hn
        exact .drainedArmed hh
      | false =>
        cases hn
        exact .drained hh
    split at hs
    · split at hs
      · cases hs
        exact .drain hh ‹_›
      · exact ho hs
    · exact ho hs
  case h_10 kind source hh =>
    cases hs
    exact .disarm hh
  case h_11 kind future hh =>
    split at hs <;> cases hs
    exact .wake hh ‹_›

theorem stepped_of_step {action : Action} {conn next : Connection}
    (hs : step action conn = some next) : Stepped conn next := by
  cases action with
  | push message =>
    simp only [step] at hs
    split at hs <;> cases hs
    exact .push message ‹_›
  | stop =>
    simp only [step] at hs
    split at hs <;> cases hs
    exact .stop ‹_›
  | reader => exact stepped_of_readerStep hs
  | call kind =>
    simp only [step] at hs
    split at hs <;> cases hs
    · exact .call kind ‹_› ‹_›
    · exact .refuse kind ‹_› ‹_›
  | close =>
    simp only [step] at hs
    split at hs <;> cases hs
    exact .close ‹_›
  | handler => exact stepped_of_handlerStep hs
  | cancel =>
    simp only [step] at hs
    split at hs <;> cases hs
    exact .cancel ‹_›

end FastapiTurbo.WebSocketInbound
