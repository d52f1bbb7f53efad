import FastapiTurbo.Lib.Transition
import Mathlib.Logic.Function.Basic

/-! `RedisMux` (`contrib_redis.py`): one connection that any number of tasks on a loop share, with
a queue of futures as its only demultiplexer.  A stretch of a task between two awaits and a
callback of the loop are one step each.  A chunk of replies is taken one reply after the other. -/
namespace FastapiTurbo.RedisMux

open Lib

/-- A transport closes before its `connection_lost` is called.  A number that no connection has
counts as lost. -/
inductive Status where
  | opened
  | closing
  | lost
  deriving DecidableEq

/-- A connection with the commands that were written to it, in order. -/
@[ext]
structure Conn where
  status : Status := .lost
  answered : List Nat := []
  unanswered : List Nat := []
  deriving DecidableEq

inductive Future where
  | unsent
  | pending
  /-- With the reply that `conn` gave to `command`. -/
  | replied (conn command : Nat)
  | lost
  | cancelled
  deriving DecidableEq

/-- A command of `_send` and the future that was created for it. -/
structure Command where
  select : Bool := false
  future : Future := .unsent
  deriving DecidableEq

inductive Attempt where
  | pending
  | done
  | cancelled
  deriving DecidableEq

inductive Ending where
  | connected
  | returned (conn command : Nat)
  | refused
  | lost
  | cancelled
  /-- `ConnectionError("RedisMux is closed")` -/
  | muxClosed
  /-- `ConnectionError("redis connect failed")` -/
  | connectFailed
  /-- What `create_connection` raises. -/
  | unreachable
  /-- `AttributeError`: there is no transport to write to. -/
  | noTransport
  /-- `InvalidStateError`: the future in `_connecting` is already cancelled. -/
  | invalidState
  deriving DecidableEq

/-- Where a task that calls `execute`, `get`, `set` or `connect` once waits. -/
inductive Stage where
  | unborn
  /-- For `create_connection`. -/
  | dialing
  /-- `create_connection` is about to return. -/
  | dialed (conn : Nat)
  /-- For another task's `connect`. -/
  | joining (attempt : Nat)
  /-- For the reply to the `SELECT` of its `connect`. -/
  | selecting (command : Nat)
  /-- For its own `connect`. -/
  | stuck (attempt : Nat)
  | waiting (command : Nat)
  | ended (ending : Ending)
  deriving DecidableEq

structure Task where
  stage : Stage := .unborn
  /-- The task calls `connect` itself and sends nothing. -/
  bare : Bool := false
  cancelled : Bool := false
  deriving DecidableEq

structure Mux where
  conns : Nat → Conn := fun _ => {}
  dials : Nat := 0
  transport : Option Nat := none
  waiters : List Nat := []
  wbuf : List Nat := []
  flushScheduled : Bool := false
  /-- `_flush` callbacks on the loop. -/
  flushes : Nat := 0
  connecting : Option Nat := none
  attempts : Nat → Attempt := fun _ => .pending
  attempted : Nat := 0
  closed : Bool := false
  commands : Nat → Command := fun _ => {}
  sent : Nat := 0
  tasks : Nat → Task := fun _ => {}
  called : Nat := 0

inductive Action where
  | call (bare : Bool)
  | connected (task : Nat)
  | unreachable (task : Nat)
  | resume (task : Nat)
  | cancel (task : Nat)
  | flush
  | reply (conn : Nat)
  /-- The transport starts to close: the peer is gone or an error came up. -/
  | hangUp (conn : Nat)
  | connectionLost (conn : Nat)
  | close
  deriving DecidableEq

namespace Mux

def setConn (mux : Mux) (conn : Nat) (new : Conn) : Mux :=
  { mux with conns := Function.update mux.conns conn new }

def setStage (mux : Mux) (task : Nat) (stage : Stage) : Mux :=
  { mux with tasks := Function.update mux.tasks task { mux.tasks task with stage := stage } }

def setFuture (mux : Mux) (command : Nat) (future : Future) : Mux :=
  { mux with
    commands := Function.update mux.commands command
      { mux.commands command with future := future } }

def usable (mux : Mux) : Bool :=
  match mux.transport with
  | none => false
  | some conn => (mux.conns conn).status == .opened

def hangUp (mux : Mux) (conn : Nat) : Mux :=
  if (mux.conns conn).status = .opened then
    mux.setConn conn { mux.conns conn with status := .closing }
  else mux

/-- `transport.write`.  What is written to a transport that closes is not going to be
answered. -/
def write (mux : Mux) (conn : Nat) (commands : List Nat) : Mux :=
  if (mux.conns conn).status = .opened then
    mux.setConn conn { mux.conns conn with
      unanswered := (mux.conns conn).unanswered ++ commands }
  else mux

def stageOf (select : Bool) (command : Nat) : Stage :=
  if select then .selecting command else .waiting command

def enqueue (mux : Mux) (select : Bool) : Mux :=
  { mux with
    commands := Function.update mux.commands mux.sent { select := select, future := .pending }
    sent := mux.sent + 1
    waiters := mux.waiters ++ [mux.sent] }

def coalesce (mux : Mux) (command : Nat) : Mux :=
  { mux with
    wbuf := mux.wbuf ++ [command]
    flushScheduled := true
    flushes := if mux.flushScheduled then mux.flushes else mux.flushes + 1 }

/-- `_send`, and the task waits for the future. -/
def send (mux : Mux) (task : Nat) (select : Bool) : Mux :=
  if mux.waiters = [] ∧ mux.wbuf = [] then
    match mux.transport with
    | none => (mux.enqueue select).setStage task (.ended .noTransport)
    | some conn =>
      ((mux.enqueue select).write conn [mux.sent]).setStage task (stageOf select mux.sent)
  else ((mux.enqueue select).coalesce mux.sent).setStage task (stageOf select mux.sent)

theorem send_noTransport (mux : Mux) {task : Nat} {select : Bool}
    (hidle : mux.waiters = [] ∧ mux.wbuf = []) (ht : mux.transport = none) :
    mux.send task select = (mux.enqueue select).setStage task (.ended .noTransport) := by
  rw [send, if_pos hidle, ht]

theorem send_idle (mux : Mux) {task conn : Nat} {select : Bool}
    (hidle : mux.waiters = [] ∧ mux.wbuf = []) (ht : mux.transport = some conn) :
    mux.send task select =
      ((mux.enqueue select).write conn [mux.sent]).setStage task (stageOf select mux.sent) := by
  rw [send, if_pos hidle, ht]

theorem send_busy (mux : Mux) {task : Nat} {select : Bool}
    (hb : ¬(mux.waiters = [] ∧ mux.wbuf = [])) :
    mux.send task select =
      ((mux.enqueue select).coalesce mux.sent).setStage task (stageOf select mux.sent) := by
  rw [send, if_neg hb]

/-- The `finally` of `connect`: `set_result` raises on a cancelled future. -/
def settle (mux : Mux) : Mux :=
  match mux.connecting with
  | none => mux
  | some attempt =>
    { mux with
      connecting := none
      attempts := Function.update mux.attempts attempt
        (if mux.attempts attempt = .pending then .done else mux.attempts attempt) }

def settles (mux : Mux) : Bool :=
  match mux.connecting with
  | none => true
  | some attempt => mux.attempts attempt == .pending

def abandon (mux : Mux) (task : Nat) (ending : Ending) : Mux :=
  mux.settle.setStage task (.ended (if mux.settles then ending else .invalidState))

/-- Behind `connect` the task sends its command without looking at the transport. -/
def carryOn (mux : Mux) (task : Nat) : Mux :=
  if (mux.tasks task).bare then mux.setStage task (.ended .connected) else mux.send task false

def proceed (mux : Mux) (task : Nat) : Mux :=
  if mux.settles then mux.settle.carryOn task
  else mux.settle.setStage task (.ended .invalidState)

/-- `connect` behind `create_connection`: the connection is published. -/
def publish (mux : Mux) (conn : Nat) : Mux :=
  { mux with
    waiters := []
    wbuf := []
    flushScheduled := false
    transport := some conn }

def establish (db : Bool) (mux : Mux) (task conn : Nat) : Mux :=
  let mux := mux.publish conn
  if db then
    -- The `execute` of `SELECT` calls `connect` again where the transport is closing, which finds
    -- its own future in `_connecting`.
    if mux.usable then mux.send task true
    else if mux.closed then mux.abandon task .muxClosed
    else mux.setStage task (.stuck (mux.connecting.getD 0))
  else mux.proceed task

/-- The first stretch of `execute`, `get`, `set` and `connect`. -/
def start (mux : Mux) (task : Nat) : Mux :=
  if mux.usable then mux.carryOn task
  else if mux.closed then mux.setStage task (.ended .muxClosed)
  else
    match mux.connecting with
    | some attempt => mux.setStage task (.joining attempt)
    | none =>
      { mux.setStage task .dialing with
        connecting := some mux.attempted
        attempts := Function.update mux.attempts mux.attempted .pending
        attempted := mux.attempted + 1 }

def fails (refuses : Nat → Bool) (mux : Mux) (conn command : Nat) : Bool :=
  refuses conn && (mux.commands command).select

def cancelAttempt (mux : Mux) (attempt : Nat) : Mux :=
  if mux.attempts attempt = .pending then
    { mux with attempts := Function.update mux.attempts attempt .cancelled }
  else mux

def cancelFuture (mux : Mux) (command : Nat) : Mux :=
  if (mux.commands command).future = .pending then mux.setFuture command .cancelled else mux

def create (mux : Mux) (bare : Bool) : Mux :=
  { mux with
    tasks := Function.update mux.tasks mux.called { bare := bare }
    called := mux.called + 1 }

def flagTask (mux : Mux) (task : Nat) : Mux :=
  { mux with tasks := Function.update mux.tasks task { mux.tasks task with cancelled := true } }

/-- `task.cancel` cancels what the task waits for. -/
def cancel (mux : Mux) (task : Nat) : Option Mux :=
  match (mux.tasks task).stage with
  | .unborn => none
  | .ended _ => none
  | .dialing => some (mux.flagTask task)
  | .dialed _ => some (mux.flagTask task)
  | .joining attempt => some ((mux.cancelAttempt attempt).flagTask task)
  | .stuck attempt => some ((mux.cancelAttempt attempt).flagTask task)
  | .selecting command => some ((mux.cancelFuture command).flagTask task)
  | .waiting command => some ((mux.cancelFuture command).flagTask task)

def resumeCancelled (mux : Mux) (task : Nat) : Stage → Option Mux
  | .unborn => none
  | .ended _ => none
  | .dialing => some (mux.abandon task .cancelled)
  | .dialed conn => some ((mux.hangUp conn).abandon task .cancelled)
  | .joining _ => some (mux.setStage task (.ended .cancelled))
  | .stuck _ => some (mux.abandon task .cancelled)
  | .selecting _ => some (mux.abandon task .cancelled)
  | .waiting _ => some (mux.setStage task (.ended .cancelled))

def resumeJoining (mux : Mux) (task attempt : Nat) : Option Mux :=
  match mux.attempts attempt with
  | .pending => none
  | .cancelled => some (mux.setStage task (.ended .cancelled))
  | .done =>
    if mux.usable then some (mux.carryOn task)
    else some (mux.setStage task (.ended .connectFailed))

def resumeStuck (mux : Mux) (task attempt : Nat) : Option Mux :=
  match mux.attempts attempt with
  | .cancelled => some (mux.abandon task .cancelled)
  | _ => none

def resumeSelecting (refuses : Nat → Bool) (mux : Mux) (task command : Nat) : Option Mux :=
  match (mux.commands command).future with
  | .replied conn answered =>
    if mux.fails refuses conn answered then some (mux.abandon task .refused)
    else some (mux.proceed task)
  | .lost => some (mux.abandon task .lost)
  | .cancelled => some (mux.abandon task .cancelled)
  | _ => none

def resumeWaiting (refuses : Nat → Bool) (mux : Mux) (task command : Nat) : Option Mux :=
  match (mux.commands command).future with
  | .replied conn answered =>
    if mux.fails refuses conn answered then some (mux.setStage task (.ended .refused))
    else some (mux.setStage task (.ended (.returned conn answered)))
  | .lost => some (mux.setStage task (.ended .lost))
  | .cancelled => some (mux.setStage task (.ended .cancelled))
  | _ => none

def resume (db : Bool) (refuses : Nat → Bool) (mux : Mux) (task : Nat) : Stage → Option Mux
  | .dialed conn => some (mux.establish db task conn)
  | .joining attempt => mux.resumeJoining task attempt
  | .stuck attempt => mux.resumeStuck task attempt
  | .selecting command => mux.resumeSelecting refuses task command
  | .waiting command => mux.resumeWaiting refuses task command
  | _ => none

def awaitsDial (mux : Mux) (task : Nat) : Bool :=
  (mux.tasks task).stage == .dialing && !(mux.tasks task).cancelled

def flush (mux : Mux) : Mux :=
  let mux := { mux with flushScheduled := false, flushes := mux.flushes - 1 }
  match mux.transport with
  | none => mux
  | some conn => { mux.write conn mux.wbuf with wbuf := [] }

/-- The loop of `data_received` for one reply.  Without a waiter `popleft` raises, which closes
the transport. -/
def dataReceived (mux : Mux) (conn command : Nat) : Mux :=
  match mux.waiters with
  | [] => mux.hangUp conn
  | waiter :: rest =>
    if (mux.commands waiter).future = .pending then
      { mux.setFuture waiter (.replied conn command) with waiters := rest }
    else { mux with waiters := rest }

def reply (mux : Mux) (conn : Nat) : Option Mux :=
  match (mux.conns conn).status, (mux.conns conn).unanswered with
  | .opened, command :: rest =>
    some ((mux.setConn conn { mux.conns conn with
      answered := (mux.conns conn).answered ++ [command]
      unanswered := rest }).dataReceived conn command)
  | _, _ => none

def failAll (commands : Nat → Command) (waiters : List Nat) : Nat → Command := fun command =>
  if command ∈ waiters ∧ (commands command).future = .pending then
    { commands command with future := .lost }
  else commands command

def onConnectionLost (mux : Mux) : Mux :=
  { mux with
    transport := none
    commands := failAll mux.commands mux.waiters
    waiters := [] }

def close (mux : Mux) : Mux :=
  match mux.transport with
  | none => { mux with closed := true }
  | some conn => { mux.hangUp conn with closed := true, transport := none }

end Mux

/-- The server answers the commands of a connection in order; `refuses` says on which
connections it answers `SELECT` with an error. -/
def step (db : Bool) (refuses : Nat → Bool) : Action → Mux → Option Mux
  | .call bare, mux => some ((mux.create bare).start mux.called)
  | .connected task, mux =>
    if mux.awaitsDial task then
      some { (mux.setConn mux.dials { status := .opened }).setStage task (.dialed mux.dials) with
        dials := mux.dials + 1 }
    else none
  | .unreachable task, mux =>
    if mux.awaitsDial task then some (mux.abandon task .unreachable) else none
  | .resume task, mux =>
    if (mux.tasks task).cancelled then mux.resumeCancelled task (mux.tasks task).stage
    else mux.resume db refuses task (mux.tasks task).stage
  | .cancel task, mux => mux.cancel task
  | .flush, mux => if 0 < mux.flushes then some mux.flush else none
  | .reply conn, mux => mux.reply conn
  | .hangUp conn, mux =>
    if (mux.conns conn).status = .opened then some (mux.hangUp conn) else none
  | .connectionLost conn, mux =>
    if (mux.conns conn).status = .closing then
      some (mux.setConn conn { mux.conns conn with status := .lost }).onConnectionLost
    else none
  | .close, mux => some mux.close

def Stage.connects : Stage → Bool
  | .dialing | .dialed _ | .selecting _ | .stuck _ => true
  | _ => false

inductive Resumed (db : Bool) (mux : Mux) (task : Nat) : Mux → Prop
  | ended (ending : Ending) (hstage : (mux.tasks task).stage.connects = false) :
      Resumed db mux task (mux.setStage task (.ended ending))
  | carriedOn (husable : mux.usable = true) (hstage : (mux.tasks task).stage.connects = false) :
      Resumed db mux task (mux.carryOn task)
  | abandoned (ending : Ending) (hstage : (mux.tasks task).stage.connects = true) :
      Resumed db mux task (mux.abandon task ending)
  | hungUp (conn : Nat) (hstage : (mux.tasks task).stage = .dialed conn) :
      Resumed db mux task ((mux.hangUp conn).abandon task .cancelled)
  | proceeded (command conn answered : Nat) (hstage : (mux.tasks task).stage = .selecting command)
      (hcancelled : (mux.tasks task).cancelled = false)
      (hreplied : (mux.commands command).future = .replied conn answered) :
      Resumed db mux task (mux.proceed task)
  | established (conn : Nat) (hstage : (mux.tasks task).stage = .dialed conn)
      (hcancelled : (mux.tasks task).cancelled = false) :
      Resumed db mux task (mux.establish db task conn)

section Inversion

variable {db : Bool} {refuses : Nat → Bool} {mux next : Mux} {task : Nat}

theorem stage_of_awaitsDial (hd : mux.awaitsDial task = true) :
    (mux.tasks task).stage = .dialing := by
  simpa using (Bool.and_eq_true_iff.1 hd).1

theorem resumed_of_resumeCancelled
    (hr : mux.resumeCancelled task (mux.tasks task).stage = some next) :
    Resumed db mux task next := by
  cases hs : (mux.tasks task).stage with
  | unborn | ended _ =>
    rw [hs] at hr
    cases hr
  | joining _ | waiting _ =>
    rw [hs] at hr
    cases hr
    exact .ended .cancelled (by rw [hs]; rfl)
  | dialing | stuck _ | selecting _ =>
    rw [hs] at hr
    cases hr
    exact .abandoned .cancelled (by rw [hs]; rfl)
  | dialed conn =>
    rw [hs] at hr
    cases hr
    exact .hungUp conn hs

theorem resumed_of_resumeJoining {attempt : Nat}
    (hs : (mux.tasks task).stage = .joining attempt)
    (hr : mux.resumeJoining task attempt = some next) : Resumed db mux task next := by
  have hc : (mux.tasks task).stage.connects = false := by rw [hs]; rfl
  rw [Mux.resumeJoining] at hr
  split at hr
  next => cases hr
  next =>
    cases hr
    exact .ended .cancelled hc
  next =>
    split at hr
    next hu =>
      cases hr
      exact .carriedOn hu hc
    next =>
      cases hr
      exact .ended .connectFailed hc

theorem resumed_of_resumeSelecting {command : Nat}
    (hs : (mux.tasks task).stage = .selecting command)
    (hcancelled : (mux.tasks task).cancelled = false)
    (hr : mux.resumeSelecting refuses task command = some next) :
    Resumed db mux task next := by
  have hc : (mux.tasks task).stage.connects = true := by rw [hs]; rfl
  rw [Mux.resumeSelecting] at hr
  split at hr
  next conn answered hreplied =>
    split at hr
    next =>
      cases hr
      exact .abandoned .refused hc
    next =>
      cases hr
      exact .proceeded command conn answered hs hcancelled hreplied
  next =>
    cases hr
    exact .abandoned .lost hc
  next =>
    cases hr
    exact .abandoned .cancelled hc
  next => cases hr

private theorem resumed_of_resumeWaiting {command : Nat}
    (hs : (mux.tasks task).stage = .waiting command)
    (hr : mux.resumeWaiting refuses task command = some next) : Resumed db mux task next := by
  have hc : (mux.tasks task).stage.connects = false := by rw [hs]; rfl
  rw [Mux.resumeWaiting] at hr
  split at hr
  next =>
    split at hr
    next =>
      cases hr
      exact .ended .refused hc
    next =>
      cases hr
      exact .ended _ hc
  next =>
    cases hr
    exact .ended .lost hc
  next =>
    cases hr
    exact .ended .cancelled hc
  next => cases hr

theorem resumed_of_step (hs : step db refuses (.resume task) mux = some next) :
    Resumed db mux task next := by
  rw [step] at hs
  split at hs
  next => exact resumed_of_resumeCancelled hs
  next hc =>
    have hc : (mux.tasks task).cancelled = false := by simpa using hc
    cases hstage : (mux.tasks task).stage with
    | unborn | ended _ | dialing =>
      rw [hstage] at hs
      cases hs
    | dialed conn =>
      rw [hstage] at hs
      cases hs
      exact .established conn hstage hc
    | joining attempt =>
      rw [hstage] at hs
      exact resumed_of_resumeJoining hstage hs
    | stuck attempt =>
      rw [hstage, Mux.resume, Mux.resumeStuck] at hs
      split at hs
      next =>
        cases hs
        exact .abandoned .cancelled (by rw [hstage]; rfl)
      next => cases hs
    | selecting command =>
      rw [hstage] at hs
      exact resumed_of_resumeSelecting hstage hc hs
    | waiting command =>
      rw [hstage] at hs
      exact resumed_of_resumeWaiting hstage hs

theorem cancelled_of_cancel (hc : mux.cancel task = some next) :
    next = mux.flagTask task ∨ (∃ attempt, next = (mux.cancelAttempt attempt).flagTask task) ∨
      ∃ command, next = (mux.cancelFuture command).flagTask task := by
  rw [Mux.cancel] at hc
  split at hc
  next => cases hc
  next => cases hc
  next => exact .inl (Option.some.inj hc).symm
  next => exact .inl (Option.some.inj hc).symm
  next attempt _ => exact .inr (.inl ⟨attempt, (Option.some.inj hc).symm⟩)
  next attempt _ => exact .inr (.inl ⟨attempt, (Option.some.inj hc).symm⟩)
  next command _ => exact .inr (.inr ⟨command, (Option.some.inj hc).symm⟩)
  next command _ => exact .inr (.inr ⟨command, (Option.some.inj hc).symm⟩)

end Inversion

end FastapiTurbo.RedisMux
