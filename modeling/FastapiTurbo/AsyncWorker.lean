import FastapiTurbo.Lib.Transition
import FastapiTurbo.Py
import Mathlib.Logic.Function.Basic

/-! `submit_fast` (`_async_worker.py`) with its gates (`SubmitGate` of `handler_bridge.rs`):
threads hand coroutines to the worker's loop and park on pooled gates.  A callback of the loop is
one step, and callbacks run in any order; a caller's steps are those that the loop or another
caller can see. -/
namespace FastapiTurbo.AsyncWorker

open Lib Py

variable {ν : Type}

/-- A number of seconds: how Python prints it, and whether it fits a `Duration` and, added to
now, an `Instant`. -/
structure Timeout where
  text : String
  representable : Bool
  deriving DecidableEq

structure Box (ν : Type) where
  result : Option ν := none
  exception : Option PyErr := none
  hasTask : Bool := false
  cancelRequested : Bool := false
  deriving DecidableEq

inductive Coro (ν : Type) where
  | fresh
  /-- Closed by `_kickoff`. -/
  | closed
  | created
  | suspended
  | ended (outcome : Outcome ν PyErr)
  /-- Its task was cancelled before the first step. -/
  | neverEntered
  deriving DecidableEq

inductive Caller (ν : Type) where
  | acquiring
  | clearing
  | submitting
  | waiting
  /-- `ev.wait` has returned true. -/
  | woken
  | releasing
  | appending
  /-- `ev.wait` has returned false. -/
  | expired
  | flagged
  | returned (value : Option ν)
  | raised (error : PyErr)
  | timedOut (error : PyErr)
  /-- `ev.wait` cannot make a deadline of the timeout and raises something else. -/
  | overflowed
  deriving DecidableEq

structure Call (ν : Type) where
  timeout : Option Timeout
  caller : Caller ν := .acquiring
  gate : Nat := 0
  box : Box ν := {}
  /-- `_kickoff` is scheduled and has not run. -/
  kickoff : Bool := false
  /-- So is `_cancel_in_box`. -/
  cancel : Bool := false
  coro : Coro ν := .fresh
  /-- Calls of `task.cancel` on the task while it was not done. -/
  cancels : Nat := 0
  deriving DecidableEq

structure State (ν : Type) where
  calls : List (Call ν) := []
  gates : Nat → Bool := fun _ => false
  made : Nat := 0
  pool : List Nat := []

def State.setCall (state : State ν) (index : Nat) (call : Call ν) : State ν :=
  { state with calls := state.calls.set index call }

def State.setGate (state : State ν) (gate : Nat) (done : Bool) : State ν :=
  { state with gates := Function.update state.gates gate done }

def Timeout.error (timeout : Timeout) : PyErr :=
  ⟨timeoutErrorMro, "fastapi-turbo worker-loop submit timed out after " ++ timeout.text ++ "s"⟩

inductive CallerEvent where
  | acquire
  | clear
  | submit
  | wake
  | timeOut
  | overflow
  | flag
  /-- `_cancel_in_box` is scheduled and the `TimeoutError` raised. -/
  | giveUp
  | read
  | release
  | append
  deriving DecidableEq

inductive LoopEvent (ν : Type) where
  /-- With the eager task factory the task makes its first step inside `create_task`. -/
  | kickoff (eager : Option (Segment ν))
  | resume (segment : Segment ν)
  | cancelInBox
  deriving DecidableEq

inductive Action (ν : Type) where
  /-- `init` puts a gate into the pool. -/
  | warm
  | submitFast (timeout : Option Timeout)
  | caller (index : Nat) (event : CallerEvent)
  | loop (index : Nat) (event : LoopEvent ν)
  deriving DecidableEq

/-- The gate is a `threading.Event`, whose wait may miss a `set` at its deadline. -/
abbrev PyEventGate := Bool

def fits : Option Timeout → Bool
  | none => true
  | some timeout => timeout.representable

def stepCaller (pyEvent : PyEventGate) (state : State ν) (index : Nat) (call : Call ν) :
    CallerEvent → Caller ν → Option (State ν)
  | .acquire, .acquiring =>
    match state.pool with
    | gate :: rest =>
      some ({ state with pool := rest }.setCall index
        { call with caller := .clearing, gate := gate })
    | [] =>
      some (({ state with made := state.made + 1 }.setGate state.made false).setCall index
        { call with caller := .submitting, gate := state.made })
  | .clear, .clearing =>
    some ((state.setGate call.gate false).setCall index { call with caller := .submitting })
  | .submit, .submitting =>
    some (state.setCall index { call with caller := .waiting, kickoff := true })
  | .wake, .waiting =>
    if (fits call.timeout || pyEvent) && state.gates call.gate then
      some (state.setCall index { call with caller := .woken })
    else none
  | .timeOut, .waiting =>
    if call.timeout.isSome && fits call.timeout && (pyEvent || !state.gates call.gate) then
      some (state.setCall index { call with caller := .expired })
    else none
  | .overflow, .waiting =>
    if !fits call.timeout && (!pyEvent || !state.gates call.gate) then
      some (state.setCall index { call with caller := .overflowed })
    else none
  | .flag, .expired =>
    some (state.setCall index
      { call with caller := .flagged, box := { call.box with cancelRequested := true } })
  | .giveUp, .flagged =>
    call.timeout.map fun timeout =>
      state.setCall index { call with caller := .timedOut timeout.error, cancel := true }
  | .read, .woken =>
    match call.box.exception with
    | some error => some (state.setCall index { call with caller := .raised error })
    | none => some (state.setCall index { call with caller := .releasing })
  | .release, .releasing =>
    if state.pool.length < 128 then
      some (state.setCall index { call with caller := .appending })
    else some (state.setCall index { call with caller := .returned call.box.result })
  | .append, .appending =>
    some ({ state with pool := call.gate :: state.pool }.setCall index
      { call with caller := .returned call.box.result })
  | _, _ => none

def Box.store (box : Box ν) : Outcome ν PyErr → Box ν
  | .returned value => { box with result := some value }
  | .raised error => { box with exception := some error }

def runner (state : State ν) (index : Nat) (call : Call ν) : Segment ν → State ν
  | .suspends => state.setCall index { call with coro := .suspended }
  | .ends outcome =>
    (state.setGate call.gate true).setCall index
      { call with coro := .ended outcome, box := call.box.store outcome }

/-- `_kickoff`.  The cancel flag is read twice there, but a callback is one step. -/
def kickoff (state : State ν) (index : Nat) (call : Call ν) (eager : Option (Segment ν)) :
    State ν :=
  if call.box.cancelRequested then
    (state.setGate call.gate true).setCall index { call with kickoff := false, coro := .closed }
  else
    let call := { call with kickoff := false, box := { call.box with hasTask := true } }
    match eager with
    | none => state.setCall index { call with coro := .created }
    | some segment => runner state index call segment

def Coro.live : Coro ν → Bool
  | .created => true
  | .suspended => true
  | _ => false

def cancelInBox (call : Call ν) : Call ν :=
  if call.box.hasTask && call.coro.live then
    { call with cancel := false, cancels := call.cancels + 1 }
  else { call with cancel := false }

def stepLoop (state : State ν) (index : Nat) (call : Call ν) : LoopEvent ν → Option (State ν)
  | .kickoff eager => if call.kickoff then some (kickoff state index call eager) else none
  | .resume segment =>
    match call.coro with
    | .created =>
      -- The exception is thrown into a coroutine that has not entered its `try`.
      if 0 < call.cancels then some (state.setCall index { call with coro := .neverEntered })
      else some (runner state index call segment)
    | .suspended => some (runner state index call segment)
    | _ => none
  | .cancelInBox => if call.cancel then some (state.setCall index (cancelInBox call)) else none

def step (pyEvent : PyEventGate) : Action ν → State ν → Option (State ν)
  | .warm, state => some { state with pool := state.made :: state.pool, made := state.made + 1 }
  | .submitFast timeout, state =>
    some { state with calls := state.calls ++ [{ timeout := timeout }] }
  | .caller index event, state =>
    state.calls[index]?.bind fun call => stepCaller pyEvent state index call event call.caller
  | .loop index event, state =>
    state.calls[index]?.bind fun call => stepLoop state index call event

end FastapiTurbo.AsyncWorker
