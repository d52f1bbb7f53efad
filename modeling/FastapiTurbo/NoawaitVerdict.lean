import FastapiTurbo.Lib.Coroutine
import FastapiTurbo.Lib.Dict

/-! The verdict that lets an async generator be driven without a loop, and what such a
drive comes to.  The verdict looks for one opcode in the generator's own code; the
code may still iterate other asynchronous iterators. -/
namespace FastapiTurbo.NoawaitVerdict

open Lib

/-- The body of an async generator over its arguments and loop variables.  An inner
iterator is its successive `__anext__`; a returned `none` is `StopAsyncIteration`.
The exit of an `async with` returns whether it suppresses. -/
inductive Stmt (ε ν χ : Type) where
  | yield (value : List ν → ν)
  | effect (run : List ν → Outcome Unit χ)
  | await (awaitable : List ν → Coroutine ε Unit χ)
  | asyncWith (enter : List ν → Coroutine ε Unit χ) (exit : List ν → Coroutine ε Bool χ)
      (body : Stmt ε ν χ)
  | asyncFor (inner : List ν → Nat → Coroutine ε (Option ν) χ) (body : Stmt ε ν χ)
  | seq (first second : Stmt ε ν χ)

inductive Status (χ : Type) where
  | completed
  | raised (error : χ)
  | running
  | suspended
  | needsLoop
  deriving DecidableEq

/-- The chunks of a run, whether everything it awaited was calm, and how it stopped. -/
structure Exec (ν χ : Type) where
  chunks : List ν
  calm : Bool
  status : Status χ
  deriving DecidableEq

variable {ε ν χ : Type}

def Exec.stop (status : Status χ) : Exec ν χ :=
  ⟨[], true, status⟩

def Exec.followed (first : Exec ν χ) (next : Status χ → Option (Exec ν χ)) : Exec ν χ :=
  match next first.status with
  | none => first
  | some later => ⟨first.chunks ++ later.chunks, first.calm && later.calm, later.status⟩

def Exec.andThen (first second : Exec ν χ) : Exec ν χ :=
  first.followed fun
    | .completed => some second
    | _ => none

/-- How a driver awaits: on a loop, or by a bare `send`. -/
abbrev Driver (ε χ : Type) := {α : Type} → Coroutine ε α χ → Awaited α χ

def bare : Driver ε χ :=
  Coroutine.bareSend

def loop : Driver ε χ :=
  Coroutine.onLoop

section Semantics

variable (driver : Driver ε χ)

def awaiting {α : Type} (script : Coroutine ε α χ) (next : Outcome α χ → Exec ν χ) : Exec ν χ :=
  match driver script with
  | .finished outcome =>
    let later := next outcome
    { later with calm := script.calm && later.calm }
  | .suspended => ⟨[], false, .suspended⟩
  | .needsLoop => ⟨[], false, .needsLoop⟩

def ofOutcome : Outcome Unit χ → Exec ν χ
  | .returned () => .stop .completed
  | .raised error => .stop (.raised error)

/-- The exit of an `async with` whose body has ended in the given status. -/
def leave (status : Status χ) : Outcome Bool χ → Exec ν χ
  | .raised error => .stop (.raised error)
  | .returned true => .stop .completed
  | .returned false => .stop status

def exitWith (exit : Coroutine ε Bool χ) (body : Exec ν χ) : Exec ν χ :=
  body.followed fun
    | .completed => some (awaiting driver exit (leave .completed))
    | .raised error => some (awaiting driver exit (leave (.raised error)))
    | _ => none

def rounds (inner : Nat → Coroutine ε (Option ν) χ) (each : ν → Exec ν χ) :
    Nat → Nat → Exec ν χ
  | 0, _ => .stop .running
  | fuel + 1, round =>
    awaiting driver (inner round) fun
      | .raised error => .stop (.raised error)
      | .returned none => .stop .completed
      | .returned (some item) => (each item).andThen (rounds inner each fuel (round + 1))

def exec (fuel : Nat) : Stmt ε ν χ → List ν → Exec ν χ
  | .yield value, env => ⟨[value env], true, .completed⟩
  | .effect run, env => ofOutcome (run env)
  | .await awaitable, env => awaiting driver (awaitable env) ofOutcome
  | .asyncWith enter exit body, env =>
    awaiting driver (enter env) fun
      | .raised error => .stop (.raised error)
      | .returned () => exitWith driver (exit env) (exec fuel body env)
  | .asyncFor inner body, env =>
    rounds driver (inner env) (fun item => exec fuel body (item :: env)) fuel 0
  | .seq first second, env => (exec fuel first env).andThen (exec fuel second env)

end Semantics

def Status.blocked : Status χ → Bool
  | .suspended | .needsLoop => true
  | _ => false

/-- Nothing blocks on a loop; the bare run is the one on the loop if that is calm, and
is blocked otherwise. -/
structure Agrees (onBare onLoop : Exec ν χ) : Prop where
  unblocked : onLoop.status.blocked = false
  same : onLoop.calm = true → onBare = onLoop
  blocked : onLoop.calm = false → onBare.status.blocked = true

theorem Agrees.refl {run : Exec ν χ} (hc : run.calm = true)
    (hu : run.status.blocked = false) : Agrees run run where
  unblocked := hu
  same _ := rfl
  blocked hnot := Bool.noConfusion (hc.symm.trans hnot)

theorem agrees_awaiting {α : Type} (script : Coroutine ε α χ)
    {next later : Outcome α χ → Exec ν χ}
    (hn : ∀ outcome, Agrees (next outcome) (later outcome)) :
    Agrees (awaiting bare script next) (awaiting loop script later) := by
  obtain ⟨hu, hsame, hblocked⟩ := hn script.drive.outcome
  refine ⟨hu, ?_, ?_⟩
  · intro hc
    obtain ⟨hs, hl⟩ := Bool.and_eq_true_iff.1 hc
    simp only [awaiting, bare, loop, Coroutine.onLoop, script.bareSend_of_calm hs,
      hsame hl]
  · intro hnot
    cases hs : script.calm with
    | true =>
      have hl : (later script.drive.outcome).calm = false := by
        simpa [awaiting, loop, Coroutine.onLoop, hs] using hnot
      simpa only [awaiting, bare, script.bareSend_of_calm hs] using hblocked hl
    | false =>
      rcases script.bareSend_of_not_calm hs with hb | hb
      · simp only [awaiting, bare, hb, Status.blocked]
      · simp only [awaiting, bare, hb, Status.blocked]

theorem agrees_followed {first second : Exec ν χ} (hf : Agrees first second)
    {next later : Status χ → Option (Exec ν χ)}
    (hstop : ∀ status, status.blocked = true → next status = none)
    (hnext : ∀ status, next status = none ∧ later status = none ∨
      ∃ run other, next status = some run ∧ later status = some other ∧ Agrees run other) :
    Agrees (first.followed next) (second.followed later) := by
  cases hc : second.calm with
  | false =>
    have hb := hf.blocked hc
    have hstays := hstop _ hb
    rcases hnext second.status with ⟨-, hn⟩ | ⟨run, other, -, hs, ha⟩
    · simp only [hstays, Exec.followed, hn]
      exact hf
    · simp only [hstays, Exec.followed, hs, hc, Bool.false_and]
      exact ⟨ha.unblocked, Bool.noConfusion, fun _ => hb⟩
  | true =>
    obtain rfl := hf.same hc
    rcases hnext first.status with ⟨hn, hnone'⟩ | ⟨run, other, hs, hsome', ha⟩
    · simp only [Exec.followed, hn, hnone']
      exact .refl hc hf.unblocked
    · simp only [Exec.followed, hs, hsome', hc, Bool.true_and]
      exact ⟨ha.unblocked, fun hyes => by rw [ha.same hyes], ha.blocked⟩

theorem agrees_andThen {first second first' second' : Exec ν χ} (hf : Agrees first first')
    (hs : Agrees second second') : Agrees (first.andThen second) (first'.andThen second') := by
  apply agrees_followed hf
  · intro status hb
    cases status <;> first | rfl | exact Bool.noConfusion hb
  · intro status
    cases status with
    | completed => exact .inr ⟨second, second', rfl, rfl, hs⟩
    | _ => exact .inl ⟨rfl, rfl⟩

private theorem agrees_leave {status : Status χ} (hs : status.blocked = false)
    (outcome : Outcome Bool χ) :
    Agrees (leave status outcome : Exec ν χ) (leave status outcome) := by
  cases outcome with
  | raised error => exact .refl rfl rfl
  | returned suppresses =>
    cases suppresses with
    | true => exact .refl rfl rfl
    | false => exact .refl rfl hs

theorem agrees_exitWith (exit : Coroutine ε Bool χ) {body body' : Exec ν χ}
    (hb : Agrees body body') : Agrees (exitWith bare exit body) (exitWith loop exit body') := by
  apply agrees_followed hb
  · intro status hblocked
    cases status <;> first | rfl | exact Bool.noConfusion hblocked
  · intro status
    cases status with
    | completed | raised error =>
      exact .inr ⟨_, _, rfl, rfl, agrees_awaiting exit (agrees_leave rfl)⟩
    | _ => exact .inl ⟨rfl, rfl⟩

theorem agrees_ofOutcome (outcome : Outcome Unit χ) :
    Agrees (ofOutcome outcome : Exec ν χ) (ofOutcome outcome) := by
  cases outcome <;> exact .refl rfl rfl

private theorem agrees_rounds (inner : Nat → Coroutine ε (Option ν) χ) {each each' : ν → Exec ν χ}
    (he : ∀ item, Agrees (each item) (each' item)) (fuel round : Nat) :
    Agrees (rounds bare inner each fuel round) (rounds loop inner each' fuel round) := by
  induction fuel generalizing round with
  | zero => exact .refl rfl rfl
  | succ fuel ih =>
    refine agrees_awaiting (inner round) fun outcome => ?_
    cases outcome with
    | raised error => exact .refl rfl rfl
    | returned item =>
      cases item with
      | none => exact .refl rfl rfl
      | some item => exact agrees_andThen (he item) (ih (round + 1))

theorem agrees_exec (fuel : Nat) (stmt : Stmt ε ν χ) (env : List ν) :
    Agrees (exec bare fuel stmt env) (exec loop fuel stmt env) := by
  induction stmt generalizing env with
  | yield value => exact .refl rfl rfl
  | effect run => exact agrees_ofOutcome (run env)
  | await awaitable => exact agrees_awaiting (awaitable env) agrees_ofOutcome
  | asyncWith enter exit body ih =>
    refine agrees_awaiting (enter env) fun outcome => ?_
    cases outcome with
    | raised error => exact .refl rfl rfl
    | returned _ => exact agrees_exitWith (exit env) (ih env)
  | asyncFor inner body ih => exact agrees_rounds (inner env) (fun item => ih (item :: env)) fuel 0
  | seq first second ihFirst ihSecond => exact agrees_andThen (ihFirst env) (ihSecond env)

/-- Every `__anext__` completes on a bare `send`, and together they give the chunks
that the generator gives on a loop. -/
def DrivenInline (fuel : Nat) (stmt : Stmt ε ν χ) (env : List ν) : Prop :=
  (exec bare fuel stmt env).status.blocked = false ∧
    (exec bare fuel stmt env).chunks = (exec loop fuel stmt env).chunks

theorem drivenInline_iff_calm (fuel : Nat) (stmt : Stmt ε ν χ) (env : List ν) :
    DrivenInline fuel stmt env ↔ (exec loop fuel stmt env).calm = true := by
  obtain ⟨hu, hs, hb⟩ := agrees_exec fuel stmt env
  unfold DrivenInline
  cases hc : (exec loop fuel stmt env).calm with
  | true => simp [hs hc, hu]
  | false => simp [hb hc]

/-- `GET_AWAITABLE` is among the opcodes of the body. -/
def hasGetAwaitable : Stmt ε ν χ → Bool
  | .yield _ | .effect _ => false
  | .await _ | .asyncWith _ _ _ => true
  | .asyncFor _ body => hasGetAwaitable body
  | .seq first second => hasGetAwaitable first || hasGetAwaitable second

/-- The code objects of the process by their `id`.  The `id` of one that is gone may be
given to another. -/
abbrev Program (ε ν χ : Type) := Nat → Stmt ε ν χ

/-- An asynchronous iterator: a generator of some code object on its arguments, or an
object without `ag_code`. -/
inductive Iterator (ν : Type) where
  | generator (code : Nat) (args : List ν)
  | custom

def Iterator.agCode : Iterator ν → Option Nat
  | .generator code _ => some code
  | .custom => none

/-- A map of verdicts by the `id` of a code object, `_NOAWAIT_STREAM_CACHE` or
`VERDICTS`.  The former does not keep the code object alive, so that an entry may be
that of another one. -/
abbrev VerdictCache := Dict Nat Bool

section Verdict

variable (program : Program ε ν χ)

def genIsNoawait (cache : VerdictCache) (iterator : Iterator ν) : Bool × VerdictCache :=
  match iterator.agCode with
  | none => (false, cache)
  | some code =>
    match cache.get? code with
    | some verdict => (verdict, cache)
    | none =>
      let verdict := !hasGetAwaitable (program code)
      (verdict, cache.set code verdict)

structure StreamResponse (ν : Type) where
  /-- `_fastapi_turbo_stream_noawait`. -/
  stamp : Option Bool
  iterator : Iterator ν

/-- The response that `_door_wrap_stream_teardown` leaves, with the stamp of the
iterator it wraps.  The code of the wrapper is one and the same for all. -/
def wrapStreamTeardown (cache : VerdictCache) (wrapperCode : Nat) (inner : Iterator ν) :
    StreamResponse ν × VerdictCache :=
  let (verdict, cache) := genIsNoawait program cache inner
  (⟨some verdict, .generator wrapperCode []⟩, cache)

def streamNoawaitVerdict (rust python : VerdictCache) (response : StreamResponse ν) :
    Bool × VerdictCache × VerdictCache :=
  match response.stamp with
  | some flag => (flag, rust, python)
  | none =>
    match response.iterator.agCode with
    | none => (false, rust, python)
    | some code =>
      match rust.get? code with
      | some verdict => (verdict, rust, python)
      | none =>
        let (verdict, python) := genIsNoawait program python response.iterator
        (verdict, rust.set code verdict, python)

def streamResponse (python : VerdictCache) (wrapperCode : Option Nat) (code : Nat)
    (args : List ν) : StreamResponse ν × VerdictCache :=
  match wrapperCode with
  | none => (⟨none, .generator code args⟩, python)
  | some wrapperCode => wrapStreamTeardown program python wrapperCode (.generator code args)

/-- What the maps hold under the `id` of the generator's code before the request.  The
stamp of a wrapped generator is made without the map of the Rust side. -/
def recordedVerdict (rust python : VerdictCache) (wrapperCode : Option Nat) (code : Nat) :
    Option Bool :=
  match wrapperCode with
  | none => (rust.get? code).or (python.get? code)
  | some _ => python.get? code

private theorem genIsNoawait_generator (cache : VerdictCache) (code : Nat) (args : List ν) :
    (genIsNoawait program cache (.generator code args)).1 =
      (cache.get? code).getD (!hasGetAwaitable (program code)) := by
  simp only [genIsNoawait, Iterator.agCode]
  split
  · rename_i verdict hget
    simp [hget]
  · rename_i hget
    simp [hget]

private theorem streamNoawaitVerdict_streamResponse (rust python : VerdictCache)
    (wrapperCode : Option Nat) (code : Nat) (args : List ν) :
    (streamNoawaitVerdict program rust python
        (streamResponse program python wrapperCode code args).1).1 =
      (recordedVerdict rust python wrapperCode code).getD (!hasGetAwaitable (program code)) := by
  cases wrapperCode with
  | some wrapperCode => exact genIsNoawait_generator program python code args
  | none =>
    simp only [streamNoawaitVerdict, streamResponse, Iterator.agCode, recordedVerdict]
    split
    · rename_i verdict hget
      simp [hget]
    · rename_i hget
      simp [hget, genIsNoawait_generator program python code args]

end Verdict

def cursorProgram : Program String Nat String :=
  fun _ => .asyncFor
    (fun _ round => if round = 0 then .needLoop (.suspend [] (.done (.returned (some 7))))
      else .done (.returned none))
    (.yield fun env => env.headD 0)

def countingProgram : Program String Nat String :=
  fun _ => .yield fun _ => 1

def sleepingProgram : Program String Nat String :=
  fun _ => .seq (.await fun _ => .needLoop (.suspend [] (.done (.returned ()))))
    (.yield fun _ => 7)

end FastapiTurbo.NoawaitVerdict
