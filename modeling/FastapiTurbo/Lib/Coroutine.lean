/-! Coroutines as finite scripts.  A coroutine object is advanced by its driver:
a single `send` runs it to its first suspension or to its end, an event loop
runs it to its end.  The two agree on everything the single step has seen. -/
namespace FastapiTurbo.Lib

inductive Outcome (ν χ : Type) where
  | returned (value : ν)
  | raised (error : χ)
  deriving DecidableEq

def Outcome.map {ν μ χ : Type} (f : ν → μ) : Outcome ν χ → Outcome μ χ
  | .returned value => .returned (f value)
  | .raised error => .raised error

def Outcome.bind {ν μ χ : Type} (outcome : Outcome ν χ) (next : ν → Outcome μ χ) : Outcome μ χ :=
  match outcome with
  | .returned value => next value
  | .raised error => .raised error

/-- What a driver observes of a computation: its effects in order and its
outcome. -/
structure Run (ε ν χ : Type) where
  effects : List ε
  outcome : Outcome ν χ
  deriving DecidableEq

def Run.after {ε ν χ : Type} (attempt : List ε) (run : Run ε ν χ) : Run ε ν χ :=
  ⟨attempt ++ run.effects, run.outcome⟩

theorem Run.after_eq_self {ε ν χ : Type} (attempt : List ε) (run : Run ε ν χ) :
    run.after attempt = run ↔ attempt = [] := by
  constructor
  · intro h
    have he := congrArg Run.effects h
    simpa [Run.after] using he
  · rintro rfl
    simp [Run.after]

/-- The body of a coroutine.  A suspension carries the effects of the `finally`
blocks that run if the coroutine is closed there.  `needLoop` is a call that
raises where no event loop is running in the calling thread, and is silent on a
loop. -/
inductive Coroutine (ε ν χ : Type) where
  | done (outcome : Outcome ν χ)
  | emit (effect : ε) (rest : Coroutine ε ν χ)
  | suspend (cleanup : List ε) (rest : Coroutine ε ν χ)
  | needLoop (rest : Coroutine ε ν χ)

inductive Stop (ε ν χ : Type) where
  | finished (outcome : Outcome ν χ)
  | suspended (cleanup : List ε)
  deriving DecidableEq

structure Probe (ε ν χ : Type) where
  effects : List ε
  stop : Stop ε ν χ
  deriving DecidableEq

/-- What has happened once the probed coroutine is closed.  Closing a finished
coroutine does nothing. -/
def Probe.abandoned {ε ν χ : Type} (probe : Probe ε ν χ) : List ε :=
  match probe.stop with
  | .finished _ => probe.effects
  | .suspended cleanup => probe.effects ++ cleanup

namespace Coroutine

variable {ε ν χ : Type}

/-- One `send` on a thread without a running loop: `noLoop` is the error that a
loop-needing call raises there. -/
def probe (noLoop : χ) : Coroutine ε ν χ → Probe ε ν χ
  | .done outcome => ⟨[], .finished outcome⟩
  | .emit effect rest =>
    let inner := rest.probe noLoop
    ⟨effect :: inner.effects, inner.stop⟩
  | .suspend cleanup _ => ⟨[], .suspended cleanup⟩
  | .needLoop _ => ⟨[], .finished (.raised noLoop)⟩

def drive : Coroutine ε ν χ → Run ε ν χ
  | .done outcome => ⟨[], outcome⟩
  | .emit effect rest => rest.drive.after [effect]
  | .suspend _ rest => rest.drive
  | .needLoop rest => rest.drive

theorem drive_of_finished (noLoop : χ) (script : Coroutine ε ν χ) (outcome : Outcome ν χ)
    (hs : (script.probe noLoop).stop = .finished outcome)
    (hl : outcome ≠ .raised noLoop) :
    script.drive = ⟨(script.probe noLoop).effects, outcome⟩ := by
  induction script with
  | done result =>
    simp only [probe, Stop.finished.injEq] at hs
    simp [drive, probe, hs]
  | emit effect rest ih =>
    have hr := ih hs
    simp [drive, probe, Run.after, hr]
  | suspend cleanup rest _ => simp [probe] at hs
  | needLoop rest _ =>
    simp only [probe, Stop.finished.injEq] at hs
    exact absurd hs.symm hl

def follow {μ : Type} (script : Coroutine ε ν χ) (next : Outcome ν χ → Coroutine ε μ χ) :
    Coroutine ε μ χ :=
  match script with
  | .done outcome => next outcome
  | .emit effect rest => .emit effect (rest.follow next)
  | .suspend cleanup rest => .suspend cleanup (rest.follow next)
  | .needLoop rest => .needLoop (rest.follow next)

def suspends : Coroutine ε ν χ → Bool
  | .done _ => false
  | .emit _ rest => rest.suspends
  | .suspend _ _ => true
  | .needLoop rest => rest.suspends

section

variable {μ : Type} (script : Coroutine ε ν χ) (next : Outcome ν χ → Coroutine ε μ χ)

theorem drive_follow_outcome :
    (script.follow next).drive.outcome = (next script.drive.outcome).drive.outcome := by
  induction script with
  | done outcome => rfl
  | emit effect rest ih => simpa [follow, drive, Run.after] using ih
  | suspend cleanup rest ih | needLoop rest ih => simpa [follow, drive] using ih

theorem suspends_follow :
    (script.follow next).suspends =
      (script.suspends || (next script.drive.outcome).suspends) := by
  induction script with
  | done outcome => rfl
  | emit effect rest ih => simpa [follow, drive, suspends, Run.after] using ih
  | suspend cleanup rest ih => simp [follow, suspends]
  | needLoop rest ih => simpa [follow, drive, suspends] using ih

theorem drive_follow_effects :
    (script.follow next).drive.effects =
      script.drive.effects ++ (next script.drive.outcome).drive.effects := by
  induction script with
  | done outcome => rfl
  | emit effect rest ih => simpa [follow, drive, Run.after] using ih
  | suspend cleanup rest ih => simpa [follow, drive] using ih
  | needLoop rest ih => simpa [follow, drive] using ih

end

/-- A step that stops inside `script` does not see what follows it. -/
theorem probe_follow_of_suspended {μ : Type} {noLoop : χ} {cleanup : List ε}
    (script : Coroutine ε ν χ) (next : Outcome ν χ → Coroutine ε μ χ)
    (hs : (script.probe noLoop).stop = .suspended cleanup) :
    ((script.follow next).probe noLoop).stop = .suspended cleanup := by
  induction script with
  | done outcome | needLoop rest _ => simp [probe] at hs
  | emit effect rest ih => exact ih hs
  | suspend cleanup rest _ => simpa [follow, probe] using hs

def pause : Nat → Coroutine ε ν χ → Coroutine ε ν χ
  | 0, rest => rest
  | count + 1, rest => .suspend [] (pause count rest)

@[simp] theorem drive_pause (count : Nat) (rest : Coroutine ε ν χ) :
    (pause count rest).drive = rest.drive := by
  induction count with
  | zero => rfl
  | succ count ih => simpa [pause, drive] using ih

/-- A bare `send` runs to the end: nothing before it suspends or needs a loop. -/
def calm : Coroutine ε ν χ → Bool
  | .done _ => true
  | .emit _ rest => rest.calm
  | .suspend _ _ => false
  | .needLoop _ => false

end Coroutine

inductive Awaited (ν χ : Type) where
  | finished (outcome : Outcome ν χ)
  | suspended
  | needsLoop

namespace Coroutine

variable {ε ν χ : Type}

def onLoop (script : Coroutine ε ν χ) : Awaited ν χ :=
  .finished script.drive.outcome

/-- One `send` where no loop is running, with the two ways to fall short told apart. -/
def bareSend : Coroutine ε ν χ → Awaited ν χ
  | .done outcome => .finished outcome
  | .emit _ rest => rest.bareSend
  | .suspend _ _ => .suspended
  | .needLoop _ => .needsLoop

theorem bareSend_of_calm (script : Coroutine ε ν χ) (hc : script.calm = true) :
    script.bareSend = .finished script.drive.outcome := by
  induction script with
  | done outcome => rfl
  | emit effect rest ih => exact ih hc
  | suspend cleanup rest _ | needLoop rest _ => exact Bool.noConfusion hc

theorem bareSend_of_not_calm (script : Coroutine ε ν χ) (hc : script.calm = false) :
    script.bareSend = .suspended ∨ script.bareSend = .needsLoop := by
  induction script with
  | done outcome => exact Bool.noConfusion hc
  | emit effect rest ih => exact ih hc
  | suspend cleanup rest _ => exact .inl rfl
  | needLoop rest _ => exact .inr rfl

end Coroutine

end FastapiTurbo.Lib
