import FastapiTurbo.Py

/-! The Rust side's two drivers of a Python coroutine function
(`handler_bridge.rs`): one `send` on the request thread, then, unless that ended
the coroutine, a fresh coroutine object on the async worker's loop. -/
namespace FastapiTurbo.HandlerBridge

open Lib Py

variable {ε ν κ : Type}

/-- A coroutine function.  Calling it builds a coroutine object and runs nothing
of the body, but the call itself can raise (a `TypeError` on the arguments). -/
abbrev CoroutineFunction (κ ε ν : Type) :=
  κ → Outcome (Coroutine ε ν PyErr) PyErr

def asyncClassUnknown : UInt8 := 0
def asyncClassSyncFast : UInt8 := 1
def asyncClassNeedsWorker : UInt8 := 2

structure Classified (ε ν : Type) where
  run : Run ε ν PyErr
  slot : UInt8
  deriving DecidableEq

/-- `submit_to_async_worker_fast`: the worker's loop runs the coroutine to its
end.  Scripts take no time, so the wait's timeout never expires. -/
def submitToAsyncWorkerFast (coro : Coroutine ε ν PyErr) : Run ε ν PyErr :=
  coro.drive

def resubmit (handler : CoroutineFunction κ ε ν) (kwargs : κ) (attempt : List ε) :
    Run ε ν PyErr :=
  match handler kwargs with
  | .raised error => ⟨attempt, .raised error⟩
  | .returned coro => (submitToAsyncWorkerFast coro).after attempt

def callAsyncOnLocalLoopClassified (handler : CoroutineFunction κ ε ν) (kwargs : κ)
    (slot : UInt8) : Classified ε ν :=
  match handler kwargs with
  | .raised error => ⟨⟨[], .raised error⟩, slot⟩
  | .returned coro =>
    if slot = asyncClassSyncFast then
      let probe := coro.probe noRunningLoop
      match probe.stop with
      | .finished (.returned value) => ⟨⟨probe.effects, .returned value⟩, slot⟩
      | _ => ⟨resubmit handler kwargs probe.abandoned, asyncClassNeedsWorker⟩
    else if slot = asyncClassNeedsWorker then
      ⟨submitToAsyncWorkerFast coro, slot⟩
    else
      let probe := coro.probe noRunningLoop
      match probe.stop with
      | .finished (.returned value) =>
        ⟨⟨probe.effects, .returned value⟩, asyncClassSyncFast⟩
      | .finished (.raised error) =>
        if error.isInstance "RuntimeError" then
          ⟨resubmit handler kwargs probe.abandoned, asyncClassNeedsWorker⟩
        else
          ⟨⟨probe.effects, .raised error⟩, slot⟩
      | .suspended _ =>
        ⟨resubmit handler kwargs probe.abandoned, asyncClassNeedsWorker⟩

/-- One `send` on the calling thread.  A body that returns is done; one that
suspends, or raises what `again` takes for a missing loop, is closed and run
afresh on the worker. -/
def probeThenWorker (again : PyErr → Bool) (handler : CoroutineFunction κ ε ν)
    (kwargs : κ) : Run ε ν PyErr :=
  match handler kwargs with
  | .raised error => ⟨[], .raised error⟩
  | .returned coro =>
    let probe := coro.probe noRunningLoop
    match probe.stop with
    | .finished (.returned value) => ⟨probe.effects, .returned value⟩
    | .finished (.raised error) =>
      if again error then resubmit handler kwargs probe.abandoned
      else ⟨probe.effects, .raised error⟩
    | .suspended _ => resubmit handler kwargs probe.abandoned

def isRuntimeError (error : PyErr) : Bool :=
  error.isInstance "RuntimeError"

/-- `drive_coroutine_on_local_loop_with_app`; `makeCoro` is its closure. -/
def driveCoroutineOnLocalLoopWithApp (makeCoro : CoroutineFunction Unit ε ν) :
    Run ε ν PyErr :=
  probeThenWorker isRuntimeError makeCoro ()

/-- The intended meaning: one coroutine object, driven to completion on an event
loop. -/
def singleRun (handler : CoroutineFunction κ ε ν) (kwargs : κ) : Run ε ν PyErr :=
  match handler kwargs with
  | .raised error => ⟨[], .raised error⟩
  | .returned coro => coro.drive

/-- The first `send` is the whole run: the body returns, or raises an error that
is not taken for a missing loop. -/
def EndsOnProbe (again : PyErr → Bool) (coro : Coroutine ε ν PyErr) : Prop :=
  match (coro.probe noRunningLoop).stop with
  | .finished (.returned _) => True
  | .finished (.raised error) => again error = false
  | .suspended _ => False

def SilentProbe (coro : Coroutine ε ν PyErr) : Prop :=
  (coro.probe noRunningLoop).abandoned = []

theorem drive_of_endsOnProbe {again : PyErr → Bool} (ha : again noRunningLoop = true)
    (coro : Coroutine ε ν PyErr) {outcome : Outcome ν PyErr}
    (hs : (coro.probe noRunningLoop).stop = .finished outcome)
    (hend : EndsOnProbe again coro) :
    coro.drive = ⟨(coro.probe noRunningLoop).effects, outcome⟩ := by
  refine coro.drive_of_finished noRunningLoop outcome hs ?_
  rintro rfl
  simp [EndsOnProbe, hs, ha] at hend

theorem singleRun_of_returned {handler : CoroutineFunction κ ε ν} {kwargs : κ}
    {coro : Coroutine ε ν PyErr} (hc : handler kwargs = .returned coro) :
    singleRun handler kwargs = coro.drive := by
  simp [singleRun, hc]

theorem resubmit_eq_singleRun (handler : CoroutineFunction κ ε ν) (kwargs : κ)
    {coro : Coroutine ε ν PyErr} (hc : handler kwargs = .returned coro)
    (attempt : List ε) :
    resubmit handler kwargs attempt = singleRun handler kwargs ↔ attempt = [] := by
  rw [singleRun_of_returned hc]
  simpa [resubmit, hc, submitToAsyncWorkerFast] using
    Run.after_eq_self attempt coro.drive

/-- When probing first is one run of the body: nothing was built, the probe is
the whole run, or the probe leaves no trace. -/
def ProbedOnce (again : PyErr → Bool) (call : Outcome (Coroutine ε ν PyErr) PyErr) : Prop :=
  match call with
  | .raised _ => True
  | .returned coro => EndsOnProbe again coro ∨ SilentProbe coro

theorem probeThenWorker_eq_singleRun {again : PyErr → Bool}
    (ha : again noRunningLoop = true) (handler : CoroutineFunction κ ε ν) (kwargs : κ) :
    probeThenWorker again handler kwargs = singleRun handler kwargs ↔
      ProbedOnce again (handler kwargs) := by
  cases hc : handler kwargs with
  | raised error => simp [probeThenWorker, singleRun, hc, ProbedOnce]
  | returned coro =>
    have hr := resubmit_eq_singleRun handler kwargs hc
    cases hs : (coro.probe noRunningLoop).stop with
    | suspended cleanup =>
      simp [probeThenWorker, hc, hs, ProbedOnce, EndsOnProbe, SilentProbe, hr]
    | finished outcome =>
      cases outcome with
      | returned value =>
        have hend : EndsOnProbe again coro := by simp [EndsOnProbe, hs]
        simp [probeThenWorker, hc, hs, ProbedOnce, hend,
          singleRun_of_returned hc, drive_of_endsOnProbe ha coro hs hend]
      | raised error =>
        cases hclass : again error with
        | true =>
          simp [probeThenWorker, hc, hs, hclass, ProbedOnce, EndsOnProbe, SilentProbe,
            hr]
        | false =>
          have hend : EndsOnProbe again coro := by simp [EndsOnProbe, hs, hclass]
          simp [probeThenWorker, hc, hs, hclass, ProbedOnce, hend,
            singleRun_of_returned hc, drive_of_endsOnProbe ha coro hs hend]

/-- What an arm of the classified call takes for a missing loop: a body known to
be fast is repeated whatever it raises. -/
def repeatedErrors (slot : UInt8) (error : PyErr) : Bool :=
  slot == asyncClassSyncFast || isRuntimeError error

theorem classified_run_of_probed (handler : CoroutineFunction κ ε ν) (kwargs : κ)
    {slot : UInt8} (hw : slot ≠ asyncClassNeedsWorker) :
    (callAsyncOnLocalLoopClassified handler kwargs slot).run =
      probeThenWorker (repeatedErrors slot) handler kwargs := by
  unfold callAsyncOnLocalLoopClassified probeThenWorker
  cases handler kwargs with
  | raised error => rfl
  | returned coro =>
    by_cases hf : slot = asyncClassSyncFast
    · simp only [hf, if_true, repeatedErrors]
      rcases (coro.probe noRunningLoop).stop with ⟨_ | _⟩ | _ <;> simp
    · simp only [hf, hw, if_false, repeatedErrors, Bool.false_or,
        isRuntimeError, beq_eq_false_iff_ne.2 hf]
      rcases (coro.probe noRunningLoop).stop with ⟨_ | error⟩ | _
      · rfl
      · cases hc : error.isInstance "RuntimeError" <;> simp [hc]
      · rfl

theorem repeatedErrors_noRunningLoop (slot : UInt8) :
    repeatedErrors slot noRunningLoop = true := by
  simp [repeatedErrors, isRuntimeError]

/-- When a call through the slot is one run of the body: no probe is made, or
the probe is not repeated or leaves no trace. -/
def RunsOnce (call : Outcome (Coroutine ε ν PyErr) PyErr) (slot : UInt8) : Prop :=
  slot = asyncClassNeedsWorker ∨ ProbedOnce (repeatedErrors slot) call

theorem classified_run_of_needsWorker (handler : CoroutineFunction κ ε ν) (kwargs : κ) :
    callAsyncOnLocalLoopClassified handler kwargs asyncClassNeedsWorker =
      ⟨singleRun handler kwargs, asyncClassNeedsWorker⟩ := by
  unfold callAsyncOnLocalLoopClassified singleRun
  cases handler kwargs <;>
    simp [asyncClassSyncFast, asyncClassNeedsWorker, submitToAsyncWorkerFast]

theorem classified_eq_singleRun_iff (handler : CoroutineFunction κ ε ν) (kwargs : κ)
    (slot : UInt8) :
    (callAsyncOnLocalLoopClassified handler kwargs slot).run = singleRun handler kwargs ↔
      RunsOnce (handler kwargs) slot := by
  by_cases hw : slot = asyncClassNeedsWorker
  · simp [hw, classified_run_of_needsWorker, RunsOnce]
  · rw [classified_run_of_probed handler kwargs hw,
      probeThenWorker_eq_singleRun (repeatedErrors_noRunningLoop slot)]
    simp [RunsOnce, hw]

/-- Both drivers perform a body exactly once precisely when the probe is not
repeated or leaves no trace. -/
theorem async_drivers_run_body_once_iff (handler : CoroutineFunction κ ε ν) (kwargs : κ)
    (slot : UInt8) (makeCoro : CoroutineFunction Unit ε ν) :
    ((callAsyncOnLocalLoopClassified handler kwargs slot).run = singleRun handler kwargs ↔
        RunsOnce (handler kwargs) slot) ∧
      (driveCoroutineOnLocalLoopWithApp makeCoro = singleRun makeCoro () ↔
        ProbedOnce isRuntimeError (makeCoro ())) :=
  ⟨classified_eq_singleRun_iff handler kwargs slot,
    probeThenWorker_eq_singleRun noRunningLoop_isRuntimeError makeCoro ()⟩

def callSequence (handler : CoroutineFunction κ ε ν) : UInt8 → List κ → List (κ × Run ε ν PyErr)
  | _, [] => []
  | slot, kwargs :: rest =>
    let call := callAsyncOnLocalLoopClassified handler kwargs slot
    (kwargs, call.run) :: callSequence handler call.slot rest

section

variable (hd : CoroutineFunction κ ε ν)

theorem classified_slot_of_repeated (kwargs : κ) (slot : UInt8)
    (hr : (callAsyncOnLocalLoopClassified hd kwargs slot).run ≠
      singleRun hd kwargs) :
    (callAsyncOnLocalLoopClassified hd kwargs slot).slot = asyncClassNeedsWorker := by
  rw [ne_eq, classified_eq_singleRun_iff, RunsOnce, not_or] at hr
  obtain ⟨hw, hp⟩ := hr
  cases hc : hd kwargs with
  | raised error => simp [hc, ProbedOnce] at hp
  | returned coro =>
    have he : ¬EndsOnProbe (repeatedErrors slot) coro := fun hend =>
      hp (by rw [hc]; exact .inl hend)
    unfold callAsyncOnLocalLoopClassified
    cases hs : (coro.probe noRunningLoop).stop with
    | suspended cleanup =>
      by_cases hf : slot = asyncClassSyncFast <;> simp [hc, hs, hf, hw]
    | finished outcome =>
      cases outcome with
      | returned value => simp [EndsOnProbe, hs] at he
      | raised error =>
        by_cases hf : slot = asyncClassSyncFast
        · simp [hc, hs, hf]
        · have hclass : error.isInstance "RuntimeError" = true := by
            simpa [EndsOnProbe, hs, repeatedErrors, hf, isRuntimeError] using he
          simp [hc, hs, hf, hw, hclass]

private theorem callSequence_of_needsWorker (calls : List κ) :
    ∀ call ∈ callSequence hd asyncClassNeedsWorker calls,
      call.2 = singleRun hd call.1 := by
  induction calls with
  | nil => simp [callSequence]
  | cons kwargs rest ih =>
    intro call hmem
    simp only [callSequence, classified_run_of_needsWorker, List.mem_cons] at hmem
    rcases hmem with rfl | hmem
    · rfl
    · exact ih call hmem

/-- Of calls through one slot, each made after the other, at most one is not a single run of the
body: what repeats a probe sends the later calls to the worker. -/
theorem callSequence_at_most_one_repeated (slot : UInt8) (calls : List κ) :
    (callSequence hd slot calls).Pairwise fun earlier later =>
      earlier.2 = singleRun hd earlier.1 ∨ later.2 = singleRun hd later.1 := by
  induction calls generalizing slot with
  | nil => simp [callSequence]
  | cons kwargs rest ih =>
    refine List.pairwise_cons.2 ⟨fun la hmem => ?_, ih _⟩
    by_cases hr : (callAsyncOnLocalLoopClassified hd kwargs slot).run =
        singleRun hd kwargs
    · exact .inl hr
    · rw [classified_slot_of_repeated hd kwargs slot hr] at hmem
      exact .inr (callSequence_of_needsWorker hd rest la hmem)

end

def effectThenSuspend : CoroutineFunction Unit Nat Nat :=
  fun _ => .returned (.emit 7 (.suspend [] (.done (.returned 0))))

/-- The first call performs the effect on the request thread and again on the
worker; so does the slotless driver. -/
theorem effectThenSuspend_runs_twice :
    (callAsyncOnLocalLoopClassified effectThenSuspend () asyncClassUnknown).run =
        ⟨[7, 7], .returned 0⟩ ∧
      driveCoroutineOnLocalLoopWithApp effectThenSuspend = ⟨[7, 7], .returned 0⟩ ∧
      singleRun effectThenSuspend () = ⟨[7], .returned 0⟩ := by
  decide

end FastapiTurbo.HandlerBridge
