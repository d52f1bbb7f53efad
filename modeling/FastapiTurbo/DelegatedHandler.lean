import FastapiTurbo.Lib.Effects

/-! The handler that `_delegated_route_info` puts around a real FastAPI route.  It
opens three exit stacks and unwinds them by hand, on four paths: a validation
error, any other exception, a plain return, and a return whose request-scope
teardown is left to the drain of the middleware wrapper.  The effects of a run are
the stacks in the order in which they were exited. -/
namespace FastapiTurbo.DelegatedHandler

open Lib

inductive ExitStack where
  | function
  | inner
  | file
  deriving DecidableEq, Repr

structure Response (ρ χ : Type) where
  content : ρ
  background : Option (Outcome Unit χ)

/-- A value among the keyword arguments of the wrapped endpoint, as far as the drain
looks at it. -/
inductive Kwarg (χ : Type) where
  | backgroundTasks (tasks : List (Outcome Unit χ))
  | other

structure Delegation (ρ χ : Type) where
  realHandler : Outcome (Response ρ χ) χ
  isValidationError : χ → Bool
  userHandler : Option (χ → Outcome (Response ρ χ) χ)
  defaultHandler : χ → Outcome (Response ρ χ) χ
  /-- `__aexit__` under the active exception; `true` suppresses it. -/
  aexit : ExitStack → Option χ → Outcome Bool χ
  deferEnabled : Bool
  deferOk : Bool
  kwargs : List (Kwarg χ)

variable {ρ χ : Type}

namespace Delegation

variable (route : Delegation ρ χ)

abbrev Action (χ ν : Type) : Type :=
  Eff ExitStack χ ν

def exit (stack : ExitStack) (active : Option χ) : Action χ Bool := do
  Eff.perform stack
  Eff.ofOutcome (route.aexit stack active)

def unwindClean : Action χ Unit := do
  let _ ← route.exit .function none
  let _ ← route.exit .inner none
  let _ ← route.exit .file none

def unwindError : List ExitStack → Option χ → Action χ (Option χ)
  | [], active => pure active
  | stack :: rest, active => do
      let next ← Eff.catching
        (do
          let suppressed ← route.exit stack active
          pure (if suppressed then none else active))
        fun error => pure (some error)
      unwindError rest next

def runBackground (response : Response ρ χ) : Action χ Unit :=
  match response.background with
  | none => pure ()
  | some task => Eff.ofOutcome task

def validationHandler : χ → Outcome (Response ρ χ) χ :=
  route.userHandler.getD route.defaultHandler

def finalize (response : Response ρ χ) : Action χ Unit := do
  runBackground response
  let _ ← route.exit .inner none
  let _ ← route.exit .file none

def defers : Bool :=
  route.deferEnabled && route.deferOk

/-- The answer of the handler, `none` if a stack suppressed the exception, and the
teardowns it appended to `request._pending_teardowns`. -/
def handler : Action χ (Option (Response ρ χ) × List (Action χ Unit)) :=
  match route.realHandler with
  | .raised error =>
    if route.isValidationError error then do
      let result ← Eff.ofOutcome (route.validationHandler error)
      route.unwindClean
      pure (some result, [])
    else do
      let active ← route.unwindError [.function, .inner, .file] (some error)
      match active with
      | some error => Eff.ofOutcome (.raised error)
      | none => pure (none, [])
  | .returned response => do
      let _ ← route.exit .function none
      if route.defers then
        pure (some { response with background := none }, [route.finalize response])
      else do
        route.finalize response
        pure (some { response with background := none }, [])

def firstTasks : List (Kwarg χ) → List (Outcome Unit χ)
  | [] => []
  | .backgroundTasks tasks :: _ => tasks
  | .other :: rest => firstTasks rest

def runSync : List (Outcome Unit χ) → Action χ Unit
  | [] => pure ()
  | task :: rest => do
      Eff.ofOutcome task
      runSync rest

/-- The entries are resumed on the worker loop with no exception to throw, and what
they raise is swallowed. -/
def runPendingTeardowns : List (Action χ Unit) → Action χ Unit
  | [] => pure ()
  | teardown :: rest => do
      Eff.catching teardown fun _ => pure ()
      runPendingTeardowns rest

def drain (pending : List (Action χ Unit)) : Action χ Unit :=
  if pending.isEmpty then
    pure ()
  else do
    runSync (firstTasks route.kwargs)
    runPendingTeardowns pending

/-- One request through the wrapper.  A handler that raises has appended nothing, so
that the `finally` has nothing to drain. -/
def wrappedSync : Action χ (Option (Response ρ χ)) := do
  let (answer, pending) ← route.handler
  route.drain pending
  pure answer

end Delegation

def Returns {ν : Type} : Outcome ν χ → Prop
  | .returned _ => True
  | .raised _ => False

namespace Delegation

variable (route : Delegation ρ χ)

@[simp] theorem effects_exit (stack : ExitStack) (active : Option χ) :
    (route.exit stack active).effects = [stack] :=
  rfl

@[simp] theorem effects_exit_bind {ν : Type} (stack : ExitStack) (active : Option χ)
    (next : Bool → Action χ ν) :
    (route.exit stack active >>= next).effects =
      stack :: (Eff.ofOutcome (route.aexit stack active) >>= next).effects := by
  unfold exit
  rw [bind_assoc, Eff.effects_perform_bind]

theorem effects_unwindError (exits : List ExitStack) (active : Option χ) :
    (route.unwindError exits active).effects = exits := by
  induction exits generalizing active with
  | nil => rfl
  | cons stack rest ih =>
    unfold unwindError
    obtain ⟨next, hn⟩ := Eff.outcome_catching_returned
      (do
        let suppressed ← route.exit stack active
        pure (if suppressed then none else active)) some
    rw [Eff.effects_bind_of_returned hn, Eff.effects_catching, ih,
      Eff.effects_bind_of_silent _ fun _ => rfl]
    rfl

theorem effects_inner_file_iff :
    (do
      let _ ← route.exit .inner none
      let _ ← route.exit .file none
      pure () : Action χ Unit).effects = [.inner, .file] ↔
      Returns (route.aexit .inner none) := by
  cases hinner : route.aexit .inner none with
  | raised error => simp [hinner, Returns]
  | returned _ =>
    rw [effects_exit_bind, hinner, Eff.bind_ofOutcome_returned,
      Eff.effects_bind_of_silent _ fun _ => rfl]
    simp [Returns]

theorem effects_unwindClean_iff :
    route.unwindClean.effects = [.function, .inner, .file] ↔
      Returns (route.aexit .function none) ∧ Returns (route.aexit .inner none) := by
  unfold unwindClean
  cases hf : route.aexit .function none with
  | raised error => simp [hf, Returns]
  | returned _ => simpa [hf, Returns] using route.effects_inner_file_iff

theorem effects_finalize_iff (response : Response ρ χ) :
    (route.finalize response).effects = [.inner, .file] ↔
      (∀ task ∈ response.background, Returns task) ∧ Returns (route.aexit .inner none) := by
  unfold finalize runBackground
  cases response.background with
  | none => simpa using route.effects_inner_file_iff
  | some task =>
    cases task with
    | raised error => simp [Returns]
    | returned _ => simpa [Returns] using route.effects_inner_file_iff

theorem runSync_of_returns {tasks : List (Outcome Unit χ)} (ht : ∀ task ∈ tasks, Returns task) :
    runSync tasks = pure () := by
  induction tasks with
  | nil => rfl
  | cons task rest ih =>
    obtain ⟨htask, hr⟩ := List.forall_mem_cons.1 ht
    cases task with
    | raised error => exact htask.elim
    | returned _ => exact ih hr

theorem runSync_of_not_returns {tasks : List (Outcome Unit χ)}
    (ht : ¬∀ task ∈ tasks, Returns task) :
    ∃ error, runSync tasks = Eff.ofOutcome (.raised error) := by
  induction tasks with
  | nil => exact absurd (by simp) ht
  | cons task rest ih =>
    cases task with
    | raised error => exact ⟨error, rfl⟩
    | returned _ => exact ih fun hr => ht (List.forall_mem_cons.2 ⟨trivial, hr⟩)

private theorem effects_runPendingTeardowns (pending : List (Action χ Unit)) :
    (runPendingTeardowns pending).effects = pending.flatMap Eff.effects := by
  induction pending with
  | nil => rfl
  | cons teardown rest ih =>
    obtain ⟨_, hc⟩ := Eff.outcome_catching_returned teardown fun _ => ()
    unfold runPendingTeardowns
    rw [Eff.effects_bind_of_returned hc, Eff.effects_catching, ih, List.flatMap_cons]

theorem effects_drain_iff (response : Response ρ χ) :
    (route.drain [route.finalize response]).effects = [.inner, .file] ↔
      (∀ task ∈ firstTasks route.kwargs, Returns task) ∧
        (∀ task ∈ response.background, Returns task) ∧ Returns (route.aexit .inner none) := by
  rw [← effects_finalize_iff]
  change (runSync (firstTasks route.kwargs) >>= fun _ =>
    runPendingTeardowns [route.finalize response]).effects = _ ↔ _
  by_cases ht : ∀ task ∈ firstTasks route.kwargs, Returns task
  · rw [runSync_of_returns ht, pure_bind, effects_runPendingTeardowns, List.flatMap_singleton]
    exact (and_iff_right ht).symm
  · obtain ⟨error, he⟩ := runSync_of_not_returns ht
    rw [he]
    simp [ht]

/-- Nothing that runs before the file stack on the path of this request raises. -/
def UnwindsAll : Prop :=
  match route.realHandler with
  | .raised error =>
    route.isValidationError error = true →
      Returns (route.validationHandler error) ∧
        Returns (route.aexit .function none) ∧ Returns (route.aexit .inner none)
  | .returned response =>
    Returns (route.aexit .function none) ∧
      (route.defers = true → ∀ task ∈ firstTasks route.kwargs, Returns task) ∧
      (∀ task ∈ response.background, Returns task) ∧ Returns (route.aexit .inner none)

theorem effects_wrappedSync_of_validationError {error : χ}
    (hr : route.realHandler = .raised error) (hk : route.isValidationError error = true) :
    route.wrappedSync.effects = [.function, .inner, .file] ↔
      Returns (route.validationHandler error) ∧
        Returns (route.aexit .function none) ∧ Returns (route.aexit .inner none) := by
  unfold wrappedSync handler
  rw [hr]
  simp only [hk, if_true, bind_assoc]
  cases route.validationHandler error with
  | raised other => simp [Returns]
  | returned result =>
    rw [Eff.bind_ofOutcome_returned, Eff.effects_bind_of_silent _ fun _ => rfl]
    simpa [Returns] using route.effects_unwindClean_iff

theorem effects_wrappedSync_of_error {error : χ} (hr : route.realHandler = .raised error)
    (hk : route.isValidationError error = false) :
    route.wrappedSync.effects = [.function, .inner, .file] := by
  unfold wrappedSync handler
  rw [hr]
  simp only [hk, Bool.false_eq_true, if_false, bind_assoc]
  rw [Eff.effects_bind_of_silent, effects_unwindError]
  intro active
  cases active with
  | none => rfl
  | some other => rfl

private theorem effects_wrappedSync_of_returned {response : Response ρ χ}
    (hr : route.realHandler = .returned response) :
    route.wrappedSync.effects = [.function, .inner, .file] ↔
      Returns (route.aexit .function none) ∧
        (route.defers = true → ∀ task ∈ firstTasks route.kwargs, Returns task) ∧
        (∀ task ∈ response.background, Returns task) ∧ Returns (route.aexit .inner none) := by
  unfold wrappedSync handler
  rw [hr]
  cases hf : route.aexit .function none with
  | raised error => simp [hf, Returns]
  | returned _ =>
    cases hdefers : route.defers with
    | true =>
      have hd := route.effects_drain_iff response
      simp only [if_true, bind_assoc, pure_bind, effects_exit_bind, hf,
        Eff.bind_ofOutcome_returned, List.cons.injEq]
      rw [Eff.effects_bind_of_silent _ fun _ => rfl, hd]
      simp [Returns]
    | false =>
      have hfinalize := route.effects_finalize_iff response
      simp only [Bool.false_eq_true, if_false, bind_assoc, effects_exit_bind, hf,
        Eff.bind_ofOutcome_returned, List.cons.injEq]
      rw [Eff.effects_bind_of_silent _ fun _ => rfl, hfinalize]
      simp [Returns]

/-- The three stacks are exited once each, function before inner before file,
exactly if nothing before the file stack raises on the path that the request takes.
On the error arm nothing is asked. -/
theorem wrappedSync_exits_all_iff :
    route.wrappedSync.effects = [.function, .inner, .file] ↔ route.UnwindsAll := by
  unfold UnwindsAll
  cases hr : route.realHandler with
  | returned response => exact route.effects_wrappedSync_of_returned hr
  | raised error =>
    cases hk : route.isValidationError error with
    | true => simpa [hk] using route.effects_wrappedSync_of_validationError hr hk
    | false => simpa [hk] using route.effects_wrappedSync_of_error hr hk

end Delegation

def reraisingRoute : Delegation String String where
  realHandler := .raised "RequestValidationError"
  isValidationError error := error == "RequestValidationError"
  userHandler := some fun _ => .raised "HTTPException"
  defaultHandler := fun _ => .returned ⟨"422", none⟩
  aexit := fun _ _ => .returned false
  deferEnabled := false
  deferOk := false
  kwargs := []

theorem reraising_handler_leaves_stacks_open :
    reraisingRoute.wrappedSync.effects = [] ∧
      { reraisingRoute with userHandler := none }.wrappedSync.effects =
        [.function, .inner, .file] := by
  exact ⟨rfl, rfl⟩

end FastapiTurbo.DelegatedHandler
