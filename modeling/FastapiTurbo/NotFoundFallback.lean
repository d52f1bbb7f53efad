import FastapiTurbo.Lib.Effects
import FastapiTurbo.Py

/-! A request that no route matches: `dispatch_404` (`router.rs`) calls
`_rust_404_handler` (`applications.py`), which tries a registered exception handler and
then the `@app.middleware("http")` functions around a synthetic response. -/
namespace FastapiTurbo.NotFoundFallback

open Lib Py

/-- The arguments of `_rust_404_handler`. -/
structure NotFoundRequest where
  method : String
  path : String
  query : String
  headers : List (String × String)

/-- What a middleware does with a request: it raises, it answers without `call_next`, or
it awaits `call_next` once and makes something of what comes back.  A middleware may
return `None`. -/
inductive Behaviour (ρ : Type) where
  | raises (error : PyErr)
  | answers (response : Option ρ)
  | forwards (after : Outcome (Option ρ) PyErr → Outcome (Option ρ) PyErr)

/-- An async middleware, which need not behave alike each time it is executed. -/
structure Middleware (ρ : Type) where
  isAsgiShim : Bool
  behaviour : Nat → NotFoundRequest → Behaviour ρ

abbrev Handler (ρ : Type) := Nat → NotFoundRequest → Outcome (Option ρ) PyErr

structure App (ρ : Type) where
  httpMiddlewares : List (Middleware ρ)
  handler404 : Option (Handler ρ)
  httpExceptionHandler : Option (Handler ρ)
  /-- The shims of raw ASGI middlewares are run by the in-process door. -/
  useDoorEps : Bool

structure Rendered where
  status : Int
  body : String
  headers : List (String × String)

/-- The response objects: the synthetic one, and `_extract_response`. -/
structure Responses (ρ : Type) where
  synthetic404 : ρ
  extractResponse : Option ρ → Outcome Rendered PyErr

inductive Event where
  | middleware (index : Nat)
  | handler
  deriving DecidableEq

section Dispatch

variable {ρ : Type} (responses : Responses ρ) (app : App ρ)

def App.notFoundHandler : Option (Handler ρ) :=
  app.handler404.or app.httpExceptionHandler

def App.chain : List (Middleware ρ × Nat) :=
  (if app.useDoorEps then
      app.httpMiddlewares.zipIdx.filter fun middleware => !middleware.1.isAsgiShim
    else app.httpMiddlewares.zipIdx).reverse

def dispatch404ViaHandler (attempt : Nat) (request : NotFoundRequest) :
    Eff Event PyErr (Option Rendered) :=
  match app.notFoundHandler with
  | none => pure none
  | some handler => do
      Eff.perform .handler
      let result ← Eff.ofOutcome (handler attempt request)
      let rendered ← Eff.ofOutcome (responses.extractResponse result)
      pure (some rendered)

def runChainAsync (attempt : Nat) (request : NotFoundRequest) :
    List (Middleware ρ × Nat) → Eff Event PyErr (Option ρ)
  | [] => pure (some responses.synthetic404)
  | (middleware, index) :: rest => do
      Eff.perform (.middleware index)
      match middleware.behaviour attempt request with
      | .raises error => Eff.ofOutcome (.raised error)
      | .answers response => pure response
      | .forwards after => (runChainAsync attempt request rest).settle after

def dispatch404ViaMiddleware (attempt : Nat) (request : NotFoundRequest) :
    Eff Event PyErr (Option Rendered) :=
  if app.httpMiddlewares.isEmpty then pure none
  else do
    let result ← runChainAsync responses attempt request app.chain
    match result with
    | none => pure none
    | some response => do
        let rendered ← Eff.ofOutcome (responses.extractResponse (some response))
        pure (some rendered)

def default404 : Rendered :=
  ⟨404, "\x7b\"detail\":\"Not Found\"\x7d", []⟩

/-- `_rust_404_handler`, for a request that no low-priority route matches either. -/
def rust404Handler (attempt : Nat) (request : NotFoundRequest) : Eff Event PyErr Rendered := do
  match ← dispatch404ViaHandler responses app attempt request with
  | some rendered => pure rendered
  | none =>
    match ← dispatch404ViaMiddleware responses app attempt request with
    | some rendered => pure rendered
    | none => pure default404

def httpResponse (rendered : Rendered) : Rendered :=
  if rendered.status < 0 ∨ 65536 ≤ rendered.status then
    { default404 with headers := [("content-type", "application/json")] }
  else
    { status := if 100 ≤ rendered.status ∧ rendered.status < 1000 then rendered.status else 404
      body := rendered.body
      headers := rendered.headers ++
        if rendered.headers.any fun header => header.1.toLower = "content-type" then []
        else [("content-type", "application/json")] }

/-- `dispatch_404`.  Whatever the handler raises is taken for a refusal of the four
arguments, and it is called again with the first two. -/
def dispatch404 (request : NotFoundRequest) : List Event × Rendered :=
  if app.notFoundHandler.isNone && app.httpMiddlewares.isEmpty then ([], httpResponse default404)
  else
    let first := rust404Handler responses app 0 request
    match first.outcome with
    | .returned rendered => (first.effects, httpResponse rendered)
    | .raised _ =>
      let second := rust404Handler responses app 1 { request with query := "", headers := [] }
      (first.effects ++ second.effects,
        match second.outcome with
        | .returned rendered => httpResponse rendered
        | .raised _ => httpResponse default404)

end Dispatch

section Due

variable {ρ : Type}

/-- The bodies that are due: each middleware that the ones outside of it forward the
request to, and inside all of them the exception handler. -/
def dueInside (handler : List Event) (request : NotFoundRequest) :
    List (Middleware ρ × Nat) → List Event
  | [] => handler
  | (middleware, index) :: rest =>
    .middleware index ::
      match middleware.behaviour 0 request with
      | .forwards _ => dueInside handler request rest
      | _ => []

def dueEvents (app : App ρ) (request : NotFoundRequest) : List Event :=
  dueInside (if app.notFoundHandler.isSome then [.handler] else []) request app.chain

def chainOutcome (responses : Responses ρ) (request : NotFoundRequest) :
    List (Middleware ρ × Nat) → Outcome (Option ρ) PyErr
  | [] => .returned (some responses.synthetic404)
  | (middleware, _) :: rest =>
    match middleware.behaviour 0 request with
    | .raises error => .raised error
    | .answers response => .returned response
    | .forwards after => after (chainOutcome responses request rest)

def Extracts (responses : Responses ρ) (response : Option ρ) : Prop :=
  ∃ rendered, responses.extractResponse response = .returned rendered

/-- There is a handler or there are middlewares, not both, and no exception leaves the
handler or the outermost middleware. -/
def Settled (responses : Responses ρ) (app : App ρ) (request : NotFoundRequest) : Prop :=
  match app.notFoundHandler with
  | some handler =>
    app.chain = [] ∧ ∃ result, handler 0 request = .returned result ∧ Extracts responses result
  | none =>
    app.chain = [] ∨ ∃ result, chainOutcome responses request app.chain = .returned result ∧
      ∀ response, result = some response → Extracts responses (some response)

section

variable (rsps : Responses ρ)

theorem effects_runChainAsync (request : NotFoundRequest) (chain : List (Middleware ρ × Nat)) :
    (runChainAsync rsps 0 request chain).effects = dueInside [] request chain := by
  induction chain with
  | nil => rfl
  | cons entry rest ih =>
    obtain ⟨middleware, index⟩ := entry
    rw [runChainAsync, Eff.effects_perform_bind, dueInside]
    cases middleware.behaviour 0 request with
    | raises error => rfl
    | answers response => rfl
    | forwards after => simp [ih]

theorem outcome_runChainAsync (request : NotFoundRequest) (chain : List (Middleware ρ × Nat)) :
    (runChainAsync rsps 0 request chain).outcome = chainOutcome rsps request chain := by
  induction chain with
  | nil => rfl
  | cons entry rest ih =>
    obtain ⟨middleware, index⟩ := entry
    rw [runChainAsync, Eff.outcome_perform_bind, chainOutcome]
    cases middleware.behaviour 0 request with
    | raises error => rfl
    | answers response => rfl
    | forwards after => simp [ih]

theorem runChainAsync_ne_nil (attempt : Nat) (request : NotFoundRequest)
    {chain : List (Middleware ρ × Nat)} (hc : chain ≠ []) :
    (runChainAsync rsps attempt request chain).effects ≠ [] := by
  cases chain with
  | nil => exact absurd rfl hc
  | cons entry rest =>
    rw [runChainAsync, Eff.effects_perform_bind]
    exact List.cons_ne_nil _ _

theorem effects_viaMiddleware (app : App ρ) (attempt : Nat) (request : NotFoundRequest) :
    (dispatch404ViaMiddleware rsps app attempt request).effects =
      if app.httpMiddlewares.isEmpty then []
      else (runChainAsync rsps attempt request app.chain).effects := by
  unfold dispatch404ViaMiddleware
  split
  · rfl
  · refine Eff.effects_bind_of_silent _ fun result => ?_
    cases result with
    | none => rfl
    | some response => exact Eff.effects_bind_of_silent _ fun _ => rfl

end

variable {app : App ρ} {hd : Handler ρ}

section

variable (rsps : Responses ρ)

theorem rust404Handler_of_handler (hh : app.notFoundHandler = some hd) (attempt : Nat)
    (request : NotFoundRequest) :
    rust404Handler rsps app attempt request =
      Eff.perform .handler >>= fun _ =>
        Eff.ofOutcome (hd attempt request) >>= fun result =>
          Eff.ofOutcome (rsps.extractResponse result) := by
  simp only [rust404Handler, dispatch404ViaHandler, hh, bind_assoc, pure_bind]
  simp only [bind_pure]

theorem rust404Handler_of_none (hn : app.notFoundHandler = none) (attempt : Nat)
    (request : NotFoundRequest) :
    rust404Handler rsps app attempt request =
      dispatch404ViaMiddleware rsps app attempt request >>= fun rendered =>
        pure (rendered.getD default404) := by
  simp only [rust404Handler, dispatch404ViaHandler, hn, pure_bind]
  congr 1
  funext rendered
  cases rendered <;> rfl

theorem effects_of_handler (hh : app.notFoundHandler = some hd) (attempt : Nat)
    (request : NotFoundRequest) :
    (rust404Handler rsps app attempt request).effects = [.handler] := by
  rw [rust404Handler_of_handler rsps hh, Eff.effects_perform_bind,
    Eff.effects_bind_of_silent _ fun _ => rfl]
  rfl

theorem effects_of_none (hn : app.notFoundHandler = none) (attempt : Nat)
    (request : NotFoundRequest) :
    (rust404Handler rsps app attempt request).effects =
      if app.httpMiddlewares.isEmpty then []
      else (runChainAsync rsps attempt request app.chain).effects := by
  rw [rust404Handler_of_none rsps hn, Eff.effects_bind_of_silent _ fun _ => rfl,
    effects_viaMiddleware]

theorem returns_of_handler_iff (hh : app.notFoundHandler = some hd) (attempt : Nat)
    (request : NotFoundRequest) :
    (∃ rendered, (rust404Handler rsps app attempt request).outcome = .returned rendered) ↔
      ∃ result, hd attempt request = .returned result ∧ Extracts rsps result := by
  simp only [rust404Handler_of_handler rsps hh, Eff.outcome_perform_bind,
    Eff.outcome_bind_returned_iff, Eff.outcome_ofOutcome, Extracts]
  constructor
  · rintro ⟨rendered, result, hr, hrendered⟩
    exact ⟨result, hr, rendered, hrendered⟩
  · rintro ⟨result, hr, rendered, hrendered⟩
    exact ⟨rendered, result, hr, hrendered⟩

theorem returns_of_none_iff (hn : app.notFoundHandler = none)
    (hm : app.httpMiddlewares ≠ []) (request : NotFoundRequest) :
    (∃ rendered, (rust404Handler rsps app 0 request).outcome = .returned rendered) ↔
      ∃ result, chainOutcome rsps request app.chain = .returned result ∧
        ∀ response, result = some response → Extracts rsps (some response) := by
  have he : app.httpMiddlewares.isEmpty = false := by simpa using hm
  rw [rust404Handler_of_none rsps hn, dispatch404ViaMiddleware, he]
  simp only [Bool.false_eq_true, if_false, Eff.outcome_bind_returned_iff, outcome_runChainAsync]
  constructor
  · rintro ⟨rendered, value, ⟨result, hr, hv⟩, -⟩
    refine ⟨result, hr, ?_⟩
    rintro response rfl
    obtain ⟨extracted, hextracted, -⟩ := (Eff.outcome_bind_returned_iff _ _ _).1 hv
    exact ⟨extracted, hextracted⟩
  · rintro ⟨result, hr, hextracts⟩
    cases result with
    | none => exact ⟨default404, none, ⟨none, hr, rfl⟩, rfl⟩
    | some response =>
      obtain ⟨rendered, hrendered⟩ := hextracts response rfl
      refine ⟨rendered, some rendered, ⟨some response, hr, ?_⟩, rfl⟩
      exact (Eff.outcome_bind_returned_iff _ _ _).2 ⟨rendered, hrendered, rfl⟩

end

section

variable (rsps : Responses ρ)
  (hinstalled : (app.notFoundHandler.isNone && app.httpMiddlewares.isEmpty) = false)
  (request : NotFoundRequest)
include hinstalled

theorem dispatch404_once_iff (ha : (rust404Handler rsps app 1
      { request with query := "", headers := [] }).effects ≠ []) :
    (dispatch404 rsps app request).1 = (rust404Handler rsps app 0 request).effects ↔
      ∃ rendered, (rust404Handler rsps app 0 request).outcome = .returned rendered := by
  unfold dispatch404
  rw [hinstalled]
  cases ho : (rust404Handler rsps app 0 request).outcome with
  | returned rendered => simp [ho]
  | raised error => simpa [ho] using ha

theorem dispatch404_starts :
    ∃ again, (dispatch404 rsps app request).1 =
      (rust404Handler rsps app 0 request).effects ++ again := by
  unfold dispatch404
  rw [hinstalled]
  cases ho : (rust404Handler rsps app 0 request).outcome with
  | returned rendered => exact ⟨[], by simp [ho]⟩
  | raised error => exact ⟨_, by simp [ho]; rfl⟩

end

private theorem dispatch404_nothing (responses : Responses ρ) (hn : app.notFoundHandler = none)
    (hc : app.chain = []) (request : NotFoundRequest) :
    (dispatch404 responses app request).1 = [] := by
  have he (attempt : Nat) (request : NotFoundRequest) :
      (rust404Handler responses app attempt request).effects = [] := by
    rw [effects_of_none responses hn, hc]
    split <;> rfl
  unfold dispatch404
  split
  · rfl
  · dsimp only
    split
    · exact he 0 request
    · simp [he]

/-- The bodies that are due run once each, in the order of nesting, exactly if a handler
and middlewares are not both registered and what is registered raises nothing. -/
theorem dispatch404_runs_due_iff (responses : Responses ρ) (app : App ρ)
    (request : NotFoundRequest) :
    (dispatch404 responses app request).1 = dueEvents app request ↔
      Settled responses app request := by
  unfold Settled dueEvents
  cases hh : app.notFoundHandler with
  | some handler =>
    have hinstalled : (app.notFoundHandler.isNone && app.httpMiddlewares.isEmpty) = false := by
      simp [hh]
    have he := effects_of_handler responses hh
    cases hc : app.chain with
    | nil =>
      have ho := dispatch404_once_iff responses hinstalled request (by simp [he])
      rw [he, returns_of_handler_iff responses hh] at ho
      simpa [dueInside] using ho
    | cons entry chain =>
      -- the handler has been called before any middleware
      obtain ⟨again, ha⟩ := dispatch404_starts responses hinstalled request
      simp [ha, he, dueInside]
  | none =>
    by_cases hc : app.chain = []
    · simp [dispatch404_nothing responses hh hc, hc, dueInside]
    · have hm : app.httpMiddlewares ≠ [] := fun hempty => by
        simp [App.chain, hempty] at hc
      have he := effects_of_none responses hh
      simp only [List.isEmpty_iff, hm, if_false] at he
      have hinstalled : (app.notFoundHandler.isNone && app.httpMiddlewares.isEmpty) = false := by
        simp [hm]
      have ho := dispatch404_once_iff responses hinstalled request
        (by rw [he]; exact runChainAsync_ne_nil responses 1 _ hc)
      rw [he, effects_runChainAsync, returns_of_none_iff responses hh hm]
        at ho
      simpa [hc] using ho

end Due

section Twice

/-- `@app.middleware("http")` on a function that raises before `call_next`. -/
def rejecting : Middleware Unit :=
  ⟨false, fun _ _ => .raises ⟨runtimeErrorMro, "rejected"⟩⟩

def rejectingApp : App Unit :=
  ⟨[rejecting], none, none, false⟩

/-- Its body is executed twice for one request. -/
theorem raising_middleware_runs_twice :
    dueEvents rejectingApp ⟨"GET", "/missing", "", []⟩ = [.middleware 0] ∧
      (dispatch404 ⟨(), fun _ => .returned default404⟩ rejectingApp
        ⟨"GET", "/missing", "", []⟩).1 = [.middleware 0, .middleware 0] :=
  ⟨rfl, rfl⟩

end Twice

end FastapiTurbo.NotFoundFallback
