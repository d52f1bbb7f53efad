import FastapiTurbo.Lib.Dict
import FastapiTurbo.Py

/-! The `@app.middleware("http")` chain around an endpoint
(`_middleware_wrap.py`): a first pass that advances every coroutine by a single
`send`, and, once one of them suspends, a second pass on an event loop. -/
namespace FastapiTurbo.MiddlewareWrap

open Lib Py

abbrev Header := String × String

structure Response where
  status : Nat
  body : String
  headers : List Header
  deriving DecidableEq

/-- Whose `Request` object it is: the one the Rust door passes to the endpoint, or
the one the wrapper builds for the middlewares. -/
inductive Origin where
  | door
  | wrapper
  deriving DecidableEq

/-- Python objects by what the wrapper can tell about them; `data` is everything
without a `status_code`. -/
inductive Value (ρ : Type) where
  | none
  | response (response : Response)
  | str (text : String)
  | bytes (content : String)
  | headerList (headers : List Header)
  | request (origin : Origin)
  | coroutine
  | data (payload : ρ)
  deriving DecidableEq

abbrev Kwargs (ρ : Type) := Dict String (Value ρ)

structure HttpInfo (ρ : Type) where
  statusCode : Nat
  detail : Value ρ
  headers : List Header
  deriving DecidableEq

structure Exc (ρ : Type) where
  error : PyErr
  http : Option (HttpInfo ρ)
  deriving DecidableEq

abbrev Result (ρ : Type) := Outcome (Value ρ) (Exc ρ)

/-- What a pass hands up the chain: a result, or `_MiddlewareSuspendedError`. -/
inductive Answer (ρ : Type) where
  | suspended
  | finished (result : Result ρ)
  deriving DecidableEq

/-- What the wrapper calls outside itself: the `json` module, `jsonable_encoder`
and the exception handlers registered with the app. -/
structure Runtime (ρ : Type) where
  isContainer : ρ → Bool
  detail : Value ρ → Value ρ
  loads : Value ρ → Outcome (Value ρ) PyErr
  dumps : Value ρ → Outcome String PyErr
  jsonableEncoder : Value ρ → Outcome (Value ρ) PyErr
  invokeExceptionHandler : Exc ρ → Option (Value ρ)

structure RequestView where
  method : String
  path : String
  headers : List Header
  queryString : String
  body : String
  server : Option String
  deriving DecidableEq

structure RequestLine where
  method : String
  path : String
  headers : List Header
  deriving DecidableEq

def RequestView.line (view : RequestView) : RequestLine :=
  ⟨view.method, view.path, view.headers⟩

/-- The body of an async middleware.  It awaits `call_next` at most once, and may
suspend any number of times before and after.  `caught` is what it does with the
wrapper's internal error, which an `except Exception` around `call_next` sees;
`none` lets it through. -/
inductive Body (ρ : Type) where
  | answers (suspensions : Nat) (result : Result ρ)
  | forwards (before : Nat) (after : Result ρ → Nat × Result ρ)
      (caught : Option (Nat × Result ρ))

/-- A middleware: an `async def`, an instance with an async `__call__`, or a plain
callable, which cannot await `call_next`. -/
inductive Middleware (ρ : Type) where
  | coroutineFunction (body : RequestView → Body ρ)
  | asyncInstance (body : RequestView → Body ρ)
  | plain (result : RequestView → Result ρ)

structure Endpoint (ρ : Type) where
  isAsync : Bool
  hasHttpMiddleware : Bool
  defersExtractionErrors : Bool
  suspensions : Kwargs ρ → Nat
  result : Kwargs ρ → Result ρ

/-- What a pass shows: the middlewares whose bodies it starts, with the request
line they see, what `call_next` gives each of them, the keyword arguments the
endpoint is called with, and the answer of the handler stage. -/
inductive Event (ρ : Type) where
  | middleware (index : Nat) (line : RequestLine)
  | received (index : Nat) (answer : Answer ρ)
  | endpoint (kwargs : Kwargs ρ)
  | handled (answer : Answer ρ)
  deriving DecidableEq

structure Pass (ρ : Type) where
  events : List (Event ρ)
  answer : Answer ρ
  deriving DecidableEq

section Scope

variable {ρ : Type}

def textOf (value : Option (Value ρ)) (default : String) : String :=
  match value with
  | some (.str text) => text
  | _ => default

def bodyOf (kwargs : Kwargs ρ) : String :=
  match kwargs.get? "__fastapi_turbo_raw_body_bytes__" with
  | some (.bytes content) => content
  | _ =>
    match kwargs.get? "__fastapi_turbo_raw_body_str__" with
    | some (.bytes content) => content
    | some (.str text) => text
    | _ => ""

def headersOf (kwargs : Kwargs ρ) : List Header :=
  match kwargs.get? "_request_headers" with
  | some (.headerList headers) => headers
  | _ => []

def hostHeader (headers : List Header) : String :=
  ((headers.find? fun header => header.1.toLower = "host").map Prod.snd).getD ""

def makeScope (kwargs : Kwargs ρ) : RequestView where
  method := textOf (kwargs.get? "_request_method") "GET"
  path := textOf (kwargs.get? "_request_path") "/"
  headers := headersOf kwargs
  queryString := textOf (kwargs.get? "_request_query") ""
  body := bodyOf kwargs
  server := some (hostHeader (headersOf kwargs))

def poppedKwargs (kwargs : Kwargs ρ) : Kwargs ρ :=
  ["_request_headers", "_request_method", "_request_path", "_request_query"].foldl
    (fun rest key => rest.erase key) kwargs

def chainKwargs (kwargs : Kwargs ρ) : Kwargs ρ :=
  (poppedKwargs kwargs).set "_middleware_request" (.request .wrapper)

/-- The request that `_door_make_request` makes of the fallback's scope, which
names neither method nor path nor headers. -/
def bareRequest : RequestView :=
  ⟨"GET", "/", [], "", "", none⟩

/-- The first `Request` among the values becomes the middlewares' request. -/
def swapRequest : Kwargs ρ → Kwargs ρ
  | [] => []
  | (key, .request _) :: rest => (key, .request .wrapper) :: rest
  | entry :: rest => entry :: swapRequest rest

def privateKeys : List String :=
  ["_middleware_request", "__fastapi_turbo_extraction_errors__",
    "__fastapi_turbo_raw_body_str__", "__fastapi_turbo_raw_body_bytes__",
    "_request_method", "_request_path", "_request_query", "_request_headers"]

def withoutPrivate (kwargs : Kwargs ρ) : Kwargs ρ :=
  kwargs.filter fun entry => !privateKeys.contains entry.1

end Scope

section Chain

variable {ρ : Type}

def jsonResponse (runtime : Runtime ρ) (content : Value ρ) (status : Nat)
    (headers : List Header) : Result ρ :=
  match runtime.dumps content with
  | .returned body => .returned (.response ⟨status, body, headers⟩)
  | .raised error => .raised ⟨error, none⟩

/-- The tail of `_call_handler_sync`: anything without a `status_code` is encoded
into a `JSONResponse`. -/
def normalise (runtime : Runtime ρ) : Value ρ → Result ρ
  | .response response => .returned (.response response)
  | value =>
    match runtime.jsonableEncoder value with
    | .returned content => jsonResponse runtime content 200 []
    | .raised error => .raised ⟨error, none⟩

def convert (runtime : Runtime ρ) : Result ρ → Result ρ
  | .returned value => normalise runtime value
  | .raised exc =>
    match exc.http with
    | some info =>
      let detail := if info.detail matches .none then .str "Internal Server Error"
        else info.detail
      jsonResponse runtime (runtime.detail detail) info.statusCode info.headers
    | none =>
      match runtime.invokeExceptionHandler exc with
      | some handled => normalise runtime handled
      | none => .raised exc

def deferredErrors (kwargs : Kwargs ρ) : Option (Value ρ) :=
  match kwargs.get? "__fastapi_turbo_extraction_errors__" with
  | some .none => none
  | errors => errors

def validationResponse (runtime : Runtime ρ) (errors : Value ρ) : Result ρ :=
  match runtime.loads errors with
  | .returned loaded => jsonResponse runtime (runtime.detail loaded) 422 []
  | .raised error => .raised ⟨error, none⟩

def callKwargs (endpoint : Endpoint ρ) (kwargs : Kwargs ρ) : Kwargs ρ :=
  if !endpoint.hasHttpMiddleware && !endpoint.defersExtractionErrors then
    withoutPrivate (swapRequest kwargs)
  else swapRequest kwargs

def Endpoint.suspendsOn (endpoint : Endpoint ρ) (kwargs : Kwargs ρ) : Bool :=
  endpoint.isAsync && decide (0 < endpoint.suspensions kwargs)

def invokeEndpoint (runtime : Runtime ρ) (endpoint : Endpoint ρ) (kwargs : Kwargs ρ) :
    Answer ρ :=
  if endpoint.suspendsOn kwargs then .suspended
  else .finished (convert runtime (endpoint.result kwargs))

def callHandlerSync (runtime : Runtime ρ) (endpoint : Endpoint ρ) (kwargs : Kwargs ρ) :
    Pass ρ :=
  match endpoint.defersExtractionErrors, deferredErrors kwargs with
  | false, some errors =>
    let answer := .finished (validationResponse runtime errors)
    ⟨[.handled answer], answer⟩
  | _, _ =>
    let called := callKwargs endpoint kwargs
    let answer := invokeEndpoint runtime endpoint called
    ⟨[.endpoint called, .handled answer], answer⟩

/-- One `send` into a body: it must not suspend on the way to its result. -/
def settleIn (suspensions : Nat) (result : Result ρ) : Answer ρ :=
  if 0 < suspensions then .suspended else .finished result

def resume (after : Result ρ → Nat × Result ρ) (caught : Option (Nat × Result ρ)) :
    Answer ρ → Answer ρ
  | .finished result => settleIn (after result).1 (after result).2
  | .suspended =>
    match caught with
    | none => .suspended
    | some (suspensions, result) => settleIn suspensions result

def sendBody (index : Nat) (view : RequestView) (inner : Pass ρ) : Body ρ → Pass ρ
  | .answers suspensions result =>
    ⟨[.middleware index view.line], settleIn suspensions result⟩
  | .forwards before after caught =>
    if 0 < before then ⟨[.middleware index view.line], .suspended⟩
    else
      ⟨.middleware index view.line :: (inner.events ++ [.received index inner.answer]),
        resume after caught inner.answer⟩

def runChain (runtime : Runtime ρ) (endpoint : Endpoint ρ) (view : RequestView)
    (kwargs : Kwargs ρ) : Nat → List (Middleware ρ) → Pass ρ
  | _, [] => callHandlerSync runtime endpoint kwargs
  | index, .coroutineFunction body :: rest =>
    sendBody index view (runChain runtime endpoint view kwargs (index + 1) rest) (body view)
  | index, .asyncInstance body :: rest =>
    sendBody index view (runChain runtime endpoint view kwargs (index + 1) rest) (body view)
  | index, .plain result :: _ =>
    ⟨[.middleware index view.line], .finished (result view)⟩

def fallbackRender (runtime : Runtime ρ) : Value ρ → Result ρ
  | .data payload =>
    if runtime.isContainer payload then jsonResponse runtime (.data payload) 200 []
    else .returned (.data payload)
  | value => .returned value

def fallbackHandler (runtime : Runtime ρ) (endpoint : Endpoint ρ) (kwargs : Kwargs ρ) :
    Pass ρ :=
  let answer :=
    match endpoint.result kwargs with
    | .returned value => .finished (fallbackRender runtime value)
    | .raised exc => .finished (.raised exc)
  ⟨[.endpoint kwargs, .handled answer], answer⟩

def awaitBody (index : Nat) (view : RequestView) (inner : Pass ρ) : Body ρ → Pass ρ
  | .answers _ result => ⟨[.middleware index view.line], .finished result⟩
  | .forwards _ after caught =>
    ⟨.middleware index view.line :: (inner.events ++ [.received index inner.answer]),
      resume (fun result => (0, (after result).2)) caught inner.answer⟩

/-- `build` of `_drive_async_fallback`.  Only `iscoroutinefunction(mw)` is asked
here, so the coroutine of an instance is returned as it is. -/
def driveAsyncFallback (runtime : Runtime ρ) (endpoint : Endpoint ρ) (kwargs : Kwargs ρ) :
    Nat → List (Middleware ρ) → Pass ρ
  | _, [] => fallbackHandler runtime endpoint kwargs
  | index, .coroutineFunction body :: rest =>
    awaitBody index bareRequest (driveAsyncFallback runtime endpoint kwargs (index + 1) rest)
      (body bareRequest)
  | _, .asyncInstance _ :: _ => ⟨[], .finished (.returned .coroutine)⟩
  | index, .plain result :: _ =>
    ⟨[.middleware index bareRequest.line], .finished (result bareRequest)⟩

structure Passes (ρ : Type) where
  first : Pass ρ
  second : Option (Pass ρ)
  deriving DecidableEq

def Passes.events (passes : Passes ρ) : List (Event ρ) :=
  passes.first.events ++ (passes.second.map Pass.events).getD []

def Passes.final (passes : Passes ρ) : Pass ρ :=
  passes.second.getD passes.first

def Event.isHandled : Event ρ → Bool
  | .handled _ => true
  | _ => false

def firstPass (runtime : Runtime ρ) (endpoint : Endpoint ρ) (chain : List (Middleware ρ))
    (kwargs : Kwargs ρ) : Pass ρ :=
  runChain runtime endpoint (makeScope kwargs) (chainKwargs kwargs) 0 chain

/-- The dictionary as the first pass leaves it: the request is swapped if the
handler stage was reached. -/
def leftKwargs (runtime : Runtime ρ) (endpoint : Endpoint ρ) (chain : List (Middleware ρ))
    (kwargs : Kwargs ρ) : Kwargs ρ :=
  if (firstPass runtime endpoint chain kwargs).events.any Event.isHandled then
    swapRequest (chainKwargs kwargs)
  else chainKwargs kwargs

/-- `wrapped_sync` over the reversed list. -/
def wrappedSync (runtime : Runtime ρ) (endpoint : Endpoint ρ) (chain : List (Middleware ρ))
    (kwargs : Kwargs ρ) : Passes ρ :=
  let first := firstPass runtime endpoint chain kwargs
  match first.answer with
  | .finished _ => ⟨first, none⟩
  | .suspended =>
    ⟨first, some (driveAsyncFallback runtime endpoint
      (leftKwargs runtime endpoint chain kwargs) 0 chain)⟩

/-- One call of what `_wrap_with_http_middlewares` returns.  Without middlewares
that is the endpoint itself. -/
def wrapWithHttpMiddlewares (runtime : Runtime ρ) (endpoint : Endpoint ρ)
    (middlewares : List (Middleware ρ)) (kwargs : Kwargs ρ) : Passes ρ :=
  match middlewares with
  | [] => ⟨⟨[.endpoint kwargs], .finished (endpoint.result kwargs)⟩, none⟩
  | middlewares => wrappedSync runtime endpoint middlewares.reverse kwargs

end Chain

section Once

variable {ρ : Type}

inductive Started where
  | middleware (index : Nat)
  | endpoint
  deriving DecidableEq

def Event.started : Event ρ → Option Started
  | .middleware index _ => some (.middleware index)
  | .received _ _ => none
  | .endpoint _ => some .endpoint
  | .handled _ => none

def started (events : List (Event ρ)) : List Started :=
  events.filterMap Event.started

def RunsAtMostOnce (events : List (Event ρ)) : Prop :=
  (started events).Nodup

@[simp] theorem started_middleware (index : Nat) (line : RequestLine)
    (events : List (Event ρ)) :
    started (.middleware index line :: events) = .middleware index :: started events :=
  rfl

@[simp] theorem started_received (index : Nat) (answer : Answer ρ) :
    started [.received index answer] = [] :=
  rfl

@[simp] theorem started_append (earlier later : List (Event ρ)) :
    started (earlier ++ later) = started earlier ++ started later := by
  simp [started]

/-- A body meets a suspension that it does not keep to itself, given what
`call_next` hands it. -/
def Body.Escapes (inner : Answer ρ) : Body ρ → Prop
  | .answers suspensions _ => 0 < suspensions
  | .forwards before after caught =>
    0 < before ∨
      match inner, caught with
      | .finished result, _ => 0 < (after result).1
      | .suspended, none => True
      | .suspended, some (suspensions, _) => 0 < suspensions

/-- A suspension of the endpoint or of a middleware that the request reaches, and
that no middleware around it catches. -/
def SuspensionEscapes (runtime : Runtime ρ) (endpoint : Endpoint ρ) (view : RequestView)
    (kwargs : Kwargs ρ) : Nat → List (Middleware ρ) → Prop
  | _, [] =>
    (endpoint.defersExtractionErrors = true ∨ deferredErrors kwargs = none) ∧
      endpoint.suspendsOn (callKwargs endpoint kwargs) = true
  | index, .coroutineFunction body :: rest | index, .asyncInstance body :: rest =>
    (body view).Escapes (runChain runtime endpoint view kwargs (index + 1) rest).answer
  | _, .plain _ :: _ => False

private theorem settleIn_eq_suspended (suspensions : Nat) (result : Result ρ) :
    settleIn suspensions result = .suspended ↔ 0 < suspensions := by
  unfold settleIn
  split <;> simp_all

theorem sendBody_suspended_iff (index : Nat) (view : RequestView) (inner : Pass ρ)
    (body : Body ρ) :
    (sendBody index view inner body).answer = .suspended ↔ body.Escapes inner.answer := by
  cases body with
  | answers suspensions result => exact settleIn_eq_suspended suspensions result
  | forwards before after caught =>
    simp only [sendBody, Body.Escapes]
    by_cases hb : 0 < before
    · simp [hb]
    · rw [if_neg hb]
      cases inner.answer with
      | finished result => simp [resume, settleIn_eq_suspended, hb]
      | suspended =>
        cases caught with
        | none => simp [resume]
        | some caught => simp [resume, settleIn_eq_suspended, hb]

private theorem callHandlerSync_suspended_iff (runtime : Runtime ρ) (endpoint : Endpoint ρ)
    (kwargs : Kwargs ρ) :
    (callHandlerSync runtime endpoint kwargs).answer = .suspended ↔
      (endpoint.defersExtractionErrors = true ∨ deferredErrors kwargs = none) ∧
        endpoint.suspendsOn (callKwargs endpoint kwargs) = true := by
  unfold callHandlerSync
  cases endpoint.defersExtractionErrors <;> cases deferredErrors kwargs <;>
    simp [invokeEndpoint]

theorem runChain_suspended_iff (runtime : Runtime ρ) (endpoint : Endpoint ρ)
    (view : RequestView) (kwargs : Kwargs ρ) (index : Nat) (chain : List (Middleware ρ)) :
    (runChain runtime endpoint view kwargs index chain).answer = .suspended ↔
      SuspensionEscapes runtime endpoint view kwargs index chain := by
  cases chain with
  | nil => exact callHandlerSync_suspended_iff runtime endpoint kwargs
  | cons middleware rest =>
    cases middleware with
    | coroutineFunction body | asyncInstance body =>
      exact sendBody_suspended_iff index view _ (body view)
    | plain result => simp [runChain, SuspensionEscapes]

theorem started_sendBody (index : Nat) (view : RequestView) (inner : Pass ρ) (body : Body ρ) :
    started (sendBody index view inner body).events = [.middleware index] ∨
      started (sendBody index view inner body).events =
        .middleware index :: started inner.events := by
  cases body with
  | answers suspensions result => exact .inl rfl
  | forwards before after caught =>
    by_cases hb : 0 < before
    · exact .inl (by simp [sendBody, hb, started, Event.started])
    · exact .inr (by simp [sendBody, hb, started, Event.started])

private theorem started_callHandlerSync (runtime : Runtime ρ) (endpoint : Endpoint ρ)
    (kwargs : Kwargs ρ) :
    started (callHandlerSync runtime endpoint kwargs).events = [] ∨
      started (callHandlerSync runtime endpoint kwargs).events = [.endpoint] := by
  unfold callHandlerSync
  cases endpoint.defersExtractionErrors <;> cases deferredErrors kwargs <;>
    simp [started, Event.started]

/-- A first pass from `index` on starts middlewares of that index or later, and
none of them twice. -/
theorem runChain_once (runtime : Runtime ρ) (endpoint : Endpoint ρ) (view : RequestView)
    (kwargs : Kwargs ρ) (index : Nat) (chain : List (Middleware ρ)) :
    (started (runChain runtime endpoint view kwargs index chain).events).Nodup ∧
      ∀ other < index,
        .middleware other ∉ started (runChain runtime endpoint view kwargs index chain).events := by
  induction chain generalizing index with
  | nil =>
    simp only [runChain]
    rcases started_callHandlerSync runtime endpoint kwargs with hs | hs <;>
      simp [hs]
  | cons mw rest ih =>
    have hinner := ih (index + 1)
    have hb (body : Body ρ) :
        (started (sendBody index view
            (runChain runtime endpoint view kwargs (index + 1) rest) body).events).Nodup ∧
          ∀ other < index, .middleware other ∉ started (sendBody index view
            (runChain runtime endpoint view kwargs (index + 1) rest) body).events := by
      rcases started_sendBody index view
        (runChain runtime endpoint view kwargs (index + 1) rest) body with
        hs | hs
      · rw [hs]
        refine ⟨by simp, ?_⟩
        intro other ho
        simp [Nat.ne_of_lt ho]
      · rw [hs]
        refine ⟨List.nodup_cons.2 ⟨hinner.2 index (by omega), hinner.1⟩, ?_⟩
        intro other ho
        have hl := hinner.2 other (by omega)
        simp [Nat.ne_of_lt ho, hl]
    cases mw with
    | coroutineFunction body | asyncInstance body => exact hb (body view)
    | plain result =>
      refine ⟨by simp [runChain, started, Event.started], ?_⟩
      intro other ho
      simp [runChain, started, Event.started, Nat.ne_of_lt ho]

def OutermostIsInstance : List (Middleware ρ) → Prop
  | .asyncInstance _ :: _ => True
  | _ => False

theorem started_of_suspensionEscapes (runtime : Runtime ρ) (endpoint : Endpoint ρ)
    (view : RequestView) (kwargs : Kwargs ρ) (middleware : Middleware ρ)
    (rest : List (Middleware ρ))
    (he : SuspensionEscapes runtime endpoint view kwargs 0 (middleware :: rest)) :
    .middleware 0 ∈
      started (runChain runtime endpoint view kwargs 0 (middleware :: rest)).events := by
  have hb (body : Body ρ) :
      .middleware 0 ∈ started (sendBody 0 view
        (runChain runtime endpoint view kwargs 1 rest) body).events := by
    rcases started_sendBody 0 view (runChain runtime endpoint view kwargs 1 rest) body with
      hs | hs <;> simp [hs]
  cases middleware with
  | coroutineFunction body => exact hb (body view)
  | asyncInstance body => exact hb (body view)
  | plain result => exact he.elim

/-- The first pass of a call of the wrapper is abandoned. -/
def Switches (runtime : Runtime ρ) (endpoint : Endpoint ρ) (chain : List (Middleware ρ))
    (kwargs : Kwargs ρ) : Prop :=
  SuspensionEscapes runtime endpoint (makeScope kwargs) (chainKwargs kwargs) 0 chain

section

variable {runtime : Runtime ρ} {endpoint : Endpoint ρ} {chain : List (Middleware ρ)}
  {kwargs : Kwargs ρ}

theorem wrappedSync_of_not_switches (hs : ¬Switches runtime endpoint chain kwargs) :
    wrappedSync runtime endpoint chain kwargs =
      ⟨firstPass runtime endpoint chain kwargs, none⟩ := by
  rw [Switches, ← runChain_suspended_iff] at hs
  cases ha : (firstPass runtime endpoint chain kwargs).answer with
  | finished result => simp only [wrappedSync, ha]
  | suspended => exact absurd ha hs

theorem wrappedSync_of_switches (hs : Switches runtime endpoint chain kwargs) :
    wrappedSync runtime endpoint chain kwargs =
      ⟨firstPass runtime endpoint chain kwargs, some (driveAsyncFallback runtime endpoint
          (leftKwargs runtime endpoint chain kwargs) 0 chain)⟩ := by
  rw [Switches, ← runChain_suspended_iff, ← firstPass] at hs
  simp only [wrappedSync, hs]

end

theorem wrappedSync_once_iff (runtime : Runtime ρ) (endpoint : Endpoint ρ)
    (middleware : Middleware ρ) (rest : List (Middleware ρ)) (kwargs : Kwargs ρ) :
    RunsAtMostOnce (wrappedSync runtime endpoint (middleware :: rest) kwargs).events ↔
      ¬Switches runtime endpoint (middleware :: rest) kwargs ∨
        OutermostIsInstance (middleware :: rest) := by
  have ho : (started (firstPass runtime endpoint (middleware :: rest) kwargs).events).Nodup :=
    (runChain_once runtime endpoint _ _ 0 (middleware :: rest)).1
  by_cases hs : Switches runtime endpoint (middleware :: rest) kwargs
  · have hf := started_of_suspensionEscapes runtime endpoint (makeScope kwargs)
      (chainKwargs kwargs) middleware rest hs
    rw [wrappedSync_of_switches hs]
    cases middleware with
    | coroutineFunction body =>
      -- the fallback starts the outermost body a second time
      simp only [RunsAtMostOnce, Passes.events, started_append, driveAsyncFallback, hs,
        not_true, false_or, OutermostIsInstance, iff_false]
      intro hn
      refine (List.nodup_append.1 hn).2.2 _ hf _ ?_ rfl
      cases body bareRequest <;> simp [awaitBody, started, Event.started]
    | asyncInstance body =>
      simpa [RunsAtMostOnce, Passes.events, driveAsyncFallback, OutermostIsInstance] using ho
    | plain result => exact hs.elim
  · rw [wrappedSync_of_not_switches hs]
    simpa [RunsAtMostOnce, Passes.events, hs] using ho

/-- Every body runs at most once precisely when no suspension leaves the chain, or
the outermost middleware is an instance, which the fallback never awaits. -/
theorem middleware_chain_at_most_once_iff (runtime : Runtime ρ) (endpoint : Endpoint ρ)
    (middlewares : List (Middleware ρ)) (kwargs : Kwargs ρ) :
    RunsAtMostOnce (wrapWithHttpMiddlewares runtime endpoint middlewares kwargs).events ↔
      middlewares = [] ∨ ¬Switches runtime endpoint middlewares.reverse kwargs ∨
        OutermostIsInstance middlewares.reverse := by
  cases middlewares with
  | nil =>
    simp [wrapWithHttpMiddlewares, RunsAtMostOnce, Passes.events, started, Event.started]
  | cons last earlier =>
    obtain ⟨outermost, inner, hr⟩ :=
      List.exists_cons_of_ne_nil (by simp : (last :: earlier).reverse ≠ [])
    simp only [wrapWithHttpMiddlewares, hr, reduceCtorEq, false_or]
    exact wrappedSync_once_iff runtime endpoint outermost inner kwargs

def plainRuntime : Runtime String where
  isContainer := fun _ => true
  detail := id
  loads := .returned
  dumps := fun value =>
    match value with
    | .data payload => .returned payload
    | _ => .returned "null"
  jsonableEncoder := .returned
  invokeExceptionHandler := fun _ => none

def okEndpoint : Endpoint String where
  isAsync := false
  hasHttpMiddleware := false
  defersExtractionErrors := false
  suspensions := fun _ => 0
  result := fun _ => .returned (.response ⟨200, "ok", []⟩)

def sleepsAfterwards : Middleware String :=
  .coroutineFunction fun _ => .forwards 0 (fun result => (1, result)) none

theorem sleepsAfterwards_repeats_endpoint :
    started (wrapWithHttpMiddlewares plainRuntime okEndpoint [sleepsAfterwards] []).events =
        [.middleware 0, .endpoint, .middleware 0, .endpoint] ∧
      ¬RunsAtMostOnce
        (wrapWithHttpMiddlewares plainRuntime okEndpoint [sleepsAfterwards] []).events := by
  unfold RunsAtMostOnce
  decide

end Once

end FastapiTurbo.MiddlewareWrap
