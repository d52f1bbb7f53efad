import FastapiTurbo.MiddlewareWrap

/-! The two passes of the middleware chain compared: the first pass over bodies
that never suspend, and the fallback pass that the same bodies get once one of
their awaits suspends. -/
namespace FastapiTurbo.MiddlewareFallback

open Lib Py MiddlewareWrap

variable {ρ : Type}

def settledBody : Body ρ → Body ρ
  | .answers _ result => .answers 0 result
  | .forwards _ after caught => .forwards 0 (fun result => (0, (after result).2)) caught

def settledMiddleware : Middleware ρ → Middleware ρ
  | .coroutineFunction body => .coroutineFunction fun view => settledBody (body view)
  | .asyncInstance body => .asyncInstance fun view => settledBody (body view)
  | .plain result => .plain result

def settledEndpoint (endpoint : Endpoint ρ) : Endpoint ρ :=
  { endpoint with suspensions := fun _ => 0 }

def settledChain (chain : List (Middleware ρ)) : List (Middleware ρ) :=
  chain.map settledMiddleware

def settledPass (runtime : Runtime ρ) (endpoint : Endpoint ρ) (view : RequestView)
    (kwargs : Kwargs ρ) (index : Nat) (chain : List (Middleware ρ)) : Pass ρ :=
  runChain runtime (settledEndpoint endpoint) view kwargs index (settledChain chain)

theorem sendBody_settledBody (index : Nat) (view : RequestView) (inner : Pass ρ)
    (body : Body ρ) :
    sendBody index view inner (settledBody body) = awaitBody index view inner body := by
  cases body with
  | answers suspensions result => simp [settledBody, sendBody, awaitBody, settleIn]
  | forwards before after caught => simp [settledBody, sendBody, awaitBody]

section

variable (runtime : Runtime ρ) (endpoint : Endpoint ρ) (view : RequestView) (kwargs : Kwargs ρ)
  (index : Nat) (body : RequestView → Body ρ) (rest : List (Middleware ρ))

theorem settledPass_coroutineFunction :
    settledPass runtime endpoint view kwargs index (.coroutineFunction body :: rest) =
      awaitBody index view (settledPass runtime endpoint view kwargs (index + 1) rest)
        (body view) := by
  rw [← sendBody_settledBody]
  rfl

theorem settledPass_asyncInstance :
    settledPass runtime endpoint view kwargs index (.asyncInstance body :: rest) =
      awaitBody index view (settledPass runtime endpoint view kwargs (index + 1) rest)
        (body view) := by
  rw [← sendBody_settledBody]
  rfl

end

theorem callHandlerSync_settled_finished (runtime : Runtime ρ) (endpoint : Endpoint ρ)
    (kwargs : Kwargs ρ) :
    ∃ result, (callHandlerSync runtime (settledEndpoint endpoint) kwargs).answer =
      .finished result := by
  unfold callHandlerSync
  split
  · exact ⟨_, rfl⟩
  · simp [invokeEndpoint, Endpoint.suspendsOn, settledEndpoint]

private theorem awaitBody_finished (index : Nat) (view : RequestView) {inner : Pass ρ}
    (hinner : ∃ result, inner.answer = .finished result) (body : Body ρ) :
    ∃ result, (awaitBody index view inner body).answer = .finished result := by
  obtain ⟨result, hr⟩ := hinner
  cases body with
  | answers suspensions answer => exact ⟨answer, rfl⟩
  | forwards before after caught =>
    exact ⟨(after result).2, by simp [awaitBody, hr, resume, settleIn]⟩

theorem settledPass_finished (runtime : Runtime ρ) (endpoint : Endpoint ρ)
    (view : RequestView) (kwargs : Kwargs ρ) (index : Nat) (chain : List (Middleware ρ)) :
    ∃ result, (settledPass runtime endpoint view kwargs index chain).answer =
      .finished result := by
  induction chain generalizing index with
  | nil => exact callHandlerSync_settled_finished runtime endpoint kwargs
  | cons middleware rest ih =>
    cases middleware with
    | coroutineFunction body =>
      rw [settledPass_coroutineFunction]
      exact awaitBody_finished index view (ih (index + 1)) (body view)
    | asyncInstance body =>
      rw [settledPass_asyncInstance]
      exact awaitBody_finished index view (ih (index + 1)) (body view)
    | plain result => exact ⟨result view, rfl⟩

/-- The two ways of rendering an endpoint's result come to the same: a `Response`,
a dict or list whose JSON text `jsonable_encoder` does not change, or an exception
that is no `HTTPException` and that the app's handlers leave alone. -/
def RendersAlike (runtime : Runtime ρ) : Result ρ → Prop
  | .returned (.response _) => True
  | .returned (.data payload) =>
    runtime.isContainer payload = true ∧
      match runtime.jsonableEncoder (.data payload) with
      | .returned content => runtime.dumps content = runtime.dumps (.data payload)
      | .raised error => runtime.dumps (.data payload) = .raised error
  | .returned _ => False
  | .raised exc =>
    exc.http = none ∧
      match runtime.invokeExceptionHandler exc with
      | none => True
      | some handled => normalise runtime handled = .raised exc

def fallbackConvert (runtime : Runtime ρ) : Result ρ → Result ρ
  | .returned value => fallbackRender runtime value
  | .raised exc => .raised exc

section

variable (runtime : Runtime ρ)

theorem jsonResponse_inj (content other : Value ρ) :
    jsonResponse runtime content 200 [] = jsonResponse runtime other 200 [] ↔
      runtime.dumps content = runtime.dumps other := by
  unfold jsonResponse
  cases runtime.dumps content <;> cases runtime.dumps other <;> simp

theorem jsonResponse_ne_of_not_response (content : Value ρ) (status : Nat) (headers : List Header)
    (value : Value ρ) (hv : ∀ res, value ≠ .response res) :
    jsonResponse runtime content status headers ≠ .returned value := by
  unfold jsonResponse
  cases runtime.dumps content with
  | returned body =>
    intro hs
    exact hv _ (Outcome.returned.inj hs).symm
  | raised error => simp

theorem normalise_ne_of_not_response (source value : Value ρ)
    (hv : ∀ res, value ≠ .response res) : normalise runtime source ≠ .returned value := by
  unfold normalise
  split
  · rename_i res
    intro hs
    exact hv res (Outcome.returned.inj hs).symm
  · split
    · exact jsonResponse_ne_of_not_response runtime _ 200 [] value hv
    · simp

theorem jsonResponse_raised_http (content : Value ρ) (status : Nat) (headers : List Header)
    {exception : Exc ρ}
    (hr : jsonResponse runtime content status headers = .raised exception) :
    exception.http = none := by
  unfold jsonResponse at hr
  cases hd : runtime.dumps content with
  | returned body => simp [hd] at hr
  | raised error =>
    rw [hd] at hr
    rw [← Outcome.raised.inj hr]

theorem convert_data_iff (payload : ρ) :
    convert runtime (.returned (.data payload)) =
        fallbackConvert runtime (.returned (.data payload)) ↔
      RendersAlike runtime (.returned (.data payload)) := by
  cases hc : runtime.isContainer payload with
  | false =>
    simp only [RendersAlike, hc, convert, fallbackConvert, fallbackRender]
    simpa using normalise_ne_of_not_response runtime (.data payload) (.data payload) (by simp)
  | true =>
    simp only [RendersAlike, hc, convert, fallbackConvert, fallbackRender, normalise, true_and]
    cases runtime.jsonableEncoder (.data payload) with
    | returned content => exact jsonResponse_inj runtime content (.data payload)
    | raised error =>
      simp only [jsonResponse]
      cases runtime.dumps (.data payload) with
      | returned body => simp
      | raised other => simp [eq_comm]

private theorem convert_raised_iff (exception : Exc ρ) :
    convert runtime (.raised exception) = fallbackConvert runtime (.raised exception) ↔
      RendersAlike runtime (.raised exception) := by
  simp only [convert, fallbackConvert, RendersAlike]
  cases hh : exception.http with
  | some info =>
    simp only [reduceCtorEq, false_and, iff_false]
    intro hs
    have hn := jsonResponse_raised_http runtime _ _ _ hs
    simp [hh] at hn
  | none => cases runtime.invokeExceptionHandler exception <;> simp

theorem convert_eq_fallbackConvert_iff (result : Result ρ) :
    convert runtime result = fallbackConvert runtime result ↔ RendersAlike runtime result := by
  cases result with
  | raised exception => exact convert_raised_iff runtime exception
  | returned value =>
    cases value with
    | response response => simp [convert, normalise, fallbackConvert, fallbackRender, RendersAlike]
    | data payload => exact convert_data_iff runtime payload
    | _ =>
      simp only [RendersAlike, iff_false, convert]
      refine normalise_ne_of_not_response runtime _ _ ?_
      simp

end

def ForwardsAtOnce (view : RequestView) : Middleware ρ → Prop
  | .coroutineFunction body | .asyncInstance body =>
    match body view with
    | .forwards before _ _ => before = 0
    | .answers _ _ => False
  | .plain _ => False

theorem isHandled_callHandlerSync (runtime : Runtime ρ) (endpoint : Endpoint ρ)
    (kwargs : Kwargs ρ) :
    (callHandlerSync runtime endpoint kwargs).events.any Event.isHandled = true := by
  unfold callHandlerSync
  split <;> simp [Event.isHandled]

private theorem isHandled_sendBody (index : Nat) (view : RequestView) (inner : Pass ρ)
    (body : Body ρ) :
    (sendBody index view inner body).events.any Event.isHandled = true ↔
      (match body with
        | .forwards before _ _ => before = 0
        | .answers _ _ => False) ∧
        inner.events.any Event.isHandled = true := by
  cases body with
  | answers suspensions result => simp [sendBody, Event.isHandled]
  | forwards before after caught =>
    rcases Nat.eq_zero_or_pos before with rfl | hb
    · simp [sendBody, Event.isHandled]
    · simp [sendBody, Event.isHandled, hb, Nat.ne_of_gt hb]

theorem isHandled_runChain_iff (runtime : Runtime ρ) (endpoint : Endpoint ρ)
    (view : RequestView) (kwargs : Kwargs ρ) (index : Nat) (chain : List (Middleware ρ)) :
    (runChain runtime endpoint view kwargs index chain).events.any Event.isHandled = true ↔
      ∀ middleware ∈ chain, ForwardsAtOnce view middleware := by
  induction chain generalizing index with
  | nil => simpa [runChain] using isHandled_callHandlerSync runtime endpoint kwargs
  | cons middleware rest ih =>
    cases middleware with
    | coroutineFunction body | asyncInstance body =>
      rw [runChain, isHandled_sendBody, ih, List.forall_mem_cons]
      rfl
    | plain result => simp [runChain, Event.isHandled, ForwardsAtOnce]

theorem swapRequest_keys (kwargs : Kwargs ρ) :
    (swapRequest kwargs).map Prod.fst = kwargs.map Prod.fst := by
  induction kwargs with
  | nil => rfl
  | cons entry rest ih =>
    obtain ⟨key, value⟩ := entry
    cases value <;> simp [swapRequest, ih]

theorem withoutPrivate_ne (kwargs called : Kwargs ρ)
    (hkey : "_middleware_request" ∈ kwargs.map Prod.fst) :
    withoutPrivate called ≠ kwargs := by
  rintro rfl
  obtain ⟨entry, hmem, he⟩ := List.mem_map.1 hkey
  have hp := (List.mem_filter.1 hmem).2
  rw [he] at hp
  simp [privateKeys] at hp

theorem middlewareRequest_mem_chainKwargs (kwargs : Kwargs ρ) :
    "_middleware_request" ∈ (chainKwargs kwargs).map Prod.fst :=
  List.mem_map.2 ⟨_, Dict.mem_set (poppedKwargs kwargs) "_middleware_request" _, rfl⟩

/-- The handler stages of the two passes agree, the second on the dictionary
`left`. -/
def HandlerAgrees (runtime : Runtime ρ) (endpoint : Endpoint ρ) (kwargs left : Kwargs ρ) :
    Prop :=
  (endpoint.defersExtractionErrors = true ∨
      (endpoint.hasHttpMiddleware = true ∧ deferredErrors kwargs = none)) ∧
    swapRequest kwargs = left ∧
    RendersAlike runtime (endpoint.result (swapRequest kwargs))

section

variable (runtime : Runtime ρ) (endpoint : Endpoint ρ)

theorem fallbackHandler_eq (kwargs : Kwargs ρ) :
    fallbackHandler runtime endpoint kwargs =
      ⟨[.endpoint kwargs, .handled (.finished (fallbackConvert runtime (endpoint.result kwargs)))],
        .finished (fallbackConvert runtime (endpoint.result kwargs))⟩ := by
  unfold fallbackHandler fallbackConvert
  cases endpoint.result kwargs <;> rfl

private theorem callHandlerSync_settled_eq (kwargs : Kwargs ρ)
    (he : endpoint.defersExtractionErrors = true ∨ deferredErrors kwargs = none) :
    callHandlerSync runtime (settledEndpoint endpoint) kwargs =
      ⟨[.endpoint (callKwargs endpoint kwargs),
          .handled (.finished (convert runtime (endpoint.result (callKwargs endpoint kwargs))))],
        .finished (convert runtime (endpoint.result (callKwargs endpoint kwargs)))⟩ := by
  have hc : callKwargs (settledEndpoint endpoint) kwargs = callKwargs endpoint kwargs := rfl
  have ha : invokeEndpoint runtime (settledEndpoint endpoint) (callKwargs endpoint kwargs) =
      .finished (convert runtime (endpoint.result (callKwargs endpoint kwargs))) := by
    simp [invokeEndpoint, Endpoint.suspendsOn, settledEndpoint]
  unfold callHandlerSync
  split
  · simp_all [settledEndpoint]
  · simp only [hc, ha]

theorem handler_passes_eq_iff (kwargs left : Kwargs ρ)
    (hkey : "_middleware_request" ∈ left.map Prod.fst) :
    callHandlerSync runtime (settledEndpoint endpoint) kwargs =
        fallbackHandler runtime endpoint left ↔
      HandlerAgrees runtime endpoint kwargs left := by
  rw [fallbackHandler_eq]
  by_cases he : endpoint.defersExtractionErrors = true ∨ deferredErrors kwargs = none
  · rw [callHandlerSync_settled_eq runtime endpoint kwargs he]
    by_cases hm : endpoint.hasHttpMiddleware = true ∨ endpoint.defersExtractionErrors = true
    · have hc : callKwargs endpoint kwargs = swapRequest kwargs := by
        unfold callKwargs
        rcases hm with h | h <;> simp [h]
      have hside : endpoint.defersExtractionErrors = true ∨
          (endpoint.hasHttpMiddleware = true ∧ deferredErrors kwargs = none) := by
        rcases he with hd | hn
        · exact .inl hd
        · exact hm.elim (fun hw => .inr ⟨hw, hn⟩) .inl
      simp only [HandlerAgrees, hside, hc, true_and, Pass.mk.injEq, List.cons.injEq,
        Event.endpoint.injEq, Event.handled.injEq, Answer.finished.injEq, and_true]
      rw [← convert_eq_fallbackConvert_iff]
      constructor
      · rintro ⟨⟨rfl, hs⟩, -⟩
        exact ⟨rfl, hs⟩
      · rintro ⟨rfl, hs⟩
        exact ⟨⟨rfl, hs⟩, hs⟩
    · simp only [not_or] at hm
      have hc : callKwargs endpoint kwargs = withoutPrivate (swapRequest kwargs) := by
        simp [callKwargs, hm]
      have hne := withoutPrivate_ne left (swapRequest kwargs) hkey
      simp [HandlerAgrees, hm, hc, hne]
  · -- the deferred errors answer in the endpoint's place
    simp only [not_or] at he
    obtain ⟨errors, hsome⟩ := Option.ne_none_iff_exists'.1 he.2
    simp [HandlerAgrees, callHandlerSync, settledEndpoint, he.1, hsome]

end

/-- Along the middlewares that the request reaches, none is an instance with an
async `__call__`, and each acts on the bare request as it does on the whole one;
`handler` is what has to hold if the request gets to the handler stage. -/
def ChainAgrees (runtime : Runtime ρ) (endpoint : Endpoint ρ) (view : RequestView)
    (kwargs : Kwargs ρ) (handler : Prop) : Nat → List (Middleware ρ) → Prop
  | _, [] => handler
  | index, .coroutineFunction body :: rest =>
    match body view, body bareRequest with
    | .answers _ result, .answers _ bare => result = bare
    | .forwards _ after _, .forwards _ bareAfter _ =>
      ChainAgrees runtime endpoint view kwargs handler (index + 1) rest ∧
        ∀ result,
          (settledPass runtime endpoint view kwargs (index + 1) rest).answer =
              .finished result →
            (after result).2 = (bareAfter result).2
    | _, _ => False
  | _, .asyncInstance _ :: _ => False
  | _, .plain result :: _ => result view = result bareRequest

theorem awaitBody_eq_iff (index : Nat) {view bare : RequestView} (hl : view.line = bare.line)
    {inner other : Pass ρ} (hinner : ∃ result, inner.answer = .finished result)
    (body bareBody : Body ρ) :
    awaitBody index view inner body = awaitBody index bare other bareBody ↔
      match body, bareBody with
      | .answers _ result, .answers _ bareResult => result = bareResult
      | .forwards _ after _, .forwards _ bareAfter _ =>
        inner = other ∧
          ∀ result, inner.answer = .finished result → (after result).2 = (bareAfter result).2
      | _, _ => False := by
  obtain ⟨result, hr⟩ := hinner
  cases body with
  | answers suspensions answer =>
    cases bareBody with
    | answers _ bareAnswer => simp [awaitBody, hl]
    | forwards _ bareAfter _ => simp [awaitBody]
  | forwards before after caught =>
    cases bareBody with
    | answers _ bareAnswer => simp [awaitBody]
    | forwards _ bareAfter _ =>
      simp only [awaitBody, hl, hr, Pass.mk.injEq, List.cons.injEq, true_and, Answer.finished.injEq]
      constructor
      · rintro ⟨he, ha⟩
        obtain ⟨hinnerEvents, hreceived⟩ := List.append_inj' he rfl
        have ho : other.answer = .finished result := by
          simpa using hreceived.symm
        have hp : inner = other := by
          cases inner
          cases other
          simp_all
        refine ⟨hp, ?_⟩
        rintro _ rfl
        simpa [ho, resume, settleIn] using ha
      · rintro ⟨rfl, hafter⟩
        have hs := hafter result rfl
        simp [hr, resume, hs]

theorem passes_eq_iff (runtime : Runtime ρ) (endpoint : Endpoint ρ) {view : RequestView}
    (hl : view.line = bareRequest.line) (kwargs left : Kwargs ρ)
    (hkey : "_middleware_request" ∈ left.map Prod.fst) (index : Nat)
    (chain : List (Middleware ρ)) :
    settledPass runtime endpoint view kwargs index chain =
        driveAsyncFallback runtime endpoint left index chain ↔
      ChainAgrees runtime endpoint view kwargs
        (HandlerAgrees runtime endpoint kwargs left) index chain := by
  induction chain generalizing index with
  | nil => exact handler_passes_eq_iff runtime endpoint kwargs left hkey
  | cons middleware rest ih =>
    have hinner := settledPass_finished runtime endpoint view kwargs (index + 1) rest
    cases middleware with
    | coroutineFunction body =>
      rw [settledPass_coroutineFunction, driveAsyncFallback, awaitBody_eq_iff index hl hinner,
        ChainAgrees, ih (index + 1)]
    | asyncInstance body =>
      rw [settledPass_asyncInstance]
      cases body view <;> simp [awaitBody, driveAsyncFallback, ChainAgrees]
    | plain result =>
      simp [settledPass, settledChain, settledMiddleware, runChain, driveAsyncFallback,
        ChainAgrees, hl]

theorem line_eq_of_passes_eq (runtime : Runtime ρ) (endpoint : Endpoint ρ) (view : RequestView)
    (kwargs left : Kwargs ρ) (middleware : Middleware ρ) (rest : List (Middleware ρ))
    (hs : settledPass runtime endpoint view kwargs 0 (middleware :: rest) =
      driveAsyncFallback runtime endpoint left 0 (middleware :: rest)) :
    view.line = bareRequest.line := by
  have he := congrArg (fun pass => pass.events.head?) hs
  cases middleware with
  | coroutineFunction body =>
    rw [settledPass_coroutineFunction] at he
    cases hb : body view <;> cases hbare : body bareRequest <;>
      simpa [driveAsyncFallback, awaitBody, hb, hbare] using he
  | asyncInstance body =>
    rw [settledPass_asyncInstance] at he
    cases hb : body view <;> simp [driveAsyncFallback, awaitBody, hb] at he
  | plain result =>
    simpa [settledPass, settledChain, settledMiddleware, runChain, driveAsyncFallback]
      using he

/-- The conditions on the handler stage.  A door `Request` among the keyword
arguments is swapped by the fallback's caller only if the first pass got to the
handler. -/
def EndpointAgrees (runtime : Runtime ρ) (endpoint : Endpoint ρ) (chain : List (Middleware ρ))
    (kwargs : Kwargs ρ) : Prop :=
  (endpoint.defersExtractionErrors = true ∨
      (endpoint.hasHttpMiddleware = true ∧ deferredErrors (chainKwargs kwargs) = none)) ∧
    (swapRequest (chainKwargs kwargs) = chainKwargs kwargs ∨
      ∀ middleware ∈ chain, ForwardsAtOnce (makeScope kwargs) middleware) ∧
    RendersAlike runtime (endpoint.result (swapRequest (chainKwargs kwargs)))

section

variable (runtime : Runtime ρ) (endpoint : Endpoint ρ) (chain : List (Middleware ρ))
  (kwargs : Kwargs ρ)

private theorem swapRequest_eq_leftKwargs_iff :
    swapRequest (chainKwargs kwargs) = leftKwargs runtime endpoint chain kwargs ↔
      swapRequest (chainKwargs kwargs) = chainKwargs kwargs ∨
        ∀ middleware ∈ chain, ForwardsAtOnce (makeScope kwargs) middleware := by
  have hh := isHandled_runChain_iff runtime endpoint (makeScope kwargs)
    (chainKwargs kwargs) 0 chain
  unfold leftKwargs firstPass
  split
  · rename_i hr
    simp only [true_iff]
    exact .inr (hh.1 hr)
  · rename_i hr
    rw [hh] at hr
    simp [hr]

theorem handlerAgrees_leftKwargs_iff :
    HandlerAgrees runtime endpoint (chainKwargs kwargs)
        (leftKwargs runtime endpoint chain kwargs) ↔
      EndpointAgrees runtime endpoint chain kwargs := by
  rw [HandlerAgrees, EndpointAgrees, swapRequest_eq_leftKwargs_iff]

theorem middlewareRequest_mem_leftKwargs :
    "_middleware_request" ∈ (leftKwargs runtime endpoint chain kwargs).map Prod.fst := by
  unfold leftKwargs
  split
  · rw [swapRequest_keys]
    exact middlewareRequest_mem_chainKwargs kwargs
  · exact middlewareRequest_mem_chainKwargs kwargs

end

/-- When the fallback shows and answers what the first pass would have. -/
def FallbackAgrees (runtime : Runtime ρ) (endpoint : Endpoint ρ) (chain : List (Middleware ρ))
    (kwargs : Kwargs ρ) : Prop :=
  (makeScope kwargs).line = bareRequest.line ∧
    ChainAgrees runtime endpoint (makeScope kwargs) (chainKwargs kwargs)
      (EndpointAgrees runtime endpoint chain kwargs) 0 chain

private theorem settled_not_switches (runtime : Runtime ρ) (endpoint : Endpoint ρ)
    (chain : List (Middleware ρ)) (kwargs : Kwargs ρ) :
    ¬Switches runtime (settledEndpoint endpoint) (settledChain chain) kwargs := by
  obtain ⟨result, hr⟩ := settledPass_finished runtime endpoint (makeScope kwargs)
    (chainKwargs kwargs) 0 chain
  rw [settledPass] at hr
  simp [Switches, ← runChain_suspended_iff, hr]

private theorem wrappedSync_final_eq_iff (runtime : Runtime ρ) (endpoint : Endpoint ρ)
    (middleware : Middleware ρ) (rest : List (Middleware ρ)) (kwargs : Kwargs ρ)
    (hswitch : Switches runtime endpoint (middleware :: rest) kwargs) :
    (wrappedSync runtime endpoint (middleware :: rest) kwargs).final =
        (wrappedSync runtime (settledEndpoint endpoint)
          (settledChain (middleware :: rest)) kwargs).final ↔
      FallbackAgrees runtime endpoint (middleware :: rest) kwargs := by
  have hkey := middlewareRequest_mem_leftKwargs runtime endpoint (middleware :: rest) kwargs
  rw [wrappedSync_of_switches hswitch,
    wrappedSync_of_not_switches (settled_not_switches runtime endpoint _ kwargs), eq_comm]
  rw [FallbackAgrees, ← handlerAgrees_leftKwargs_iff]
  constructor
  · intro hs
    have hl := line_eq_of_passes_eq runtime endpoint _ _ _ middleware rest hs
    exact ⟨hl, (passes_eq_iff runtime endpoint hl _ _ hkey 0 _).1 hs⟩
  · rintro ⟨hl, hc⟩
    exact (passes_eq_iff runtime endpoint hl _ _ hkey 0 _).2 hc

/-- Let some awaits suspend that did not, so that the wrapper switches to the
fallback: what its final pass shows and answers stays the same in exactly these
cases. -/
theorem suspending_awaits_keep_answer_iff (runtime : Runtime ρ) (endpoint : Endpoint ρ)
    (middlewares : List (Middleware ρ)) (kwargs : Kwargs ρ)
    (hswitch : Switches runtime endpoint middlewares.reverse kwargs) :
    (wrapWithHttpMiddlewares runtime endpoint middlewares kwargs).final =
        (wrapWithHttpMiddlewares runtime (settledEndpoint endpoint)
          (middlewares.map settledMiddleware) kwargs).final ↔
      middlewares = [] ∨ FallbackAgrees runtime endpoint middlewares.reverse kwargs := by
  cases middlewares with
  | nil => simp [wrapWithHttpMiddlewares, Passes.final, settledEndpoint]
  | cons last earlier =>
    obtain ⟨outermost, inner, hr⟩ :=
      List.exists_cons_of_ne_nil (by simp : (last :: earlier).reverse ≠ [])
    have hs : ((last :: earlier).map settledMiddleware).reverse =
        settledChain (outermost :: inner) := by
      rw [← List.map_reverse, hr, settledChain]
    rw [hr] at hswitch ⊢
    have hw := wrappedSync_final_eq_iff runtime endpoint outermost inner kwargs hswitch
    rw [← hs] at hw
    simpa [wrapWithHttpMiddlewares, hr] using hw

def sleepsBefore : Middleware String :=
  .coroutineFunction fun _ => .forwards 1 (fun result => (0, result)) none

def markedEndpoint : Endpoint String :=
  { okEndpoint with defersExtractionErrors := true }

/-- A request for `GET /` without headers, whose endpoint returns a response,
comes through the fallback unharmed. -/
theorem sleepsBefore_keeps_answer :
    Switches plainRuntime markedEndpoint [sleepsBefore].reverse [] ∧
      (wrapWithHttpMiddlewares plainRuntime markedEndpoint [sleepsBefore] []).final =
        (wrapWithHttpMiddlewares plainRuntime (settledEndpoint markedEndpoint)
          ([sleepsBefore].map settledMiddleware) []).final := by
  have hs : Switches plainRuntime markedEndpoint [sleepsBefore].reverse [] := by
    simp [Switches, SuspensionEscapes, sleepsBefore, Body.Escapes]
  have he : EndpointAgrees plainRuntime markedEndpoint [sleepsBefore] [] :=
    ⟨.inl rfl, .inl (by decide), trivial⟩
  have ha : FallbackAgrees plainRuntime markedEndpoint [sleepsBefore].reverse [] :=
    ⟨by decide, he, fun _ _ => rfl⟩
  exact ⟨hs,
    (suspending_awaits_keep_answer_iff plainRuntime markedEndpoint [sleepsBefore] []
      hs).2 (.inr ha)⟩

def forbidsPost : Middleware String :=
  .coroutineFunction fun view =>
    if view.method = "POST" then .answers 1 (.returned (.response ⟨403, "forbidden", []⟩))
    else .forwards 1 (fun result => (0, result)) none

/-- The fallback shows it a `GET`, so a `POST` gets through to the endpoint. -/
theorem forbidsPost_lets_post_through :
    Switches plainRuntime okEndpoint [forbidsPost].reverse [("_request_method", .str "POST")] ∧
      (wrapWithHttpMiddlewares plainRuntime okEndpoint [forbidsPost]
          [("_request_method", .str "POST")]).final.answer =
        .finished (.returned (.response ⟨200, "ok", []⟩)) ∧
      (wrapWithHttpMiddlewares plainRuntime (settledEndpoint okEndpoint)
          ([forbidsPost].map settledMiddleware)
          [("_request_method", .str "POST")]).final.answer =
        .finished (.returned (.response ⟨403, "forbidden", []⟩)) := by
  refine ⟨?_, by decide, by decide⟩
  simp [Switches, SuspensionEscapes, forbidsPost, makeScope, textOf, Dict.get?, Body.Escapes]

end FastapiTurbo.MiddlewareFallback
