import FastapiTurbo.Introspection
import FastapiTurbo.Lib.Lists
import FastapiTurbo.Py

/-! The entry coroutine that `_wrap_websocket_endpoint` builds for a WebSocket
endpoint.  The generators that the resolver enters are kept in a list of
`_build_kwargs`, which the entry gets hold of only when the resolution returns. -/
namespace FastapiTurbo.WebSocketEntry

open Lib Py Introspection

inductive Scope where
  | function
  | request
  deriving DecidableEq

/-- A `(gen, is_async, scope)` of the list, under the number of its entry. -/
structure PendingGenerator where
  index : Nat
  isAsync : Bool
  scope : Scope
  send : Resumed PyErr

/-- A dependency callable on its keyword arguments.  Entering a generator is the call
and the first advance. -/
inductive DepCallable (ν : Type) where
  | function (call : Dict String ν → Outcome ν PyErr)
  | coroutine (call : Dict String ν → Outcome ν PyErr)
  | generator (isAsync : Bool) (enter : Dict String ν → Outcome (ν × Resumed PyErr) PyErr)

/-- A parameter that is read from the handshake: the class of its marker, if it has
one, the raw value, the default and the validator of its annotation. -/
structure Scalar (ν : Type) where
  marker : Option String
  raw : Option ν
  default : Option ν
  validate : Option (ν → Outcome ν PyErr)

mutual

inductive Dep (ν : Type) where
  | mk (original : Nat) (useCache : Bool) (scope : Scope) (inputs : DepInputs ν)
      (callable : DepCallable ν)

inductive DepInputs (ν : Type) where
  | nil
  | websocket (name : String) (rest : DepInputs ν)
  | sub (name : String) (dep : Dep ν) (rest : DepInputs ν)
  | scalar (name : String) (param : Scalar ν) (rest : DepInputs ν)
  | variadic (rest : DepInputs ν)

end

variable {ν : Type}

inductive HandlerParam (ν : Type) where
  | websocket (name : String)
  | path (name : String) (validate : Option (ν → Outcome ν PyErr))
  | scalar (name : String) (param : Scalar ν)
  | dep (name : String) (dep : Dep ν)

/-- What a callable reads and does, by its identity. -/
abbrev Signatures (ν : Type) := Nat → DepInputs ν × DepCallable ν

mutual

/-- The inputs and the call of a dependency are those of its callable. -/
def Dep.Follows (signatures : Signatures ν) : Dep ν → Prop
  | .mk original _ _ inputs callable =>
    signatures original = (inputs, callable) ∧ inputs.Follow signatures

def DepInputs.Follow (signatures : Signatures ν) : DepInputs ν → Prop
  | .nil => True
  | .websocket _ rest => rest.Follow signatures
  | .sub _ dep rest => dep.Follows signatures ∧ rest.Follow signatures
  | .scalar _ _ rest => rest.Follow signatures
  | .variadic rest => rest.Follow signatures

end

def HandlerParam.dep? : HandlerParam ν → Option (Dep ν)
  | .dep _ dependency => some dependency
  | _ => none

/-- A WebSocket middleware factory by what applying it to an app comes to: it raises,
is skipped after the second try, or gives an app that does not call the inner one or
reacts to how the inner one ended. -/
inductive Factory where
  | raises (error : PyErr)
  | skipped
  | refuses (outcome : Outcome Unit PyErr)
  | wraps (react : Outcome Unit PyErr → Outcome Unit PyErr)

structure Connection (ν : Type) where
  signatures : Signatures ν
  websocket : ν
  /-- `None`, the value of a path parameter that the router did not bind. -/
  absent : ν
  pathKwargs : Dict String ν
  paramSpec : List (HandlerParam ν)
  extraDependencies : List (Option (Dep ν))
  follow : ∀ dep ∈ paramSpec.filterMap HandlerParam.dep? ++ extraDependencies.filterMap id,
    dep.Follows signatures
  isAsyncEndpoint : Bool
  endpoint : Dict String ν → Outcome Unit PyErr
  /-- The second run of an asynchronous endpoint, on the worker loop. -/
  endpointOnWorker : Dict String ν → Outcome Unit PyErr
  factories : List Factory
  exceptionHandlers : Dict String (PyErr → Outcome Unit PyErr)

def websocketException (code : Nat) (reason : String) : PyErr :=
  ⟨["WebSocketException", "Exception", "BaseException", "object"],
    toString code ++ ": " ++ reason⟩

def Scalar.missing (param : Scalar ν) (name : String) : PyErr :=
  match param.marker with
  | some marker => websocketException 1008 ("missing " ++ marker ++ " '" ++ name ++ "'")
  | none => websocketException 1008 ("missing query parameter '" ++ name ++ "'")

def Scalar.resolve (param : Scalar ν) (name : String) : Outcome ν PyErr :=
  match param.raw, param.default with
  | none, some default => .returned default
  | none, none => .raised (param.missing name)
  | some raw, _ =>
    match param.validate with
    | none => .returned raw
    | some validate => validate raw

structure Resolution (ν : Type) where
  generators : List PendingGenerator
  cache : Dict Nat ν

/-- A step of the resolver: what it leaves in the lists stays there when it raises. -/
abbrev Resolved (ν α : Type) := Resolution ν × Outcome α PyErr

namespace Resolved

variable {α β : Type}

def andThen (step : Resolved ν α) (next : α → Resolution ν → Resolved ν β) : Resolved ν β :=
  match step with
  | (state, .returned value) => next value state
  | (state, .raised error) => (state, .raised error)

theorem andThen_andThen {γ : Type} (step : Resolved ν α) (next : α → Resolution ν → Resolved ν β)
    (last : β → Resolution ν → Resolved ν γ) :
    (step.andThen next).andThen last =
      step.andThen fun value state => (next value state).andThen last := by
  obtain ⟨state, outcome⟩ := step
  cases outcome <;> rfl

end Resolved

def invoke (callable : DepCallable ν) (scope : Scope) (depKwargs : Dict String ν)
    (state : Resolution ν) : Resolved ν ν :=
  match callable with
  | .function call => (state, call depKwargs)
  | .coroutine call => (state, call depKwargs)
  | .generator isAsync enter =>
    match enter depKwargs with
    | .raised error => (state, .raised error)
    | .returned (value, send) =>
      let generator := ⟨state.generators.length, isAsync, scope, send⟩
      ({ state with generators := state.generators ++ [generator] }, .returned value)

def cached (original : Nat) (useCache : Bool) (value : ν) (state : Resolution ν) :
    Resolved ν ν :=
  (if useCache then { state with cache := state.cache.set original value } else state,
    .returned value)

mutual

def resolveDepAsync (ws : ν) : Dep ν → Resolution ν → Resolved ν ν
  | .mk original useCache scope inputs callable, state =>
    match if useCache then state.cache.get? original else none with
    | some value => (state, .returned value)
    | none =>
      (resolveInputs ws inputs [] state).andThen fun depKwargs state =>
        (invoke callable scope depKwargs state).andThen (cached original useCache)

def resolveInputs (ws : ν) : DepInputs ν → Dict String ν → Resolution ν →
    Resolved ν (Dict String ν)
  | .nil, depKwargs, state => (state, .returned depKwargs)
  | .websocket name rest, depKwargs, state =>
    resolveInputs ws rest (depKwargs.set name ws) state
  | .sub name dep rest, depKwargs, state =>
    (resolveDepAsync ws dep state).andThen fun value state =>
      resolveInputs ws rest (depKwargs.set name value) state
  | .scalar name param rest, depKwargs, state =>
    Resolved.andThen (state, param.resolve name) fun value state =>
      resolveInputs ws rest (depKwargs.set name value) state
  | .variadic rest, depKwargs, state => resolveInputs ws rest depKwargs state

end

namespace Connection

variable (conn : Connection ν)

def resolveParam (param : HandlerParam ν) (kwargs : Dict String ν) (state : Resolution ν) :
    Resolved ν (Dict String ν) :=
  match param with
  | .websocket name => (state, .returned (kwargs.set name conn.websocket))
  | .path name validate =>
    match conn.pathKwargs.get? name, validate with
    | some value, some validate =>
      Resolved.andThen (state, validate value) fun value state =>
        (state, .returned (kwargs.set name value))
    | some value, none => (state, .returned (kwargs.set name value))
    | none, _ => (state, .returned (kwargs.set name conn.absent))
  | .scalar name param =>
    Resolved.andThen (state, param.resolve name) fun value state =>
      (state, .returned (kwargs.set name value))
  | .dep name dep =>
    (resolveDepAsync conn.websocket dep state).andThen fun value state =>
      (state, .returned (kwargs.set name value))

def resolveParams : List (HandlerParam ν) → Dict String ν → Resolution ν →
    Resolved ν (Dict String ν)
  | [], kwargs, state => (state, .returned kwargs)
  | param :: rest, kwargs, state =>
    (conn.resolveParam param kwargs state).andThen (resolveParams rest)

def resolveExtra : List (Option (Dep ν)) → Resolution ν → Resolved ν Unit
  | [], state => (state, .returned ())
  | none :: rest, state => resolveExtra rest state
  | some dep :: rest, state =>
    (resolveDepAsync conn.websocket dep state).andThen fun _ => resolveExtra rest

/-- The state holds the generators that were entered, also when `_build_kwargs`
raises; its caller sees them only in what it returns. -/
def buildKwargs : Resolved ν (Dict String ν) :=
  (conn.resolveParams conn.paramSpec conn.pathKwargs ⟨[], []⟩).andThen fun kwargs state =>
    (conn.resolveExtra conn.extraDependencies state).andThen fun _ state =>
      (state, .returned kwargs)

end Connection

def mentionsNoLoop (error : PyErr) : Bool :=
  error.mentions "no running event loop" || error.mentions "no current event loop"

/-- What a call of the inner app comes to: the generators that were entered, the list
that the entry then holds, and how the call ended. -/
structure Invocation where
  entered : List PendingGenerator
  generators : List PendingGenerator
  outcome : Outcome Unit PyErr

namespace Connection

variable (conn : Connection ν)

def callEndpoint (kwargs : Dict String ν) : Outcome Unit PyErr :=
  match conn.endpoint kwargs with
  | .returned () => .returned ()
  | .raised error =>
    if conn.isAsyncEndpoint && error.isInstance "RuntimeError" && mentionsNoLoop error then
      conn.endpointOnWorker kwargs
    else .raised error

def runHandlerInner : Invocation :=
  match conn.buildKwargs with
  | (state, .returned kwargs) => ⟨state.generators, state.generators, conn.callEndpoint kwargs⟩
  | (state, .raised error) =>
    ⟨state.generators, [],
      if error.isInstance "WebSocketException" then .returned () else .raised error⟩

def wrap : List Factory → Invocation → Invocation
  | [], app => app
  | .raises error :: _, _ => ⟨[], [], .raised error⟩
  | .skipped :: rest, app => wrap rest app
  | .refuses outcome :: rest, _ => wrap rest ⟨[], [], outcome⟩
  | .wraps react :: rest, app => wrap rest { app with outcome := react app.outcome }

def invokeWithMiddleware : Invocation :=
  wrap conn.factories.reverse conn.runHandlerInner

def swallow : Outcome Unit PyErr → Outcome Unit PyErr
  | .returned () => .returned ()
  | .raised error => if error.isInstance "Exception" then .returned () else .raised error

def validationErrorClass : String :=
  "WebSocketRequestValidationError"

def exceptionArm (error : PyErr) : Outcome Unit PyErr :=
  if error.isInstance validationErrorClass && !conn.exceptionHandlers.isEmpty then
    match conn.exceptionHandlers.get? validationErrorClass with
    | some handler => swallow (handler error)
    | none => .returned ()
  else
    match conn.exceptionHandlers.find? fun entry => error.isInstance entry.1 with
    | some (_, handler) => swallow (handler error)
    | none => .returned ()

def handleOutcome : Outcome Unit PyErr → Outcome Unit PyErr
  | .returned () => .returned ()
  | .raised error =>
    if error.isInstance "WebSocketException" then .returned ()
    else if error.isInstance "Exception" then conn.exceptionArm error
    else .raised error

end Connection

structure Teardown where
  resumed : List Nat
  remaining : List PendingGenerator
  outcome : Outcome Unit PyErr

def Teardown.resuming (generator : PendingGenerator) (rest : Teardown) : Teardown :=
  { rest with resumed := generator.index :: rest.resumed }

def teardownLoop (scopeFilter : Option Scope) : List PendingGenerator → Teardown
  | [] => ⟨[], [], .returned ()⟩
  | generator :: rest =>
    if scopeFilter.any (· ≠ generator.scope) then
      let later := teardownLoop scopeFilter rest
      { later with remaining := generator :: later.remaining }
    else
      match generator.send with
      | .yielded => (teardownLoop scopeFilter rest).resuming generator
      | .stopped => (teardownLoop scopeFilter rest).resuming generator
      | .raised error =>
        if error.isInstance "Exception" then
          (teardownLoop scopeFilter rest).resuming generator
        else ⟨[generator.index], [], .raised error⟩

def teardownGenerators (generators : List PendingGenerator) (scopeFilter : Option Scope) :
    Teardown :=
  teardownLoop scopeFilter generators.reverse

structure Exit where
  entered : List PendingGenerator
  resumed : List Nat
  outcome : Outcome Unit PyErr

def wsEntry (conn : Connection ν) : Exit :=
  let invocation := conn.invokeWithMiddleware
  match conn.handleOutcome invocation.outcome with
  | .raised error => ⟨invocation.entered, [], .raised error⟩
  | .returned () =>
    let teardown := teardownGenerators invocation.generators none
    ⟨invocation.entered, teardown.resumed, teardown.outcome⟩

def Interrupts (send : Resumed PyErr) : Prop :=
  ∃ error, send = .raised error ∧ error.isInstance "Exception" = false

theorem teardownLoop_cons_of_interrupts {generator : PendingGenerator}
    (hinterrupts : Interrupts generator.send) (rest : List PendingGenerator) :
    (teardownLoop none (generator :: rest)).resumed = [generator.index] := by
  obtain ⟨error, hs, hc⟩ := hinterrupts
  simp [teardownLoop, hs, hc]

private theorem teardownLoop_cons_of_passes {generator : PendingGenerator}
    (hp : ¬Interrupts generator.send) (rest : List PendingGenerator) :
    (teardownLoop none (generator :: rest)).resumed =
      generator.index :: (teardownLoop none rest).resumed := by
  cases hs : generator.send with
  | yielded | stopped => simp [teardownLoop, hs, Teardown.resuming]
  | raised error =>
    cases hc : error.isInstance "Exception" with
    | false => exact absurd ⟨error, hs, hc⟩ hp
    | true => simp [teardownLoop, hs, hc, Teardown.resuming]

private theorem teardownLoop_resumed_iff (items : List PendingGenerator) :
    (teardownLoop none items).resumed = items.map PendingGenerator.index ↔
      ∀ generator ∈ items.dropLast, ¬Interrupts generator.send := by
  induction items with
  | nil => simp [teardownLoop]
  | cons generator rest ih =>
    by_cases hinterrupts : Interrupts generator.send
    · rw [teardownLoop_cons_of_interrupts hinterrupts]
      cases rest with
      | nil => simp
      | cons next later => simp [hinterrupts]
    · rw [teardownLoop_cons_of_passes hinterrupts, List.map_cons, List.cons_inj_right, ih]
      cases rest with
      | nil => simp
      | cons next later => simp [hinterrupts]

theorem teardownGenerators_resumed_iff (generators : List PendingGenerator) :
    (teardownGenerators generators none).resumed =
        (generators.map PendingGenerator.index).reverse ↔
      ∀ generator ∈ generators.tail, ¬Interrupts generator.send := by
  unfold teardownGenerators
  rw [← List.map_reverse, teardownLoop_resumed_iff]
  simp

theorem wrap_cases (factories : List Factory) (app : Invocation) :
    (Connection.wrap factories app).entered = [] ∧
        (Connection.wrap factories app).generators = [] ∨
      (Connection.wrap factories app).entered = app.entered ∧
        (Connection.wrap factories app).generators = app.generators := by
  induction factories generalizing app with
  | nil => exact .inr ⟨rfl, rfl⟩
  | cons factory rest ih =>
    cases factory with
    | raises error => exact .inl ⟨rfl, rfl⟩
    | skipped => exact ih app
    | refuses outcome => exact .inl ((ih ⟨[], [], outcome⟩).elim id id)
    | wraps react => exact ih { app with outcome := react app.outcome }

/-! ### What the dependencies give

The values of a tree by recursion on it, without the cache, and the dependencies that are called
when the callables that are cached are passed over. -/

def DepCallable.value (depKwargs : Dict String ν) : DepCallable ν → Outcome ν PyErr
  | .function call | .coroutine call => call depKwargs
  | .generator _ enter => (enter depKwargs).map Prod.fst

def DepCallable.opened (depKwargs : Dict String ν) : DepCallable ν → Option (Resumed PyErr)
  | .generator _ enter =>
    match enter depKwargs with
    | .returned (_, send) => some send
    | .raised _ => none
  | _ => none

mutual

def Dep.value (ws : ν) : Dep ν → Outcome ν PyErr
  | .mk _ _ _ inputs callable => (inputs.kwargs ws []).bind (callable.value ·)

def DepInputs.kwargs (ws : ν) : DepInputs ν → Dict String ν → Outcome (Dict String ν) PyErr
  | .nil, kwargs => .returned kwargs
  | .websocket name rest, kwargs => rest.kwargs ws (kwargs.set name ws)
  | .sub name dep rest, kwargs =>
    (dep.value ws).bind fun value => rest.kwargs ws (kwargs.set name value)
  | .scalar name param rest, kwargs =>
    (param.resolve name).bind fun value => rest.kwargs ws (kwargs.set name value)
  | .variadic rest, kwargs => rest.kwargs ws kwargs

end

/-- The generator that calling the dependency leaves open. -/
def Dep.opened (ws : ν) : Dep ν → Option (Resumed PyErr)
  | .mk _ _ _ inputs callable =>
    match inputs.kwargs ws [] with
    | .returned kwargs => callable.opened kwargs
    | .raised _ => none

/-- The dependencies that are called, in order, and the callables that are cached afterwards. -/
abbrev Calls (ν : Type) := List (Dep ν) × List Nat

def Calls.followedBy (calls : Calls ν) (next : List Nat → Calls ν) : Calls ν :=
  (calls.1 ++ (next calls.2).1, (next calls.2).2)

mutual

def Dep.calls (seen : List Nat) : Dep ν → Calls ν
  | .mk original useCache scope inputs callable =>
    if useCache && seen.contains original then ([], seen)
    else (inputs.calls seen).followedBy fun seen =>
      ([.mk original useCache scope inputs callable], if useCache then original :: seen else seen)

def DepInputs.calls (seen : List Nat) : DepInputs ν → Calls ν
  | .nil => ([], seen)
  | .websocket _ rest => rest.calls seen
  | .sub _ dep rest => (dep.calls seen).followedBy rest.calls
  | .scalar _ _ rest => rest.calls seen
  | .variadic rest => rest.calls seen

end

def callsOf (seen : List Nat) : List (Dep ν) → Calls ν
  | [] => ([], seen)
  | dep :: rest => (dep.calls seen).followedBy (callsOf · rest)

def HandlerParam.name : HandlerParam ν → String
  | .websocket name | .path name _ | .scalar name _ | .dep name _ => name

namespace Connection

variable (conn : Connection ν)

def value : HandlerParam ν → Outcome ν PyErr
  | .websocket _ => .returned conn.websocket
  | .path name validate =>
    match conn.pathKwargs.get? name, validate with
    | some value, some validate => validate value
    | some value, none => .returned value
    | none, _ => .returned conn.absent
  | .scalar name param => param.resolve name
  | .dep _ dep => dep.value conn.websocket

def handlerKwargs : List (HandlerParam ν) → Dict String ν → Outcome (Dict String ν) PyErr
  | [], kwargs => .returned kwargs
  | param :: rest, kwargs => (conn.value param).bind fun value =>
    handlerKwargs rest (kwargs.set param.name value)

def extraValues : List (Dep ν) → Outcome Unit PyErr
  | [] => .returned ()
  | dep :: rest => (dep.value conn.websocket).bind fun _ => extraValues rest

/-- The keyword arguments, if the parameters and the dependencies of the route have values. -/
def values : Outcome (Dict String ν) PyErr :=
  (conn.handlerKwargs conn.paramSpec conn.pathKwargs).bind fun kwargs =>
    (conn.extraValues (conn.extraDependencies.filterMap id)).bind fun _ => .returned kwargs

def calls : Calls ν :=
  (callsOf [] (conn.paramSpec.filterMap HandlerParam.dep?)).followedBy
    (callsOf · (conn.extraDependencies.filterMap id))

/-- The generators that the calls leave open, in the order in which they are entered. -/
def opened : List (Resumed PyErr) :=
  conn.calls.1.filterMap (Dep.opened conn.websocket)

/-- What comes out of the middlewares around a handler that ends so. -/
def leaving (outcome : Outcome Unit PyErr) : Outcome Unit PyErr :=
  (wrap conn.factories.reverse ⟨[], [], outcome⟩).outcome

/-- The exception handler that is called for an error. -/
def handlerFor (error : PyErr) : Option (PyErr → Outcome Unit PyErr) :=
  if error.isInstance validationErrorClass && !conn.exceptionHandlers.isEmpty then
    conn.exceptionHandlers.get? validationErrorClass
  else (conn.exceptionHandlers.find? fun entry => error.isInstance entry.1).map Prod.snd

/-- Nothing but an `Exception` comes out, and none but an `Exception` out of the handler that
is called for it. -/
def Contained (outcome : Outcome Unit PyErr) : Prop :=
  ∀ error, outcome = .raised error → error.isInstance "WebSocketException" = true ∨
    error.isInstance "Exception" = true ∧ ∀ handler ∈ conn.handlerFor error, ∀ later,
      handler error = .raised later → later.isInstance "Exception" = true

end Connection

/-- The parameters resolve, and nothing but an `Exception` comes out of the handler and the
middlewares around it, or out of a generator that has others to be resumed after it. -/
def Released (conn : Connection ν) : Prop :=
  ∃ kwargs, conn.values = .returned kwargs ∧
    conn.Contained (conn.leaving (conn.callEndpoint kwargs)) ∧
    ∀ send ∈ conn.opened.tail, ¬Interrupts send

def Resolution.sends (state : Resolution ν) : List (Resumed PyErr) :=
  state.generators.map PendingGenerator.send

section Yields

variable {ws : ν} {signatures : Signatures ν} {seen : List Nat} {state : Resolution ν}

/-- The cache holds what its callables give, and it has those that were seen.  The generators
carry their places in the list, so that a number stands for one of them. -/
structure Sound (ws : ν) (signatures : Signatures ν) (seen : List Nat) (state : Resolution ν) :
    Prop where
  sound : ∀ original value, state.cache.get? original = some value →
    ((signatures original).1.kwargs ws []).bind ((signatures original).2.value ·) = .returned value
  seen : ∀ original, (state.cache.get? original).isSome = seen.contains original
  numbered : state.generators.map PendingGenerator.index = List.range state.generators.length

/-- The step comes to what is expected, and if that is a value, it made these calls. -/
structure Yields (ws : ν) (signatures : Signatures ν) (state : Resolution ν) (calls : Calls ν)
    {α : Type} (expected : Outcome α PyErr) (step : Resolved ν α) : Prop where
  outcome : step.2 = expected
  sound : ∀ value, expected = .returned value → Sound ws signatures calls.2 step.1
  sends : ∀ value, expected = .returned value →
    step.1.sends = state.sends ++ calls.1.filterMap (Dep.opened ws)

theorem yields_raised {α : Type} (calls : Calls ν) (error : PyErr) (after : Resolution ν) :
    Yields ws signatures state calls (.raised error : Outcome α PyErr) (after, .raised error) :=
  ⟨rfl, fun _ hv => by simp at hv, fun _ hv => by simp at hv⟩

theorem Yields.andThen {α β : Type} {step : Resolved ν α} {next : α → Resolution ν → Resolved ν β}
    {expected : Outcome α PyErr} {later : α → Outcome β PyErr} {calls : Calls ν}
    {rest : List Nat → Calls ν} (hs : Yields ws signatures state calls expected step)
    (hn : ∀ value, expected = .returned value → Sound ws signatures calls.2 step.1 →
      Yields ws signatures step.1 (rest calls.2) (later value) (next value step.1)) :
    Yields ws signatures state (calls.followedBy rest) (expected.bind later)
      (step.andThen next) := by
  obtain ⟨after, outcome⟩ := step
  obtain ⟨rfl, hsound, hsends⟩ := hs
  cases outcome with
  | raised error => exact yields_raised _ error _
  | returned value =>
    have hnext := hn value rfl (hsound value rfl)
    refine ⟨hnext.outcome, hnext.sound, fun result hr => ?_⟩
    simp only [Resolved.andThen, hnext.sends result hr, hsends value rfl, Calls.followedBy,
      List.filterMap_append, List.append_assoc]

theorem Yields.resolved {α β : Type} {outcome : Outcome α PyErr}
    {next : α → Resolution ν → Resolved ν β} {later : α → Outcome β PyErr} {calls : Calls ν}
    (hn : ∀ value, Yields ws signatures state calls (later value) (next value state)) :
    Yields ws signatures state calls (outcome.bind later)
      (Resolved.andThen (state, outcome) next) := by
  cases outcome with
  | raised error => exact yields_raised _ error _
  | returned value => exact hn value

theorem Yields.map {α β : Type} {step : Resolved ν α} {expected : Outcome α PyErr}
    {calls : Calls ν} (hs : Yields ws signatures state calls expected step) (result : α → β) :
    Yields ws signatures state calls (expected.bind fun value => .returned (result value))
      (step.andThen fun value state => (state, .returned (result value))) := by
  obtain ⟨after, outcome⟩ := step
  obtain ⟨rfl, hsound, hsends⟩ := hs
  cases outcome with
  | raised error => exact yields_raised _ error _
  | returned value => exact ⟨rfl, fun _ _ => hsound value rfl, fun _ _ => hsends value rfl⟩

theorem yields_of_outcome {α : Type} (hc : Sound ws signatures seen state)
    (outcome : Outcome α PyErr) :
    Yields ws signatures state ([], seen) outcome (state, outcome) :=
  ⟨rfl, fun _ _ => hc, fun _ _ => by simp⟩

theorem invoke_spec (callable : DepCallable ν) (scope : Scope) (depKwargs : Dict String ν)
    (hc : Sound ws signatures seen state) :
    (invoke callable scope depKwargs state).2 = callable.value depKwargs ∧
      (invoke callable scope depKwargs state).1.sends =
        state.sends ++ (callable.opened depKwargs).toList ∧
      Sound ws signatures seen (invoke callable scope depKwargs state).1 := by
  cases callable with
  | function call | coroutine call => exact ⟨rfl, by simp [invoke, DepCallable.opened], hc⟩
  | generator isAsync enter =>
    simp only [invoke, DepCallable.value, DepCallable.opened]
    cases enter depKwargs with
    | raised error => exact ⟨rfl, by simp, hc⟩
    | returned entered =>
      exact ⟨rfl, by simp [Resolution.sends], hc.sound, hc.seen,
        map_eq_range_concat hc.numbered rfl⟩

private theorem cached_spec {original : Nat} (useCache : Bool) {value : ν}
    (hv : ((signatures original).1.kwargs ws []).bind ((signatures original).2.value ·) =
      .returned value) (hc : Sound ws signatures seen state) :
    (cached original useCache value state).1.sends = state.sends ∧
      Sound ws signatures (if useCache then original :: seen else seen)
        (cached original useCache value state).1 := by
  cases useCache with
  | false => exact ⟨rfl, hc⟩
  | true =>
    refine ⟨rfl, fun other held hh => ?_, fun other => ?_, hc.numbered⟩
    · simp only [cached, if_true, Dict.get?_set] at hh
      split at hh
      · cases hh
        simp_all
      · exact hc.sound other held hh
    · simp only [cached, if_true, Dict.get?_set]
      split <;> simp_all [hc.seen other]

/-- The call of a dependency whose inputs have been resolved, and the entry in the cache. -/
theorem invoke_yields {original : Nat} {useCache : Bool} {scope : Scope} {inputs : DepInputs ν}
    {callable : DepCallable ν} {depKwargs : Dict String ν}
    (hsignature : signatures original = (inputs, callable))
    (hk : inputs.kwargs ws [] = .returned depKwargs) (hc : Sound ws signatures seen state) :
    Yields ws signatures state
      ([.mk original useCache scope inputs callable], if useCache then original :: seen else seen)
      (callable.value depKwargs)
      ((invoke callable scope depKwargs state).andThen (cached original useCache)) := by
  obtain ⟨houtcome, hsends, hinvoked⟩ := invoke_spec callable scope depKwargs hc
  generalize invoke callable scope depKwargs state = step at *
  obtain ⟨after, outcome⟩ := step
  obtain rfl := houtcome
  cases hv : callable.value depKwargs with
  | raised error => exact yields_raised _ error after
  | returned value =>
    have hgives : ((signatures original).1.kwargs ws []).bind ((signatures original).2.value ·) =
        .returned value := by
      simp only [hsignature, hk]
      exact hv
    obtain ⟨hkept, hcached⟩ := cached_spec useCache hgives hinvoked
    refine ⟨rfl, fun _ _ => hcached, fun _ _ => ?_⟩
    have hopened : Dep.opened ws (.mk original useCache scope inputs callable) =
        callable.opened depKwargs := by rw [Dep.opened, hk]
    rw [Resolved.andThen, hkept, hsends, List.filterMap_cons, hopened]
    cases callable.opened depKwargs <;> rfl

mutual

theorem resolveDepAsync_yields (dep : Dep ν) (seen : List Nat) (state : Resolution ν)
    (hf : dep.Follows signatures) (hc : Sound ws signatures seen state) :
    Yields ws signatures state (dep.calls seen) (dep.value ws) (resolveDepAsync ws dep state) := by
  obtain ⟨original, useCache, scope, inputs, callable⟩ := dep
  rw [Dep.Follows] at hf
  have hseen := hc.seen original
  unfold resolveDepAsync
  split
  case h_1 value hhit =>
    cases useCache with
    | false => simp at hhit
    | true =>
      rw [if_pos rfl] at hhit
      have hvalue := hc.sound original value hhit
      rw [hf.1] at hvalue
      rw [Dep.calls, Dep.value, ← hseen, hhit, hvalue]
      exact yields_of_outcome hc _
  case h_2 hmiss =>
    rw [Dep.calls, Dep.value, if_neg (by cases useCache <;> simp_all)]
    exact (resolveInputs_yields inputs [] seen state hf.2 hc).andThen fun depKwargs hk hsound =>
      invoke_yields hf.1 hk hsound

theorem resolveInputs_yields (inputs : DepInputs ν) (depKwargs : Dict String ν)
    (seen : List Nat) (state : Resolution ν) (hf : inputs.Follow signatures)
    (hc : Sound ws signatures seen state) :
    Yields ws signatures state (inputs.calls seen) (inputs.kwargs ws depKwargs)
      (resolveInputs ws inputs depKwargs state) := by
  cases inputs with
  | nil =>
    unfold resolveInputs DepInputs.calls DepInputs.kwargs
    exact yields_of_outcome hc _
  | websocket name rest =>
    unfold resolveInputs DepInputs.calls DepInputs.kwargs
    exact resolveInputs_yields rest _ seen state hf hc
  | sub name dep rest =>
    unfold resolveInputs DepInputs.calls DepInputs.kwargs
    exact (resolveDepAsync_yields dep seen state hf.1 hc).andThen fun value _ hsound =>
      resolveInputs_yields rest _ _ _ hf.2 hsound
  | scalar name param rest =>
    unfold resolveInputs DepInputs.calls DepInputs.kwargs
    exact .resolved fun value => resolveInputs_yields rest _ seen state hf hc
  | variadic rest =>
    unfold resolveInputs DepInputs.calls DepInputs.kwargs
    exact resolveInputs_yields rest depKwargs seen state hf hc

end

end Yields

namespace Connection

variable (conn : Connection ν)

abbrev Gives {α : Type} (state : Resolution ν) (calls : Calls ν) (expected : Outcome α PyErr)
    (step : Resolved ν α) : Prop :=
  Yields conn.websocket conn.signatures state calls expected step

variable {conn}

theorem resolveParams_yields (params : List (HandlerParam ν)) (seen : List Nat)
    (kwargs : Dict String ν) (state : Resolution ν)
    (hf : ∀ dep ∈ params.filterMap HandlerParam.dep?, dep.Follows conn.signatures)
    (hc : Sound conn.websocket conn.signatures seen state) :
    conn.Gives state (callsOf seen (params.filterMap HandlerParam.dep?))
      (conn.handlerKwargs params kwargs) (conn.resolveParams params kwargs state) := by
  induction params generalizing seen kwargs state with
  | nil => exact yields_of_outcome hc _
  | cons param rest ih =>
    rw [resolveParams]
    cases param with
    | websocket name => exact ih seen _ state hf hc
    | path name validate =>
      simp only [handlerKwargs, value, resolveParam]
      split
      · rw [Resolved.andThen_andThen]
        exact .resolved fun value => ih seen _ state hf hc
      · exact ih seen _ state hf hc
      · exact ih seen _ state hf hc
    | scalar name param =>
      rw [resolveParam, Resolved.andThen_andThen]
      exact .resolved fun value => ih seen _ state hf hc
    | dep name dep =>
      have hall := List.forall_mem_cons.1 hf
      rw [resolveParam, Resolved.andThen_andThen]
      exact (resolveDepAsync_yields dep seen state hall.1 hc).andThen fun value _ hsound =>
        ih _ _ _ hall.2 hsound

private theorem resolveExtra_yields (deps : List (Option (Dep ν))) (seen : List Nat)
    (state : Resolution ν) (hf : ∀ dep ∈ deps.filterMap id, dep.Follows conn.signatures)
    (hc : Sound conn.websocket conn.signatures seen state) :
    conn.Gives state (callsOf seen (deps.filterMap id)) (conn.extraValues (deps.filterMap id))
      (conn.resolveExtra deps state) := by
  induction deps generalizing seen state with
  | nil => exact yields_of_outcome hc _
  | cons dep rest ih =>
    cases dep with
    | none => exact ih seen state hf hc
    | some dep =>
      have hall := List.forall_mem_cons.1 hf
      exact (resolveDepAsync_yields dep seen state hall.1 hc).andThen fun _ _ hsound =>
        ih _ _ hall.2 hsound

theorem buildKwargs_yields (conn : Connection ν) :
    conn.Gives ⟨[], []⟩ conn.calls conn.values conn.buildKwargs := by
  have hf := List.forall_mem_append.1 conn.follow
  have hc : Sound conn.websocket conn.signatures [] ⟨[], []⟩ :=
    ⟨fun _ _ hg => by simp [Dict.get?] at hg, fun _ => by simp [Dict.get?], rfl⟩
  exact (resolveParams_yields conn.paramSpec [] conn.pathKwargs _ hf.1 hc).andThen
    fun kwargs _ hsound =>
      (resolveExtra_yields conn.extraDependencies _ _ hf.2 hsound).map fun _ => kwargs

end Connection

theorem runHandlerInner_entered (conn : Connection ν) :
    conn.runHandlerInner.entered = conn.buildKwargs.1.generators := by
  unfold Connection.runHandlerInner
  split <;> simp_all

variable {conn : Connection ν}

theorem runHandlerInner_generators_of_returned {kwargs : Dict String ν}
    (hb : conn.buildKwargs.2 = .returned kwargs) :
    conn.runHandlerInner.generators = conn.runHandlerInner.entered := by
  unfold Connection.runHandlerInner
  split <;> simp_all

variable {error : PyErr}

theorem runHandlerInner_generators_of_raised (hb : conn.buildKwargs.2 = .raised error) :
    conn.runHandlerInner.generators = [] := by
  unfold Connection.runHandlerInner
  split <;> simp_all

theorem invokeWithMiddleware_generators_of_returned {kwargs : Dict String ν}
    (hb : conn.buildKwargs.2 = .returned kwargs) :
    conn.invokeWithMiddleware.generators = conn.invokeWithMiddleware.entered := by
  unfold Connection.invokeWithMiddleware
  rcases wrap_cases conn.factories.reverse conn.runHandlerInner with
    ⟨he, hg⟩ | ⟨he, hg⟩
  · rw [he, hg]
  · rw [he, hg, runHandlerInner_generators_of_returned hb]

theorem invokeWithMiddleware_generators_of_raised (hb : conn.buildKwargs.2 = .raised error) :
    conn.invokeWithMiddleware.generators = [] := by
  unfold Connection.invokeWithMiddleware
  rcases wrap_cases conn.factories.reverse conn.runHandlerInner with
    ⟨-, hg⟩ | ⟨-, hg⟩
  · exact hg
  · rw [hg, runHandlerInner_generators_of_raised hb]

theorem wsEntry_entered (conn : Connection ν) :
    (wsEntry conn).entered = conn.invokeWithMiddleware.entered := by
  simp only [wsEntry]
  split <;> rfl

theorem wsEntry_resumed_of_escapes
    (he : conn.handleOutcome conn.invokeWithMiddleware.outcome = .raised error) :
    (wsEntry conn).resumed = [] := by
  simp [wsEntry, he]

theorem wsEntry_resumed_of_handled
    (hh : conn.handleOutcome conn.invokeWithMiddleware.outcome = .returned ()) :
    (wsEntry conn).resumed =
      (teardownGenerators conn.invokeWithMiddleware.generators none).resumed := by
  simp [wsEntry, hh]

private theorem wrap_outcome (factories : List Factory) (app : Invocation) :
    (Connection.wrap factories app).outcome =
      (Connection.wrap factories ⟨[], [], app.outcome⟩).outcome := by
  induction factories generalizing app with
  | nil => rfl
  | cons factory rest ih =>
    cases factory with
    | raises error | refuses outcome => rfl
    | skipped => exact ih app
    | wraps react => exact ih { app with outcome := react app.outcome }

theorem invokeWithMiddleware_outcome {kwargs : Dict String ν}
    (hb : conn.buildKwargs.2 = .returned kwargs) :
    conn.invokeWithMiddleware.outcome = conn.leaving (conn.callEndpoint kwargs) := by
  have hinner : conn.runHandlerInner.outcome = conn.callEndpoint kwargs := by
    unfold Connection.runHandlerInner
    split <;> simp_all
  rw [Connection.invokeWithMiddleware, wrap_outcome, hinner, Connection.leaving]

private theorem swallow_iff (outcome : Outcome Unit PyErr) :
    Connection.swallow outcome = .returned () ↔
      ∀ error, outcome = .raised error → error.isInstance "Exception" = true := by
  cases outcome with
  | returned _ => simp [Connection.swallow]
  | raised error => simp [Connection.swallow]

private theorem exceptionArm_iff (conn : Connection ν) (error : PyErr) :
    conn.exceptionArm error = .returned () ↔ ∀ handler ∈ conn.handlerFor error, ∀ later,
      handler error = .raised later → later.isInstance "Exception" = true := by
  simp only [Connection.exceptionArm, Connection.handlerFor]
  split
  · cases conn.exceptionHandlers.get? Connection.validationErrorClass with
    | none => simp
    | some handler => simp [swallow_iff]
  · cases conn.exceptionHandlers.find? fun entry => error.isInstance entry.1 with
    | none => simp
    | some entry => simp [swallow_iff]

theorem handleOutcome_iff (conn : Connection ν) (outcome : Outcome Unit PyErr) :
    conn.handleOutcome outcome = .returned () ↔ conn.Contained outcome := by
  cases outcome with
  | returned _ => simp [Connection.handleOutcome, Connection.Contained]
  | raised error =>
    rw [Connection.Contained]
    simp only [Connection.handleOutcome, Outcome.raised.injEq, forall_eq', ← exceptionArm_iff]
    split
    · simp_all
    · split <;> simp_all

theorem wsEntry_resumed_of_no_generators (hn : conn.invokeWithMiddleware.generators = []) :
    (wsEntry conn).resumed = [] := by
  cases ho : conn.handleOutcome conn.invokeWithMiddleware.outcome with
  | raised error => exact wsEntry_resumed_of_escapes ho
  | returned _ =>
    rw [wsEntry_resumed_of_handled ho, hn, teardownGenerators, List.reverse_nil, teardownLoop]

/-- Unless the middlewares keep the handler from being called, what was entered is what the
calls leave open. -/
theorem invokeWithMiddleware_entered {kwargs : Dict String ν}
    (hv : conn.values = .returned kwargs) :
    conn.invokeWithMiddleware.entered = [] ∨
      conn.invokeWithMiddleware.entered.map PendingGenerator.send = conn.opened ∧
        conn.invokeWithMiddleware.entered.map PendingGenerator.index =
          List.range conn.invokeWithMiddleware.entered.length := by
  have hsends := conn.buildKwargs_yields.sends kwargs hv
  rcases wrap_cases conn.factories.reverse conn.runHandlerInner with ⟨he, -⟩ | ⟨he, -⟩
  · exact .inl he
  · right
    rw [Connection.invokeWithMiddleware, he, runHandlerInner_entered]
    exact ⟨by simpa [Resolution.sends, Connection.opened] using hsends,
      (conn.buildKwargs_yields.sound kwargs hv).numbered⟩

/-- The entered generators are resumed once each, the last one first, exactly if
none was entered or the connection ends in a way that `Released` describes. -/
theorem wsEntry_resumes_all_iff (conn : Connection ν) :
    (wsEntry conn).resumed = (List.range (wsEntry conn).entered.length).reverse ↔
      (wsEntry conn).entered = [] ∨ Released conn := by
  have hbuilt := conn.buildKwargs_yields
  rw [wsEntry_entered]
  unfold Released
  cases hv : conn.values with
  | raised error =>
    -- The list of the entry is still empty, whatever the resolver entered.
    have hn := invokeWithMiddleware_generators_of_raised (hbuilt.outcome.trans hv)
    simp [wsEntry_resumed_of_no_generators hn]
  | returned kwargs =>
    have hb := hbuilt.outcome.trans hv
    have hout := invokeWithMiddleware_outcome hb
    rcases invokeWithMiddleware_entered hv with he | ⟨hsends, hnumbered⟩
    · have hn := (invokeWithMiddleware_generators_of_returned hb).trans he
      simp [wsEntry_resumed_of_no_generators hn, he]
    · by_cases hcontained : conn.Contained (conn.leaving (conn.callEndpoint kwargs))
      · have ho := (handleOutcome_iff conn _).2 hcontained
        rw [wsEntry_resumed_of_handled (hout ▸ ho), invokeWithMiddleware_generators_of_returned hb,
          ← hnumbered, teardownGenerators_resumed_iff, ← hsends, ← List.map_tail,
          List.forall_mem_map]
        constructor
        · intro hp
          exact .inr ⟨kwargs, rfl, hcontained, hp⟩
        · rintro (hn | ⟨_, -, -, hp⟩)
          · simp [hn]
          · exact hp
      · cases ho : conn.handleOutcome conn.invokeWithMiddleware.outcome with
        | returned _ => exact absurd ((handleOutcome_iff conn _).1 (hout ▸ ho)) hcontained
        | raised error => simp [wsEntry_resumed_of_escapes ho, hcontained]

def sessionConnection (token : Option String) : Connection String where
  websocket := "ws"
  absent := "None"
  pathKwargs := []
  paramSpec := [
    .websocket "websocket",
    .dep "session"
      (.mk 0 true .request .nil (.generator false fun _ => .returned ("session", .stopped))),
    .scalar "token" ⟨some "Query", token, none, none⟩]
  extraDependencies := []
  signatures _ := (.nil, .generator false fun _ => .returned ("session", .stopped))
  follow := by simp [HandlerParam.dep?, Dep.Follows, DepInputs.Follow]
  isAsyncEndpoint := true
  endpoint := fun _ => .returned ()
  endpointOnWorker := fun _ => .returned ()
  factories := []
  exceptionHandlers := []

theorem missing_token_leaves_session_open :
    (wsEntry (sessionConnection none)).entered.map PendingGenerator.index = [0] ∧
      (wsEntry (sessionConnection none)).resumed = [] ∧
      (wsEntry (sessionConnection (some "t"))).resumed = [0] := by
  exact ⟨rfl, rfl, rfl⟩

end FastapiTurbo.WebSocketEntry
