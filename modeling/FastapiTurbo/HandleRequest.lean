import FastapiTurbo.Introspection

/-! `handle_request` for a route with dependencies (`router.rs`): the dependency
loop, the handler, and the teardown of the generators that the loop entered. -/
namespace FastapiTurbo.HandleRequest

open Lib Extract Introspection

variable {ν χ δ : Type}

/-- What `extract_single_param` does to `resolved` and to the accumulated errors;
`abort` is its `Err(resp)`. -/
inductive SingleResult (ν δ : Type) where
  | bind (value : ν)
  | skip
  | reject (errors : List δ)
  | abort (errors : List δ)

/-- An extractor: it may do anything with a parameter, except that a scalar that is
required or has a default is either bound or rejected with an error. -/
structure Extractor (ν δ : Type) where
  extract : FieldParam → SingleResult ν δ
  settles : ∀ param, param.kind.readsForm = false → (param.hasDefault = !param.required) →
    (∃ value, extract param = .bind value) ∨
      ∃ error errors, extract param = .reject (error :: errors)

private theorem whenAbsent_settles (loc : String) (param : FieldParam)
    (hd : param.hasDefault = !param.required) :
    (∃ value, whenAbsent loc param = .bind value) ∨
      ∃ error errors, whenAbsent loc param = .reject (error :: errors) := by
  unfold whenAbsent FieldParam.default
  cases hr : param.required with
  | true | false => simp [hd, hr]

theorem singleStep_settles (parseF64 : List Char → Option UInt64) (request : Request)
    (param : FieldParam) (fields : List Coercion.ParsedField)
    (hk : param.kind.readsForm = false) (hd : param.hasDefault = !param.required) :
    (∃ value, singleStep parseF64 param request fields = .bind value) ∨
      ∃ error errors, singleStep parseF64 param request fields = .reject (error :: errors) := by
  have ht : ∀ loc raw, (∃ value, singleText parseF64 loc param raw = .bind value) ∨
      ∃ error errors, singleText parseF64 loc param raw = .reject (error :: errors) := by
    intro loc raw
    cases raw with
    | some raw => exact .inl ⟨_, rfl⟩
    | none => exact whenAbsent_settles loc param hd
  unfold singleStep
  split
  case h_2 inner _ _ =>
    unfold singleQueryList
    split
    · exact whenAbsent_settles "query" param hd
    · exact .inl ⟨_, rfl⟩
  all_goals first
    | exact ht _ _
    | simp_all [FieldKind.readsForm]

def ofStep : Step → SingleResult Coercion.Value ErrorDetail
  | .bind value => .bind value
  | .skip => .skip
  | .reject errors => .reject errors
  | .abort errors => .abort errors

/-- `extract_single_param` on a request. -/
def singleExtractor (parseF64 : List Char → Option UInt64) (request : Request) :
    Extractor Coercion.Value ErrorDetail where
  extract param :=
    ofStep (singleStep parseF64 param request (request.fields param.wireName))
  settles param hkind hdefault := by
    rcases singleStep_settles parseF64 request param (request.fields param.wireName) hkind
      hdefault with ⟨value, hbind⟩ | ⟨error, errors, hreject⟩
    · exact .inl ⟨value, by rw [hbind, ofStep]⟩
    · exact .inr ⟨error, errors, by rw [hreject, ofStep]⟩

inductive Action (χ : Type) where
  | send
  | throw (error : χ)
  | close
  deriving DecidableEq

structure LiveGenerator (χ : Type) where
  index : Nat
  generator : Generator χ
  isFunctionScope : Bool

structure Invocation (ν χ : Type) where
  param : DependencyParam ν χ
  resolved : Dict String ν

structure LoopState (ν χ δ : Type) where
  resolved : Dict String ν
  depCache : Dict UInt64 String
  genDeps : List (LiveGenerator χ)
  errors : List δ
  failedSources : List String
  calls : List (Invocation ν χ)

def LoopState.initial : LoopState ν χ δ :=
  ⟨[], [], [], [], [], []⟩

inductive Answer (ν χ δ : Type) where
  /-- `dispatch_validation_error` of the errors of the dependency inputs. -/
  | unprocessable (details : List δ)
  /-- The `Err(resp)` of an extractor. -/
  | rejected (details : List δ)
  /-- The user's handler for the exception, else `pyerr_to_response`. -/
  | dependencyError (error : χ)
  | error (error : χ)
  | rendered (result : ν)

section Loop

variable (extractor : Extractor ν δ) (buildInjectedObject : InjectedParam → Outcome ν χ)

def enterSyncGeneratorDep (enter : Dict String ν → Entered ν χ) (depKwargs : Dict String ν)
    (genDeps : List (LiveGenerator χ)) (isFunctionScope : Bool) :
    Outcome (ν × List (LiveGenerator χ)) χ :=
  match enter depKwargs with
  | .yielded value generator =>
    .returned (value, genDeps ++ [⟨genDeps.length, generator, isFunctionScope⟩])
  | .returned value => .returned (value, genDeps)
  | .raised error => .raised error

def callDep (param : DependencyParam ν χ) (depKwargs : Dict String ν)
    (genDeps : List (LiveGenerator χ)) : Outcome (ν × List (LiveGenerator χ)) χ :=
  match param.callable with
  | .generator enter => enterSyncGeneratorDep enter depKwargs genDeps param.isFunctionScope
  | .coroutine call | .function call =>
    match call depKwargs with
    | .returned value => .returned (value, genDeps)
    | .raised error => .raised error

def bindInput (resolved : Dict String ν) (kwargs : Dict String ν) (input : String × String) :
    Dict String ν :=
  match resolved.get? input.2 with
  | some value => kwargs.set input.1 value
  | none => kwargs

def depKwargs (resolved : Dict String ν) (inputNames : List (String × String)) :
    Dict String ν :=
  inputNames.foldl (bindInput resolved) []

def cachedValue (state : LoopState ν χ δ) (param : DependencyParam ν χ) : Option ν :=
  param.callableId.bind fun id => (state.depCache.get? id).bind state.resolved.get?

def cacheInsert (cache : Dict UInt64 String) (param : DependencyParam ν χ) :
    Dict UInt64 String :=
  match param.callableId with
  | some id => cache.set id param.name
  | none => cache

def hasFailedSource (state : LoopState ν χ δ) (param : DependencyParam ν χ) : Bool :=
  param.inputNames.any fun input => state.failedSources.contains input.2

def dependencyArm (state : LoopState ν χ δ) (param : DependencyParam ν χ) :
    LoopState ν χ δ × Option (Answer ν χ δ) :=
  if hasFailedSource state param then (state, none)
  else
    match cachedValue state param with
    | some value => ({ state with resolved := state.resolved.set param.name value }, none)
    | none =>
      let calls := state.calls ++ [⟨param, state.resolved⟩]
      match callDep param (depKwargs state.resolved param.inputNames) state.genDeps with
      | .returned (value, genDeps) =>
        ({ state with
            resolved := state.resolved.set param.name value
            depCache := cacheInsert state.depCache param
            genDeps, calls }, none)
      | .raised error => ({ state with calls }, some (.dependencyError error))

def injectedArm (state : LoopState ν χ δ) (param : InjectedParam) :
    LoopState ν χ δ × Option (Answer ν χ δ) :=
  match buildInjectedObject param with
  | .returned object => ({ state with resolved := state.resolved.set param.name object }, none)
  | .raised error => (state, some (.dependencyError error))

def fieldArm (state : LoopState ν χ δ) (param : FieldParam) :
    LoopState ν χ δ × Option (Answer ν χ δ) :=
  match extractor.extract param with
  | .bind value => ({ state with resolved := state.resolved.set param.name value }, none)
  | .skip | .reject [] => (state, none)
  | .reject errors =>
    ({ state with
        errors := state.errors ++ errors
        failedSources := param.name :: state.failedSources }, none)
  | .abort details => (state, some (.rejected details))

def loopStep (state : LoopState ν χ δ) : Param ν χ → LoopState ν χ δ × Option (Answer ν χ δ)
  | .dependency param => dependencyArm state param
  | .injected param =>
    if param.isHandlerParam then (state, none) else injectedArm buildInjectedObject state param
  | .field param =>
    if param.isHandlerParam then (state, none) else fieldArm extractor state param

def resolveParams : List (Param ν χ) → LoopState ν χ δ →
    LoopState ν χ δ × Option (Answer ν χ δ)
  | [], state => (state, none)
  | param :: rest, state =>
    match loopStep extractor buildInjectedObject state param with
    | (stopped, some answer) => (stopped, some answer)
    | (next, none) => resolveParams rest next

end Loop

section Teardown

def LiveGenerator.advance (live : LiveGenerator χ) : List (Nat × Action χ) :=
  match live.generator.send with
  | .yielded => [(live.index, .send), (live.index, .close)]
  | _ => [(live.index, .send)]

def teardownGeneratorDeps (genDeps : List (LiveGenerator χ)) (errored : Bool) :
    List (Nat × Action χ) :=
  genDeps.reverse.flatMap fun live =>
    if errored then [(live.index, .close)] else live.advance

/-- The loop of `teardown_function_scope_gens`, which returns at the first raise. -/
def functionScopeLoop : List (LiveGenerator χ) → List (Nat × Action χ) × Option χ
  | [] => ([], none)
  | live :: rest =>
    if !live.isFunctionScope then functionScopeLoop rest
    else
      match live.generator.send with
      | .raised error => (live.advance, some error)
      | _ => (live.advance ++ (functionScopeLoop rest).1, (functionScopeLoop rest).2)

def teardownFunctionScopeGens (genDeps : List (LiveGenerator χ)) :
    List (Nat × Action χ) × Option χ :=
  functionScopeLoop genDeps.reverse

def teardownRequestScopeGens (genDeps : List (LiveGenerator χ)) (errored : Bool) :
    List (Nat × Action χ) :=
  genDeps.reverse.flatMap fun live =>
    if live.isFunctionScope then []
    else if errored then [(live.index, .close)]
    else live.advance

/-- What `teardown_request_scope_gens` puts on `_captured_server_exceptions`. -/
def capturedExceptions (genDeps : List (LiveGenerator χ)) : List χ :=
  genDeps.reverse.filterMap fun live =>
    match live.isFunctionScope, live.generator.send with
    | false, .raised error => some error
    | _, _ => none

/-- The loop of `teardown_generator_deps_error` on the error that is still live. -/
def errorLoop : Option χ → List (LiveGenerator χ) → List (Nat × Action χ) × Option χ
  | live, [] => ([], live)
  | some error, gen :: rest =>
    let step : List (Nat × Action χ) × Option χ :=
      match gen.generator.throw error with
      | .stopped => ([(gen.index, .throw error)], none)
      | .raised other => ([(gen.index, .throw error)], some other)
      | .yielded => ([(gen.index, .throw error), (gen.index, .close)], some error)
    (step.1 ++ (errorLoop step.2 rest).1, (errorLoop step.2 rest).2)
  | none, gen :: rest =>
    (gen.advance ++ (errorLoop none rest).1, (errorLoop none rest).2)

/-- `teardown_generator_deps_error`; `fastapiError` is raised for an error that a
dependency swallowed. -/
def teardownGeneratorDepsError (fastapiError : χ) (genDeps : List (LiveGenerator χ))
    (original : χ) : List (Nat × Action χ) × χ :=
  ((errorLoop (some original) genDeps.reverse).1,
    (errorLoop (some original) genDeps.reverse).2.getD fastapiError)

end Teardown

/-- A request to a route with dependencies, by what the parts that `handle_request`
calls make of it. -/
structure Exchange (ν χ δ : Type) where
  params : List (Param ν χ)
  extractor : Extractor ν δ
  buildInjectedObject : InjectedParam → Outcome ν χ
  /-- `extract_params_to_pydict_full`. -/
  extractFull : Outcome (Dict String ν) (List δ)
  injectFrameworkObjects : Dict String ν → Outcome (Dict String ν) χ
  handler : Dict String ν → Outcome ν χ
  /-- The result has a `body_iterator` that `_door_wrap_stream_teardown` wraps. -/
  isStreaming : ν → Bool
  fastapiError : χ

structure Handled (ν χ δ : Type) where
  answer : Answer ν χ δ
  actions : List (Nat × Action χ)
  captured : List χ
  deferred : Bool

def Exchange.resolve (exchange : Exchange ν χ δ) :
    LoopState ν χ δ × Option (Answer ν χ δ) :=
  resolveParams exchange.extractor exchange.buildInjectedObject exchange.params .initial

def overlay (params : List (Param ν χ)) (resolved kwargs : Dict String ν) : Dict String ν :=
  params.foldl (fun kwargs param =>
    match param with
    | .dependency param =>
      if param.isHandlerParam then
        match resolved.get? param.name with
        | some value => kwargs.set param.name value
        | none => kwargs
      else kwargs
    | _ => kwargs) kwargs

/-- What becomes of the request once the dependencies are resolved: an answer
without the handler, or the outcome of the handler. -/
def Exchange.callHandler (exchange : Exchange ν χ δ) (state : LoopState ν χ δ) :
    Answer ν χ δ ⊕ Outcome ν χ :=
  if !state.errors.isEmpty then .inl (.unprocessable state.errors)
  else
    match exchange.extractFull with
    | .raised details => .inl (.rejected details)
    | .returned kwargs =>
      match exchange.injectFrameworkObjects (overlay exchange.params state.resolved kwargs) with
      | .raised error => .inl (.error error)
      | .returned kwargs => .inr (exchange.handler kwargs)

def closeAll (genDeps : List (LiveGenerator χ)) (answer : Answer ν χ δ) : Handled ν χ δ :=
  ⟨answer, teardownGeneratorDeps genDeps true, [], false⟩

def Exchange.afterHandler (exchange : Exchange ν χ δ) (genDeps : List (LiveGenerator χ)) :
    Outcome ν χ → Handled ν χ δ
  | .raised error =>
    let torn := teardownGeneratorDepsError exchange.fastapiError genDeps error
    ⟨.error torn.2, torn.1, [], false⟩
  | .returned result =>
    let torn := teardownFunctionScopeGens genDeps
    match torn.2 with
    | some error =>
      ⟨.dependencyError error, torn.1 ++ teardownRequestScopeGens genDeps true, [], false⟩
    | none =>
      -- A streaming body keeps the request-scope generators open.
      if exchange.isStreaming result && genDeps.any fun live => !live.isFunctionScope then
        ⟨.rendered result, torn.1, [], true⟩
      else
        ⟨.rendered result, torn.1 ++ teardownRequestScopeGens genDeps false,
          capturedExceptions genDeps, false⟩

def handleRequest (exchange : Exchange ν χ δ) : Handled ν χ δ :=
  match exchange.resolve with
  | (state, some answer) => closeAll state.genDeps answer
  | (state, none) =>
    match exchange.callHandler state with
    | .inl answer => closeAll state.genDeps answer
    | .inr outcome => exchange.afterHandler state.genDeps outcome

end FastapiTurbo.HandleRequest
