import FastapiTurbo.Extract
import FastapiTurbo.Lib.Lists

/-! Dependency trees as real FastAPI builds them, and their flattening into the
parameter list of the Rust door (`_introspect_from_real_fastapi.py`). -/
namespace FastapiTurbo.Introspection

open Lib Coercion Extract List Option

variable {ν χ : Type}

/-- What resuming a generator comes to.  `stopped` is `StopIteration`. -/
inductive Resumed (χ : Type) where
  | yielded
  | stopped
  | raised (error : χ)

/-- The `yield` at which a generator is suspended: its first, or the one to which it
came when it was resumed or an error was thrown into it. -/
inductive YieldPoint (χ : Type) where
  | first
  | afterSend
  | afterThrow (error : χ)

/-- A generator at its first `yield`.  One that ignores the `GeneratorExit` of a `close`
yields again instead of ending. -/
structure Generator (χ : Type) where
  send : Resumed χ
  throw : χ → Resumed χ
  ignoresExit : YieldPoint χ → Bool

/-- A call of a generator function followed by the first `send(None)`. -/
inductive Entered (ν χ : Type) where
  | yielded (value : ν) (generator : Generator χ)
  | returned (value : ν)
  | raised (error : χ)

/-- A dependency callable by its classification, on its keyword arguments.  An
asynchronous generator is bridged to a synchronous one. -/
inductive Callable (ν χ : Type) where
  | function (call : Dict String ν → Outcome ν χ)
  | coroutine (call : Dict String ν → Outcome ν χ)
  | generator (enter : Dict String ν → Entered ν χ)

inductive InjectKind where
  | request
  | response
  | backgroundTasks
  | securityScopes
  deriving DecidableEq

structure InjectedParam where
  name : String
  kind : InjectKind
  oauthScopes : List String
  isHandlerParam : Bool
  deriving DecidableEq

structure DependencyParam (ν χ : Type) where
  name : String
  callable : Callable ν χ
  callableId : Option UInt64
  inputNames : List (String × String)
  isHandlerParam : Bool
  isFunctionScope : Bool

/-- A `ParamInfo`, by the kinds that the dependency loop tells apart. -/
inductive Param (ν χ : Type) where
  | dependency (param : DependencyParam ν χ)
  | injected (param : InjectedParam)
  | field (param : FieldParam)

def Param.name : Param ν χ → String
  | .dependency param => param.name
  | .injected param => param.name
  | .field param => param.name

/-- A `ModelField`.  One that is annotated with a `BaseModel` has a builder, which
validates the model from the request. -/
structure ModelField (ν χ : Type) where
  name : String
  typeHint : TypeHint
  required : Bool
  defaultValue : Option Value
  aliasName : Option String
  validator : Option Validator
  isPlainIntOrStr : Bool
  builder : Option (Callable ν χ)

def isScalarBucket : FieldKind → Bool
  | .path | .query | .header | .cookie => true
  | .form | .file => false

def paramFromField (field : ModelField ν χ) (kind : FieldKind) (name : Option String) :
    Option FieldParam :=
  if isScalarBucket kind && field.builder.isSome then none
  else
    some {
      name := name.getD field.name
      kind
      typeHint := field.typeHint
      required := field.required
      hasDefault := !field.required
      defaultValue := field.defaultValue
      fastPathCoerce := kind = .path && field.isPlainIntOrStr
      scalarValidator := field.validator
      aliasName := if name.isSome then some (field.aliasName.getD field.name) else field.aliasName
      isHandlerParam := name.isNone }

structure Signature (ν χ : Type) where
  name : Option String
  call : Callable ν χ
  callId : UInt64
  useCache : Bool
  cacheScopes : List String
  scopesHash : UInt64
  isFunctionScope : Bool
  requestParam : Option String
  httpConnectionParam : Option String
  responseParam : Option String
  backgroundTasksParam : Option String
  securityScopesParam : Option String
  websocketParam : Option String
  oauthScopes : List String
  pathParams : List (ModelField ν χ)
  queryParams : List (ModelField ν χ)
  headerParams : List (ModelField ν χ)
  cookieParams : List (ModelField ν χ)
  bodyParams : List (ModelField ν χ)

inductive Dependant (ν χ : Type) where
  | node (own : Signature ν χ) (dependencies : List (Dependant ν χ))

def Dependant.own : Dependant ν χ → Signature ν χ
  | .node own _ => own

def depCacheId (own : Signature ν χ) : Option UInt64 :=
  if !own.useCache then none
  else if own.cacheScopes.isEmpty && !own.isFunctionScope then some own.callId
  else some (own.callId ^^^ own.scopesHash)

def specialParamKinds (own : Signature ν χ) : List (Option String × InjectKind) :=
  [(own.requestParam, .request), (own.httpConnectionParam, .request),
    (own.responseParam, .response), (own.backgroundTasksParam, .backgroundTasks),
    (own.securityScopesParam, .securityScopes)]

def scopesFor (own : Signature ν χ) (kind : InjectKind) : List String :=
  if kind = .securityScopes then own.oauthScopes else []

def specialParams (own : Signature ν χ) : List (String × InjectKind) :=
  (specialParamKinds own).filterMap fun special =>
    match special.1 with
    | some name => if name = "" then none else some (name, special.2)
    | none => none

def inputKey (uid name : String) : String :=
  "_dep" ++ uid ++ "__" ++ name

def emitDepSpecialParams (own : Signature ν χ) (uid : String) :
    List (Param ν χ) × List (String × String) :=
  ((specialParams own).map fun special =>
      .injected ⟨inputKey uid special.1, special.2, scopesFor own special.2, false⟩,
    (specialParams own).map fun special => (special.1, inputKey uid special.1))

/-- `_emit_request_param_model`: the builder as a dependency of its own. -/
def emitRequestParamModel (builder : Callable ν χ) (uid resultKey : String)
    (isHandlerParam : Bool) : List (Param ν χ) :=
  let reqSrc := "_pmreq" ++ uid
  [.injected ⟨reqSrc, .request, [], false⟩,
    .dependency {
      name := resultKey
      callable := builder
      callableId := none
      inputNames := [("request", reqSrc)]
      isHandlerParam
      isFunctionScope := false }]

def scalars (own : Signature ν χ) : List (FieldKind × ModelField ν χ) :=
  own.pathParams.map (FieldKind.path, ·) ++ own.queryParams.map (FieldKind.query, ·) ++
    own.headerParams.map (FieldKind.header, ·) ++ own.cookieParams.map (FieldKind.cookie, ·)

def emitScalar (uid : String) (scalar : FieldKind × ModelField ν χ) :
    Option (List (Param ν χ)) :=
  let key := inputKey uid scalar.2.name
  match scalar.1, scalar.2.builder with
  | .query, some builder | .header, some builder | .cookie, some builder =>
    some (emitRequestParamModel builder (uid ++ "_" ++ scalar.2.name) key false)
  | kind, _ => (paramFromField scalar.2 kind (some key)).map fun param => [.field param]

mutual

/-- `_emit_dep`: the inputs of the dependency, its sub-dependencies, then itself,
with the key of its result. -/
def emitDep (uid : String) (isHandlerParam : Bool) :
    Dependant ν χ → Option (List (Param ν χ) × String)
  | .node own dependencies =>
    if !own.bodyParams.isEmpty || own.websocketParam.isSome then none
    else do
      let specials := emitDepSpecialParams own uid
      let inputs ← (scalars own).mapM (emitScalar uid)
      let subs ← emitSubs uid 0 dependencies
      let resultKey :=
        match isHandlerParam, own.name with
        | true, some name => if name = "" then "_dep" ++ uid else name
        | _, _ => "_dep" ++ uid
      let wiring := specials.2 ++
        (scalars own).map (fun scalar => (scalar.2.name, inputKey uid scalar.2.name)) ++ subs.2
      some (specials.1 ++ inputs.flatten ++ subs.1 ++
        [.dependency {
          name := resultKey
          callable := own.call
          callableId := depCacheId own
          inputNames := wiring
          isHandlerParam
          isFunctionScope := own.isFunctionScope }], resultKey)

/-- The sub-dependencies from the `k`-th on.  One that is read off a signature
always has a name. -/
def emitSubs (uid : String) (k : Nat) :
    List (Dependant ν χ) → Option (List (Param ν χ) × List (String × String))
  | [] => some ([], [])
  | sub :: rest => do
      let first ← emitDep (uid ++ "_" ++ toString k) false sub
      let others ← emitSubs uid (k + 1) rest
      some (first.1 ++ others.1, (sub.own.name.getD "", first.2) :: others.2)

end

def emitDependencies (i : Nat) : List (Dependant ν χ) → Option (List (Param ν χ))
  | [] => some []
  | sub :: rest => do
      let first ← emitDep (toString i) sub.own.name.isSome sub
      let others ← emitDependencies (i + 1) rest
      some (first.1 ++ others)

/-- A route's own parameters, which the dependency loop leaves to the full
extractor, and its dependencies. -/
structure Route (ν χ : Type) where
  fields : List FieldParam
  fields_handler : ∀ field ∈ fields, field.isHandlerParam = true
  specials : List InjectedParam
  specials_handler : ∀ special ∈ specials, special.isHandlerParam = true
  dependencies : List (Dependant ν χ)

def extractParamsFromRoute (route : Route ν χ) : Option (List (Param ν χ)) :=
  (emitDependencies 0 route.dependencies).map fun emitted =>
    route.fields.map Param.field ++ route.specials.map Param.injected ++ emitted

/-- An input of a dependency is a scalar that is required or has a default. -/
def Param.Settled : Param ν χ → Prop
  | .field param =>
    param.isHandlerParam = true ∨
      param.kind.readsForm = false ∧ param.hasDefault = !param.required
  | _ => True

variable {uid : String} {scalar : FieldKind × ModelField ν χ} {params : List (Param ν χ)}

theorem emitScalar_cases (hemit : emitScalar uid scalar = some params) :
    (∃ builder, scalar.2.builder = some builder ∧
        params = emitRequestParamModel builder (uid ++ "_" ++ scalar.2.name)
          (inputKey uid scalar.2.name) false) ∨
      ∃ param, paramFromField scalar.2 scalar.1 (some (inputKey uid scalar.2.name)) = some param ∧
        params = [.field param] := by
  unfold emitScalar at hemit
  split at hemit
  · next hb => exact .inl ⟨_, hb, (Option.some.inj hemit).symm⟩
  · next hb => exact .inl ⟨_, hb, (Option.some.inj hemit).symm⟩
  · next hb => exact .inl ⟨_, hb, (Option.some.inj hemit).symm⟩
  · obtain ⟨param, hp, rfl⟩ := map_eq_some_iff.1 hemit
    exact .inr ⟨param, hp, rfl⟩

variable {inputs : List (List (Param ν χ))}

theorem mapM_emitScalar_cons {rest : List (FieldKind × ModelField ν χ)}
    (hemit : (scalar :: rest).mapM (emitScalar uid) = some inputs) :
    ∃ first others, emitScalar uid scalar = some first ∧
      rest.mapM (emitScalar uid) = some others ∧ inputs = first :: others := by
  simp only [mapM_cons, bind_eq_bind, bind_eq_some_iff] at hemit
  obtain ⟨first, hf, others, ho, hinputs⟩ := hemit
  exact ⟨first, others, hf, ho, (Option.some.inj hinputs).symm⟩

variable {dependencies : List (Dependant ν χ)}

section

variable {isHandlerParam : Bool} {own : Signature ν χ} {emitted : List (Param ν χ) × String}
  (hemit : emitDep uid isHandlerParam (.node own dependencies) = some emitted)
include hemit

private theorem emitDep_call :
    ∃ inputs subs, (scalars own).mapM (emitScalar uid) = some inputs ∧
      emitSubs uid 0 dependencies = some subs ∧
      emitted.1 = (emitDepSpecialParams own uid).1 ++ inputs.flatten ++ subs.1 ++
        [.dependency {
          name := emitted.2
          callable := own.call
          callableId := depCacheId own
          inputNames := (emitDepSpecialParams own uid).2 ++
            (scalars own).map (fun scalar => (scalar.2.name, inputKey uid scalar.2.name)) ++ subs.2
          isHandlerParam
          isFunctionScope := own.isFunctionScope }] := by
  unfold emitDep at hemit
  split at hemit
  · simp at hemit
  · simp only [bind_eq_bind, bind_eq_some_iff] at hemit
    obtain ⟨inputs, hinputs, subs, hs, he⟩ := hemit
    obtain rfl := Option.some.inj he
    exact ⟨inputs, subs, hinputs, hs, rfl⟩

theorem emitDep_node :
    ∃ inputs subs call, (scalars own).mapM (emitScalar uid) = some inputs ∧
      emitSubs uid 0 dependencies = some subs ∧ call.name = emitted.2 ∧
      call.inputNames = (emitDepSpecialParams own uid).2 ++
        (scalars own).map (fun scalar => (scalar.2.name, inputKey uid scalar.2.name)) ++ subs.2 ∧
      emitted.1 = (emitDepSpecialParams own uid).1 ++ inputs.flatten ++ subs.1 ++
        [.dependency call] := by
  obtain ⟨inputs, subs, hinputs, hs, hp⟩ := emitDep_call hemit
  exact ⟨inputs, subs, _, hinputs, hs, rfl, rfl, hp⟩

end

theorem emitSubs_cons {k : Nat} {sub : Dependant ν χ} {rest : List (Dependant ν χ)}
    {emitted : List (Param ν χ) × List (String × String)}
    (hemit : emitSubs uid k (sub :: rest) = some emitted) :
    ∃ first others, emitDep (uid ++ "_" ++ toString k) false sub = some first ∧
      emitSubs uid (k + 1) rest = some others ∧
      emitted = (first.1 ++ others.1, (sub.own.name.getD "", first.2) :: others.2) := by
  simp only [emitSubs, bind_eq_bind, bind_eq_some_iff] at hemit
  obtain ⟨first, hf, others, ho, he⟩ := hemit
  exact ⟨first, others, hf, ho, (Option.some.inj he).symm⟩

variable {i : Nat}

theorem emitDependencies_cons {sub : Dependant ν χ} {rest : List (Dependant ν χ)}
    (hemit : emitDependencies i (sub :: rest) = some params) :
    ∃ first others, emitDep (toString i) sub.own.name.isSome sub = some first ∧
      emitDependencies (i + 1) rest = some others ∧ params = first.1 ++ others := by
  simp only [emitDependencies, bind_eq_bind, bind_eq_some_iff] at hemit
  obtain ⟨first, hf, others, ho, hp⟩ := hemit
  exact ⟨first, others, hf, ho, (Option.some.inj hp).symm⟩

theorem emitScalar_settled (hk : isScalarBucket scalar.1 = true)
    (hemit : emitScalar uid scalar = some params) : ∀ param ∈ params, param.Settled := by
  rcases emitScalar_cases hemit with ⟨builder, -, rfl⟩ | ⟨param, hp, rfl⟩
  · simp [emitRequestParamModel, Param.Settled]
  · unfold paramFromField at hp
    split at hp
    · simp at hp
    · cases hp
      have hf : scalar.1.readsForm = false := by
        cases hb : scalar.1 <;> simp_all [isScalarBucket, FieldKind.readsForm]
      simp [Param.Settled, hf]

theorem scalars_bucket (own : Signature ν χ) :
    ∀ scalar ∈ scalars own, isScalarBucket scalar.1 = true := by
  intro scalar hmem
  simp only [scalars, mem_append, List.mem_map] at hmem
  rcases hmem with ((⟨field, -, rfl⟩ | ⟨field, -, rfl⟩) | ⟨field, -, rfl⟩) | ⟨field, -, rfl⟩ <;> rfl

private theorem mapM_emitScalar_settled {fields : List (FieldKind × ModelField ν χ)}
    (hf : ∀ scalar ∈ fields, isScalarBucket scalar.1 = true)
    (hemit : fields.mapM (emitScalar uid) = some inputs) :
    ∀ param ∈ inputs.flatten, param.Settled := by
  induction fields generalizing inputs with
  | nil =>
    cases (show some [] = some inputs by simpa using hemit)
    simp
  | cons scalar rest ih =>
    obtain ⟨first, others, hfirst, ho, rfl⟩ := mapM_emitScalar_cons hemit
    intro param hmem
    rcases mem_append.1 (flatten_cons ▸ hmem) with hh | ht
    · exact emitScalar_settled (hf scalar mem_cons_self) hfirst param hh
    · exact ih (fun other hother => hf other (mem_cons_of_mem scalar hother)) ho
        param ht

mutual

theorem emitDep_settled {uid : String} {isHandlerParam : Bool} {key : String}
    {params : List (Param ν χ)} : ∀ dep : Dependant ν χ,
    emitDep uid isHandlerParam dep = some (params, key) → ∀ param ∈ params, param.Settled
  | .node own dependencies, hemit => by
    obtain ⟨inputs, subs, call, hinputs, hs, -, -, hp⟩ := emitDep_node hemit
    intro param hmem
    dsimp only at hp
    simp only [hp, mem_append, mem_singleton] at hmem
    rcases hmem with ((hspecial | hinput) | hsub) | rfl
    · obtain ⟨special, -, rfl⟩ := mem_map.1 hspecial
      trivial
    · exact mapM_emitScalar_settled (scalars_bucket own) hinputs param hinput
    · exact emitSubs_settled dependencies hs param hsub
    · trivial

theorem emitSubs_settled {uid : String} {k : Nat}
    {emitted : List (Param ν χ) × List (String × String)} : ∀ dependencies : List (Dependant ν χ),
    emitSubs uid k dependencies = some emitted → ∀ param ∈ emitted.1, param.Settled
  | [], hemit => by
    cases (show some ([], []) = some emitted by simpa [emitSubs] using hemit)
    simp
  | sub :: rest, hemit => by
    obtain ⟨first, others, hf, ho, rfl⟩ := emitSubs_cons hemit
    intro param hmem
    rcases mem_append.1 hmem with hh | ht
    · exact emitDep_settled sub hf param hh
    · exact emitSubs_settled rest ho param ht

end

private theorem emitDependencies_settled (hemit : emitDependencies i dependencies = some params) :
    ∀ param ∈ params, param.Settled := by
  induction dependencies generalizing i params with
  | nil =>
    cases (show some [] = some params by simpa [emitDependencies] using hemit)
    simp
  | cons sub rest ih =>
    obtain ⟨first, others, hf, ho, rfl⟩ := emitDependencies_cons hemit
    intro param hmem
    rcases mem_append.1 hmem with hh | ht
    · exact emitDep_settled sub hf param hh
    · exact ih ho param ht

theorem extractParamsFromRoute_settled {route : Route ν χ}
    (hr : extractParamsFromRoute route = some params) : ∀ param ∈ params, param.Settled := by
  obtain ⟨emitted, hemit, rfl⟩ := map_eq_some_iff.1 hr
  intro param hmem
  simp only [mem_append, List.mem_map] at hmem
  rcases hmem with (⟨field, hf, rfl⟩ | ⟨special, -, rfl⟩) | he
  · exact .inl (route.fields_handler field hf)
  · trivial
  · exact emitDependencies_settled hemit param he

def Param.isLoopParam : Param ν χ → Bool
  | .dependency _ => true
  | .injected param => !param.isHandlerParam
  | .field param => !param.isHandlerParam

def HasSource (before : List (Param ν χ)) (key : String) : Prop :=
  ∃ source ∈ before, source.name = key ∧ source.isLoopParam = true

/-- Every key that a dependency is wired to belongs to a parameter before it. -/
def Wired (before : List (Param ν χ)) : Param ν χ → Prop
  | .dependency param => ∀ input ∈ param.inputNames, HasSource before input.2
  | _ => True

theorem HasSource.mono {before more : List (Param ν χ)} {key : String}
    (hs : HasSource before key) (hm : before ⊆ more) : HasSource more key := by
  obtain ⟨source, hmem, hn⟩ := hs
  exact ⟨source, hm hmem, hn⟩

theorem Wired.mono {before more : List (Param ν χ)} {param : Param ν χ}
    (hw : Wired before param) (hm : before ⊆ more) : Wired more param := by
  cases param with
  | dependency param => exact fun input hmem => (hw input hmem).mono hm
  | injected param | field param => trivial

theorem everywhere_wired_append {front back : List (Param ν χ)} (hf : Everywhere Wired front)
    (hb : Everywhere Wired back) : Everywhere Wired (front ++ back) :=
  (everywhere_append Wired front back).2
    ⟨hf, hb.mono fun before _ hw =>
      hw.mono (subset_append_right front before)⟩

theorem everywhere_wired_concat {front : List (Param ν χ)} {last : Param ν χ}
    (hf : Everywhere Wired front) (hl : Wired front last) : Everywhere Wired (front ++ [last]) := by
  rw [everywhere_append, everywhere_singleton, append_nil]
  exact ⟨hf, hl⟩

private theorem emitRequestParamModel_wired (builder : Callable ν χ) (uid key : String) :
    Everywhere Wired (emitRequestParamModel builder uid key false) ∧
      HasSource (emitRequestParamModel builder uid key false) key := by
  unfold emitRequestParamModel
  constructor
  · simp [everywhere_cons, Wired, HasSource, Param.name, Param.isLoopParam]
  · simp [HasSource, Param.name, Param.isLoopParam]

private theorem emitScalar_wired (hemit : emitScalar uid scalar = some params) :
    Everywhere Wired params ∧ HasSource params (inputKey uid scalar.2.name) := by
  rcases emitScalar_cases hemit with ⟨builder, -, rfl⟩ | ⟨param, hp, rfl⟩
  · exact emitRequestParamModel_wired builder _ _
  · unfold paramFromField at hp
    split at hp
    · simp at hp
    · cases hp
      simp [Wired, HasSource, Param.name, Param.isLoopParam]

theorem mapM_emitScalar_wired {fields : List (FieldKind × ModelField ν χ)}
    (hemit : fields.mapM (emitScalar uid) = some inputs) :
    Everywhere Wired inputs.flatten ∧
      ∀ scalar ∈ fields, HasSource inputs.flatten (inputKey uid scalar.2.name) := by
  induction fields generalizing inputs with
  | nil =>
    cases (show some [] = some inputs by simpa using hemit)
    simp
  | cons scalar rest ih =>
    obtain ⟨first, others, hf, ho, rfl⟩ := mapM_emitScalar_cons hemit
    obtain ⟨hw, hs⟩ := emitScalar_wired hf
    obtain ⟨hr, hsources⟩ := ih ho
    refine ⟨everywhere_wired_append hw hr, ?_⟩
    intro other hmem
    rcases mem_cons.1 hmem with rfl | hother
    · exact hs.mono (subset_append_left _ _)
    · exact (hsources other hother).mono (subset_append_right _ _)

private theorem emitDepSpecialParams_wired (own : Signature ν χ) (uid : String) :
    Everywhere Wired (emitDepSpecialParams own uid).1 ∧
      ∀ input ∈ (emitDepSpecialParams own uid).2,
        HasSource (emitDepSpecialParams own uid).1 input.2 := by
  constructor
  · intro before param after hs
    have hmem : param ∈ (emitDepSpecialParams own uid).1 := hs ▸ by simp
    obtain ⟨special, -, rfl⟩ := mem_map.1 hmem
    trivial
  · intro input hmem
    obtain ⟨special, hspecial, rfl⟩ := mem_map.1 hmem
    exact ⟨_, mem_map.2 ⟨special, hspecial, rfl⟩, rfl, rfl⟩

mutual

theorem emitDep_wired {uid : String} {isHandlerParam : Bool} {key : String}
    {params : List (Param ν χ)} : ∀ dep : Dependant ν χ,
    emitDep uid isHandlerParam dep = some (params, key) →
      Everywhere Wired params ∧ HasSource params key
  | .node own dependencies, hemit => by
    obtain ⟨inputs, subs, call, hinputs, hs, hn, hw, hp⟩ := emitDep_node hemit
    obtain ⟨hspecialWired, hspecials⟩ := emitDepSpecialParams_wired own uid
    obtain ⟨hinputWired, hscalars⟩ := mapM_emitScalar_wired hinputs
    obtain ⟨hsubWired, hsubKeys⟩ := emitSubs_wired dependencies hs
    dsimp only at hn hp
    rw [hp]
    constructor
    · refine everywhere_wired_concat (everywhere_wired_append
        (everywhere_wired_append hspecialWired hinputWired) hsubWired) ?_
      intro input hmem
      simp only [hw, mem_append, List.mem_map] at hmem
      rcases hmem with (hspecial | ⟨scalar, hscalar, rfl⟩) | hsub
      · exact (hspecials input hspecial).mono (by simp)
      · exact (hscalars scalar hscalar).mono (by simp)
      · exact (hsubKeys input hsub).mono (by simp)
    · exact ⟨_, mem_append_right _ mem_cons_self, hn, rfl⟩

theorem emitSubs_wired {uid : String} {k : Nat}
    {emitted : List (Param ν χ) × List (String × String)} : ∀ dependencies : List (Dependant ν χ),
    emitSubs uid k dependencies = some emitted →
      Everywhere Wired emitted.1 ∧ ∀ input ∈ emitted.2, HasSource emitted.1 input.2
  | [], hemit => by
    cases (show some ([], []) = some emitted by simpa [emitSubs] using hemit)
    simp
  | sub :: rest, hemit => by
    obtain ⟨first, others, hf, ho, rfl⟩ := emitSubs_cons hemit
    obtain ⟨hw, hkey⟩ := emitDep_wired sub hf
    obtain ⟨hr, hk⟩ := emitSubs_wired rest ho
    refine ⟨everywhere_wired_append hw hr, ?_⟩
    intro input hmem
    rcases mem_cons.1 hmem with rfl | hinput
    · exact hkey.mono (subset_append_left _ _)
    · exact (hk input hinput).mono (subset_append_right _ _)

end

private theorem emitDependencies_wired (hemit : emitDependencies i dependencies = some params) :
    Everywhere Wired params := by
  induction dependencies generalizing i params with
  | nil =>
    cases (show some [] = some params by simpa [emitDependencies] using hemit)
    simp
  | cons sub rest ih =>
    obtain ⟨first, others, hf, ho, rfl⟩ := emitDependencies_cons hemit
    exact everywhere_wired_append (emitDep_wired sub hf).1 (ih ho)

theorem extractParamsFromRoute_wired {route : Route ν χ}
    (hr : extractParamsFromRoute route = some params) : Everywhere Wired params := by
  obtain ⟨emitted, hemit, rfl⟩ := map_eq_some_iff.1 hr
  refine everywhere_wired_append ?_ (emitDependencies_wired hemit)
  intro before param after hs
  have hmem : param ∈ route.fields.map Param.field ++ route.specials.map Param.injected :=
    hs ▸ by simp
  rcases mem_append.1 hmem with hf | hspecial
  · obtain ⟨fd, -, rfl⟩ := mem_map.1 hf
    trivial
  · obtain ⟨special, -, rfl⟩ := mem_map.1 hspecial
    trivial

end FastapiTurbo.Introspection
