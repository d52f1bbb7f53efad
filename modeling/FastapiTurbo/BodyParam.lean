import FastapiTurbo.Coercion

/-! A single JSON body parameter: the annotation is unwrapped when the route is registered
(`_param_from_field`), its validator is chosen at startup (`build_router`), and the body
arm of `extract_params_to_pydict_full` runs it (`router.rs`, `_door_support.py`). -/
namespace FastapiTurbo.BodyParam

open Coercion

/-- What is annotated, an optional apart.  `pydantic` says that the class has a
`__pydantic_validator__`; `raw` that the type hint is `bytes`. -/
inductive Base (κ : Type) where
  | model (cls : κ)
  | dataclass (cls : κ) (pydantic : Bool)
  /-- A container, a scalar or a union of several. -/
  | other (type : κ) (raw : Bool)
  deriving DecidableEq

inductive AnnotationExpr (κ : Type) where
  | plain (base : Base κ)
  | optional (base : Base κ)
  deriving DecidableEq

/-- What a validator is built from: `_FABodyValidator` with its fused native validator or
without, the `__pydantic_validator__` of a class, the wrapper around the adapter of the
field, and that adapter itself. -/
inductive Source (κ : Type) where
  | fa (expr : AnnotationExpr κ) (native : Bool)
  | schema (expr : AnnotationExpr κ)
  | faAdapter (expr : AnnotationExpr κ)
  | adapter (expr : AnnotationExpr κ)

structure ParamInfo (κ ω : Type) where
  rawBytes : Bool
  required : Bool
  hasDefault : Bool
  defaultValue : Option ω
  modelClass : Option (Base κ)
  scalarValidator : Option (AnnotationExpr κ)
  cachedValidator : Option (Source κ)
  nativeJsonValidator : Option (AnnotationExpr κ)

structure Startup where
  faFactory : Bool
  adapterFactory : Bool
  typeAdapter : Bool

inductive BodyStep (ω : Type) where
  | bind (value : ω)
  | skip
  | missing
  | rejected
  deriving DecidableEq

variable {κ δ ω : Type}

section Register

def unwrapOptional : AnnotationExpr κ → Base κ
  | .plain base => base
  | .optional base => base

def Base.isClass : Base κ → Bool
  | .model _ | .dataclass _ _ => true
  | .other _ _ => false

def Base.isModel : Base κ → Bool
  | .model _ => true
  | _ => false

def Base.hasNative : Base κ → Bool
  | .model _ => true
  | .dataclass _ pydantic => pydantic
  | .other _ _ => false

def Base.isRaw : Base κ → Bool
  | .other _ raw => raw
  | _ => false

def fieldValidator (startup : Startup) (expr : AnnotationExpr κ) : Option (AnnotationExpr κ) :=
  if (unwrapOptional expr).isModel then none
  else if startup.typeAdapter then some expr
  else none

def paramFromField (startup : Startup) (expr : AnnotationExpr κ) (required : Bool)
    (defaultValue : Option ω) : ParamInfo κ ω where
  rawBytes := (unwrapOptional expr).isRaw
  required := required
  hasDefault := !required
  defaultValue := defaultValue
  modelClass :=
    if (unwrapOptional expr).isClass then some (unwrapOptional expr) else none
  scalarValidator := fieldValidator startup expr
  cachedValidator := none
  nativeJsonValidator := none

end Register

section Startup

def cachedFor (startup : Startup) (modelClass : Base κ) : Source κ :=
  if startup.faFactory then .fa (.plain modelClass) modelClass.hasNative
  else .schema (.plain modelClass)

def Source.native : Source κ → Option (AnnotationExpr κ)
  | .fa expr true => some expr
  | _ => none

def cacheValidators (startup : Startup) (param : ParamInfo κ ω) : ParamInfo κ ω :=
  match param.modelClass with
  | some modelClass =>
    let cached := cachedFor startup modelClass
    { param with cachedValidator := some cached, nativeJsonValidator := cached.native }
  | none =>
    match param.cachedValidator, param.scalarValidator with
    | none, some expr =>
      if startup.adapterFactory then
        { param with cachedValidator := some (.faAdapter expr) }
      else param
    | _, _ => param

def resolveBodyValidator (param : ParamInfo κ ω) : Option (Source κ) :=
  match param.cachedValidator, param.modelClass, param.scalarValidator with
  | some source, _, _ => some source
  | none, some modelClass, _ => some (.schema (.plain modelClass))
  | none, none, some expr => some (.adapter expr)
  | none, none, none => none

end Startup

def ctIsJson (contentType : Option (List Char)) (lax : Bool) : Bool :=
  match contentType with
  | some text =>
    let head := (trim (text.takeWhile (· ≠ ';'))).map Char.toLower
    if head.take 12 = "application/".toList then
      head.drop 12 = "json".toList || "+json".toList.isSuffixOf (head.drop 12)
    else false
  | none => lax

/-- What lies outside: the parser of pydantic-core and that of `json`, the JSON value of
`body_json`, the body as `bytes` or as text, and the validators. -/
structure Outside (κ δ ω : Type) where
  jiter : List UInt8 → Option δ
  loads : List UInt8 → Option δ
  unvalidated : List UInt8 → ω
  asInput : Bool → List UInt8 → δ
  validate : AnnotationExpr κ → δ → Option ω

section Arm

variable (outside : Outside κ δ ω)

def Source.validateJson (body : List UInt8) : Source κ → Option ω
  | .fa expr native =>
    (if native then (outside.jiter body).bind (outside.validate expr) else none).or
      ((outside.loads body).bind (outside.validate expr))
  | .schema expr | .adapter expr =>
    (outside.jiter body).bind (outside.validate expr)
  | .faAdapter expr => (outside.loads body).bind (outside.validate expr)

def Source.expr : Source κ → AnnotationExpr κ
  | .fa expr _ | .schema expr | .faAdapter expr | .adapter expr => expr

def ofValidation : Option ω → BodyStep ω
  | some value => .bind value
  | none => .rejected

def bodyArm (param : ParamInfo κ ω) (noneValue : ω) (contentType : Option (List Char)) (lax : Bool)
    (body : List UInt8) : BodyStep ω :=
  if !body.isEmpty then
    match resolveBodyValidator param with
    | some source =>
      if ctIsJson contentType lax then
        -- Whatever the fused validator rejects is run again through the wrapper.
        ofValidation ((param.nativeJsonValidator.bind fun expr =>
            (outside.jiter body).bind (outside.validate expr)).or
          (source.validateJson outside body))
      else
        ofValidation (outside.validate source.expr (outside.asInput param.rawBytes body))
    | none => .bind (outside.unvalidated body)
  else if param.hasDefault then .bind (param.defaultValue.getD noneValue)
  else if param.required then .missing
  else .skip

def boundBody (startup : Startup) (expr : AnnotationExpr κ) (required : Bool)
    (defaultValue : Option ω) (noneValue : ω) (contentType : Option (List Char)) (lax : Bool)
    (body : List UInt8) : BodyStep ω :=
  bodyArm outside (cacheValidators startup (paramFromField startup expr required defaultValue))
    noneValue contentType lax body

/-- The body parses as a document: the parser of pydantic-core may only fail where `json`
is asked afterwards. -/
structure Parses (startup : Startup) (body : List UInt8) (document : δ) : Prop where
  loads : outside.loads body = some document
  jiter : ∀ other, outside.jiter body = some other → other = document
  unwrapped : startup.faFactory = false ∨ startup.adapterFactory = false →
    outside.jiter body = some document

def validated (expr : AnnotationExpr κ) : AnnotationExpr κ :=
  if (unwrapOptional expr).isClass then .plain (unwrapOptional expr) else expr

section Validate

variable {outside} {startup : Startup} {body : List UInt8} {document : δ}

theorem jiter_or_loads (hparses : Parses outside startup body document)
    (expr : AnnotationExpr κ) :
    ((outside.jiter body).bind (outside.validate expr)).or
        (outside.validate expr document) = outside.validate expr document := by
  cases hj : outside.jiter body with
  | none => rfl
  | some other =>
    rw [hparses.jiter other hj, Option.bind_some, Option.or_self]

private theorem validateJson_fa (hparses : Parses outside startup body document)
    (expr : AnnotationExpr κ) (native : Bool) :
    Source.validateJson outside body (.fa expr native) =
      outside.validate expr document := by
  rw [Source.validateJson, hparses.loads, Option.bind_some]
  cases native with
  | false => rfl
  | true => exact jiter_or_loads hparses expr

section

variable (hp : Parses outside startup body document) (hbody : body ≠ [])
  {contentType : Option (List Char)} {lax : Bool} (hjson : ctIsJson contentType lax = true)
  {param : ParamInfo κ ω}
include hp hbody hjson

theorem bodyArm_of_class {base : Base κ} (hc : param.modelClass = some base) (noneValue : ω) :
    bodyArm outside (cacheValidators startup param) noneValue contentType lax body =
      ofValidation (outside.validate (.plain base) document) := by
  rw [bodyArm, List.isEmpty_eq_false_iff.2 hbody]
  simp only [cacheValidators, hc, resolveBodyValidator, hjson, Bool.not_false, if_true]
  refine congrArg ofValidation ?_
  cases hf : startup.faFactory with
  | true =>
    rw [cachedFor, if_pos hf, validateJson_fa hp]
    cases base.hasNative with
    | false => rfl
    | true => exact jiter_or_loads hp (.plain base)
  | false =>
    rw [cachedFor, if_neg (by simp [hf]), Source.validateJson, hp.unwrapped (.inl hf)]
    rfl

private theorem bodyArm_of_adapter {ann : AnnotationExpr κ} (hc : param.modelClass = none)
    (hcached : param.cachedValidator = none) (hn : param.nativeJsonValidator = none)
    (ha : param.scalarValidator = some ann) (noneValue : ω) :
    bodyArm outside (cacheValidators startup param) noneValue contentType lax body =
      ofValidation (outside.validate ann document) := by
  rw [bodyArm, List.isEmpty_eq_false_iff.2 hbody]
  cases hf : startup.adapterFactory with
  | true =>
    simp only [cacheValidators, hc, hcached, ha, hf, resolveBodyValidator, hjson,
      hn, Source.validateJson, hp.loads, Bool.not_false, if_true]
    rfl
  | false =>
    simp only [cacheValidators, hc, hcached, ha, hf, resolveBodyValidator, hjson,
      hn, Source.validateJson, hp.unwrapped (.inr hf), Bool.not_false, if_true,
      Bool.false_eq_true, if_false]
    rfl

end

theorem boundBody_eq (ha : startup.typeAdapter = true)
    (hparses : Parses outside startup body document) (hbody : body ≠ [])
    {contentType : Option (List Char)} {lax : Bool} (hjson : ctIsJson contentType lax = true)
    (expr : AnnotationExpr κ) (required : Bool) (defaultValue : Option ω) (noneValue : ω) :
    boundBody outside startup expr required defaultValue noneValue contentType lax body =
      ofValidation (outside.validate (validated expr) document) := by
  unfold boundBody validated
  cases hc : (unwrapOptional expr).isClass with
  | true =>
    rw [if_pos rfl]
    exact bodyArm_of_class hparses hbody hjson (if_pos hc) noneValue
  | false =>
    have hm : (unwrapOptional expr).isModel = false := by
      cases hb : unwrapOptional expr with
      | other type raw => rfl
      | model cls => rw [hb] at hc; cases hc
      | dataclass cls pydantic => rfl
    rw [if_neg Bool.false_ne_true]
    refine bodyArm_of_adapter hparses hbody hjson (if_neg (by simp [hc])) rfl rfl ?_ noneValue
    simp [paramFromField, fieldValidator, hm, ha]

end Validate

theorem ofValidation_injective : Function.Injective (ofValidation : Option ω → BodyStep ω) := by
  intro one other hs
  cases one with
  | none => cases other <;> first | rfl | cases hs
  | some value =>
    cases other with
    | none => cases hs
    | some value' => rw [BodyStep.bind.inj hs]

/-- The body is bound to what its annotation makes of it exactly if it is not the `null`
of an optional class, or the class itself makes `None` of that. -/
theorem body_validated_iff [DecidableEq δ] {startup : Startup} {body : List UInt8}
    {document null : δ} {noneValue : ω} (hadapter : startup.typeAdapter = true)
    (hparses : Parses outside startup body document) (hbody : body ≠ [])
    {contentType : Option (List Char)} {lax : Bool} (hjson : ctIsJson contentType lax = true)
    (hoptional : ∀ base other, outside.validate (.optional base) other =
      if other = null then some noneValue else outside.validate (.plain base) other)
    (expr : AnnotationExpr κ) (required : Bool) (defaultValue : Option ω) :
    boundBody outside startup expr required defaultValue noneValue contentType lax body =
        ofValidation (outside.validate expr document) ↔
      ∀ base, expr = .optional base → base.isClass = true → document = null →
        outside.validate (.plain base) null = some noneValue := by
  rw [boundBody_eq hadapter hparses hbody hjson, ofValidation_injective.eq_iff]
  cases expr with
  | plain base =>
    have hs : validated (.plain base) = .plain base := ite_self _
    exact iff_of_true (by rw [hs]) (by simp)
  | optional base =>
    cases hc : base.isClass with
    | false =>
      refine iff_of_true ?_ ?_
      · rw [validated, unwrapOptional, if_neg (by simp [hc])]
      · rintro _ ⟨⟩ hcls
        rw [hc] at hcls
        cases hcls
    | true =>
      rw [validated, unwrapOptional, if_pos hc, hoptional]
      by_cases hn : document = null
      · subst hn
        rw [if_pos rfl]
        constructor
        · rintro hs _ ⟨⟩ _ _
          exact hs
        · intro hall
          exact hall base rfl hc rfl
      · rw [if_neg hn]
        exact iff_of_true rfl fun _ _ _ hd => absurd hd hn

end Arm

def itemModel : Outside Unit Bool (Option Bool) where
  jiter := fun body => some (body.length != 4)
  loads := fun body => some (body.length != 4)
  unvalidated := fun _ => none
  asInput := fun _ _ => true
  validate := fun expr document =>
    match expr, document with
    | .optional _, false => some none
    | _, false => none
    | _, true => some (some true)

def allFactories : Startup :=
  ⟨true, true, true⟩

def jsonType : Option (List Char) :=
  some "application/json; charset=utf-8".toList

def emptyObject : List UInt8 :=
  [123, 125]

def nullDocument : List UInt8 :=
  [110, 117, 108, 108]

private theorem itemModel_parses (body : List UInt8) :
    Parses itemModel allFactories body (body.length != 4) :=
  ⟨rfl, fun _ hj => (Option.some.inj hj).symm, fun _ => rfl⟩

theorem object_body_bound :
    boundBody itemModel allFactories (.optional (.model ())) true none none jsonType false
      emptyObject = .bind (some true) := by
  have ho : ∀ base other, itemModel.validate (.optional base) other =
      if other = false then some none else itemModel.validate (.plain base) other := by
    intro base other
    cases other <;> rfl
  refine (body_validated_iff itemModel rfl (itemModel_parses emptyObject) (by decide) (by decide)
    ho (.optional (.model ())) true none).2 ?_
  intro _ _ _ hn
  cases hn

/-- `item: Item | None` does not take `null`. -/
theorem optional_model_rejects_null :
    itemModel.validate (.optional (.model ())) false = some none ∧
      boundBody itemModel allFactories (.optional (.model ())) true none none jsonType false
        nullDocument = .rejected ∧
      boundBody itemModel allFactories (.optional (.other () false)) true none none jsonType false
        nullDocument = .bind none := by
  decide

end FastapiTurbo.BodyParam
