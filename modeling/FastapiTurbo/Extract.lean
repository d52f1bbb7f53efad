import FastapiTurbo.Coercion
import FastapiTurbo.Lib.Dict

/-! The two extractors of request parameters (`router.rs`):
`extract_params_to_pydict_full` for the parameters of a handler and
`extract_single_param` for the scalar inputs of a dependency. -/
namespace FastapiTurbo.Extract

open Lib Coercion List

inductive LocItem where
  | key (name : String)
  | index (position : Nat)
  deriving DecidableEq

/-- An error of Pydantic with its message normalised and its `ctx` as a JSON text,
as `pydantic_error_details` writes them. -/
structure PydanticError where
  kind : String
  loc : List LocItem
  msg : String
  input : Value
  ctx : Option String
  deriving DecidableEq

structure Rejection where
  first : PydanticError
  rest : List PydanticError
  deriving DecidableEq

def Rejection.errors (rejection : Rejection) : List PydanticError :=
  rejection.first :: rejection.rest

abbrev Validator := Value → Outcome Value Rejection

/-- An entry of a 422's `detail`, by the function that builds it. -/
inductive ErrorDetail where
  | missing (loc name : String)
  | coercion (loc name : String) (index : Option Nat) (raw : String) (hint : TypeHint)
  | validation (loc name : String) (error : PydanticError)
  deriving DecidableEq

structure DetailJson where
  type : String
  loc : List LocItem
  msg : String
  input : Value
  ctx : Option String
  deriving DecidableEq

def coercionType : TypeHint → String × String
  | .int =>
    ("int_parsing", "Input should be a valid integer, unable to parse string as an integer")
  | .float =>
    ("float_parsing", "Input should be a valid number, unable to parse string as a number")
  | .bool => ("bool_parsing", "Input should be a valid boolean, unable to interpret input")
  | _ => ("value_error", "Value error")

/-- `missing_error_detail`, `coercion_error_detail` with its indexed variant, and
an entry of `pydantic_error_details`. -/
def ErrorDetail.json : ErrorDetail → DetailJson
  | .missing loc name =>
    ⟨"missing", [.key loc, .key name], "Field required", .atom .none, none⟩
  | .coercion loc name index raw hint =>
    ⟨(coercionType hint).1, .key loc :: .key name :: (index.map LocItem.index).toList,
      (coercionType hint).2, .atom (.str raw), none⟩
  | .validation loc name error =>
    ⟨error.kind, .key loc :: .key name :: error.loc, error.msg, error.input, error.ctx⟩

inductive FieldKind where
  | path
  | query
  | header
  | cookie
  | form
  | file
  deriving DecidableEq

/-- A `ParamInfo` of one of the kinds that are read from the request line, the
headers or a form. -/
structure FieldParam where
  name : String
  kind : FieldKind
  typeHint : TypeHint
  required : Bool
  hasDefault : Bool
  defaultValue : Option Value
  fastPathCoerce : Bool
  scalarValidator : Option Validator
  aliasName : Option String
  isHandlerParam : Bool

def FieldParam.wireName (param : FieldParam) : String :=
  param.aliasName.getD param.name

/-- What the extractors read of a request.  A header value is what `to_str` of the
`http` crate gives for it, `none` where it refuses the bytes. -/
structure Request where
  pathMap : String → Option String
  queryParams : String → Option String
  queryMulti : String → List String
  headers : Option (List (String × Option String))
  multipartFields : Dict String (List ParsedField)

def Request.headerValues (request : Request) (name : String) : List (Option String) :=
  ((request.headers.getD []).filter fun header => header.1 = name).map Prod.snd

/-- `headers.get(name)` as a string; only the first value of the name counts. -/
def Request.header (request : Request) (name : String) : Option String :=
  (request.headerValues name).head?.join

def Request.headerList (request : Request) (name : String) : List String :=
  (request.headerValues name).filterMap id

def Request.cookie (request : Request) (name : String) : Option String :=
  (request.header "cookie").bind fun value => parseCookieValue value name

def Request.fields (request : Request) (name : String) : List ParsedField :=
  (request.multipartFields.get? name).getD []

/-- What the extraction of one parameter comes to: a value, nothing, errors that
are added to the others, or errors that are returned at once. -/
inductive Step where
  | bind (value : Value)
  | skip
  | reject (errors : List ErrorDetail)
  | abort (errors : List ErrorDetail)
  deriving DecidableEq

def FieldParam.default (param : FieldParam) : Option Value :=
  if param.hasDefault then some (param.defaultValue.getD (.atom .none)) else none

def whenAbsent (loc : String) (param : FieldParam) : Step :=
  match param.default with
  | some value => .bind value
  | none => if param.required then .reject [.missing loc param.wireName] else .skip

def runScalarValidator (loc : String) (param : FieldParam) (validator : Validator)
    (value : Value) : Step :=
  match validator value with
  | .returned validated => .bind validated
  | .raised rejection =>
    .reject (rejection.errors.map (ErrorDetail.validation loc param.wireName))

def Step.aborting : Step → Step
  | .reject errors => .abort errors
  | step => step

section Arms

variable (parseF64 : List Char → Option UInt64)

def checkText (loc : String) (param : FieldParam) (raw : String) : Step :=
  match param.scalarValidator with
  | some validator => runScalarValidator loc param validator (.atom (.str raw))
  | none =>
    match tryCoerceStrToPy parseF64 raw param.typeHint with
    | some atom => .bind (.atom atom)
    | none => .reject [.coercion loc param.wireName none raw param.typeHint]

def itemErrors {β : Type} (loc : String) (param : FieldParam) (inner : TypeHint)
    (text : β → String) (read : β → Option Atom) (items : List β) : List ErrorDetail :=
  items.zipIdx.filterMap fun item =>
    match read item.1 with
    | some _ => none
    | none => some (.coercion loc param.wireName (some item.2) (text item.1) inner)

def checkItems {β : Type} (loc : String) (param : FieldParam) (inner : TypeHint)
    (text : β → String) (read : β → Option Atom) (validator : Option Validator)
    (items : List β) : Step :=
  match itemErrors loc param inner text read items with
  | [] =>
    let value := .list (items.filterMap read)
    match validator with
    | some validator => runScalarValidator loc param validator value
    | none => .bind value
  | errors => .reject errors

def fastLane (param : FieldParam) (raw : String) : Option Atom :=
  if param.fastPathCoerce then fastCoercePathValue raw param.typeHint else none

def pathStep (param : FieldParam) (request : Request) : Step :=
  match request.pathMap param.wireName with
  | some raw =>
    match fastLane param raw with
    | some atom => .bind (.atom atom)
    | none => checkText parseF64 "path" param raw
  | none => whenAbsent "path" param

def queryStep (param : FieldParam) (request : Request) : Step :=
  match param.typeHint with
  | .list inner =>
    match request.queryMulti param.wireName with
    | [] => whenAbsent "query" param
    | values =>
      checkItems "query" param inner id (tryCoerceStrToPy parseF64 · inner)
        param.scalarValidator values
  | _ =>
    match request.queryParams param.wireName with
    | some raw => checkText parseF64 "query" param raw
    | none => whenAbsent "query" param

/-- A list header is bound as it is: neither its elements nor the whole are
checked. -/
def headerStep (param : FieldParam) (request : Request) : Step :=
  let lookup := param.wireName.toLower
  match param.typeHint with
  | .list _ =>
    match request.headerList lookup with
    | [] => whenAbsent "header" param
    | values => .bind (.list (values.map Atom.str))
  | _ =>
    match request.header lookup with
    | some raw => checkText parseF64 "header" param raw
    | none => whenAbsent "header" param

/-- The cookie arm returns at once, and its coercion error names the Python
parameter. -/
def cookieStep (defers : Bool) (param : FieldParam) (request : Request) : Step :=
  match request.cookie param.wireName with
  | some raw =>
    match param.scalarValidator with
    | some validator =>
      (runScalarValidator "cookie" param validator (.atom (.str raw))).aborting
    | none =>
      match tryCoerceStrToPy parseF64 raw param.typeHint with
      | some atom => .bind (.atom atom)
      | none => .abort [.coercion "cookie" param.name none raw param.typeHint]
  | none =>
    if defers then whenAbsent "cookie" param else (whenAbsent "cookie" param).aborting

def wantsRawBytes (hint : TypeHint) : Bool :=
  hint = .bytes || hint = .list .bytes

def TypeHint.isList : TypeHint → Bool
  | .list _ => true
  | _ => false

def fileAtom (hint : TypeHint) (field : ParsedField) : Atom :=
  if wantsRawBytes hint then .bytes field.data else .upload field

def fileValue (hint : TypeHint) (fields : List ParsedField) : Value :=
  match TypeHint.isList hint, fields with
  | false, [field] => .atom (fileAtom hint field)
  | _, fields => .list (fields.map (fileAtom hint))

def fileStep (param : FieldParam) (fields : List ParsedField) : Step :=
  match fields with
  | [] => whenAbsent "body" param
  | fields => .bind (fileValue param.typeHint fields)

def readFormItem (inner : TypeHint) (field : ParsedField) : Option Atom :=
  if field.filename.isSome then some (.upload field)
  else tryCoerceStrToPy parseF64 field.text inner

def hasFile (fields : List ParsedField) : Bool :=
  fields.any fun field => field.filename.isSome

def emptyDefault (param : FieldParam) (text : String) : Option Value :=
  if text.isEmpty && !param.required then param.default else none

def formText (param : FieldParam) (text : String) : Step :=
  match emptyDefault param text with
  | some value => .bind value
  | none => (checkText parseF64 "body" param text).aborting

def formStep (param : FieldParam) (fields : List ParsedField) : Step :=
  match fields, param.typeHint with
  | [], _ => whenAbsent "body" param
  | fields, .list inner =>
    checkItems "body" param inner ParsedField.text (readFormItem parseF64 inner)
      (if hasFile fields then none else param.scalarValidator) fields
  | field :: _, _ =>
    if field.filename.isSome then .bind (.atom (.upload field))
    else formText parseF64 param field.text

/-- One round of the loop of `extract_params_to_pydict_full`, given the parts of
the form that the parameter finds under its name. -/
def fullStep (defers : Bool) (param : FieldParam) (request : Request)
    (fields : List ParsedField) : Step :=
  match param.kind with
  | .path => pathStep parseF64 param request
  | .query => queryStep parseF64 param request
  | .header => headerStep parseF64 param request
  | .cookie => cookieStep parseF64 defers param request
  | .form => formStep parseF64 param fields
  | .file => fileStep param fields

end Arms

section Single

variable (parseF64 : List Char → Option UInt64)

def singleFieldAtom (hint inner : TypeHint) (field : ParsedField) : Atom :=
  if field.filename.isSome && !wantsRawBytes hint then .upload field
  else if wantsRawBytes hint then .bytes field.data
  else coerceStrToPy parseF64 field.text inner

def singleField (param : FieldParam) (fields : List ParsedField) : Step :=
  match fields, TypeHint.isList param.typeHint with
  | [], _ => (whenAbsent "body" param).aborting
  | fields, true => .bind (.list (fields.map (singleFieldAtom parseF64 param.typeHint .str)))
  | field :: _, false =>
    .bind (.atom (singleFieldAtom parseF64 param.typeHint param.typeHint field))

def singleText (loc : String) (param : FieldParam) : Option String → Step
  | some raw => .bind (.atom (coerceStrToPy parseF64 raw param.typeHint))
  | none => whenAbsent loc param

def singleQueryList (param : FieldParam) (inner : TypeHint) (values : List String) : Step :=
  match values with
  | [] => whenAbsent "query" param
  | values => .bind (.list (values.map fun value => coerceStrToPy parseF64 value inner))

/-- `extract_single_param`.  No arm looks at the validator, and a list header is
read like any other. -/
def singleStep (param : FieldParam) (request : Request) (fields : List ParsedField) : Step :=
  match param.kind, param.typeHint with
  | .path, _ => singleText parseF64 "path" param (request.pathMap param.wireName)
  | .query, .list inner =>
    singleQueryList parseF64 param inner (request.queryMulti param.wireName)
  | .query, _ => singleText parseF64 "query" param (request.queryParams param.wireName)
  | .header, _ => singleText parseF64 "header" param (request.header param.wireName.toLower)
  | .cookie, _ => singleText parseF64 "cookie" param (request.cookie param.wireName)
  | .form, _ | .file, _ => singleField parseF64 param fields

structure SingleState where
  resolved : Dict String Value
  accum : List ErrorDetail
  deriving DecidableEq

def extractSingleParam (param : FieldParam) (request : Request) (fields : List ParsedField)
    (state : SingleState) : Outcome SingleState (List ErrorDetail) :=
  match singleStep parseF64 param request fields with
  | .bind value => .returned { state with resolved := state.resolved.set param.name value }
  | .skip => .returned state
  | .reject errors => .returned { state with accum := state.accum ++ errors }
  | .abort errors => .raised errors

end Single

section Full

variable (parseF64 : List Char → Option UInt64)

inductive Extraction where
  | response (details : List ErrorDetail)
  | kwargs (bound : Dict String Value) (deferred : List ErrorDetail)
  deriving DecidableEq

structure FullState where
  bound : Dict String Value
  errors : List ErrorDetail
  multipart : Dict String (List ParsedField)

def FieldKind.readsForm : FieldKind → Bool
  | .form | .file => true
  | _ => false

def FieldParam.takeFields (param : FieldParam) (multipart : Dict String (List ParsedField)) :
    List ParsedField × Dict String (List ParsedField) :=
  if param.kind.readsForm then
    ((multipart.get? param.wireName).getD [], multipart.erase param.wireName)
  else ([], multipart)

/-- The loop of `extract_params_to_pydict_full` and the block behind it. -/
def extractLoop (defers : Bool) (request : Request) : List FieldParam → FullState → Extraction
  | [], state =>
    if !state.errors.isEmpty && !defers then .response state.errors
    else .kwargs state.bound state.errors
  | param :: rest, state =>
    if !param.isHandlerParam then extractLoop defers request rest state
    else
      let taken := param.takeFields state.multipart
      let state := { state with multipart := taken.2 }
      match fullStep parseF64 defers param request taken.1 with
      | .bind value =>
        extractLoop defers request rest
          { state with bound := state.bound.set param.name value }
      | .skip => extractLoop defers request rest state
      | .reject errors =>
        extractLoop defers request rest { state with errors := state.errors ++ errors }
      | .abort errors => .response errors

def extractParamsToPydictFull (defers : Bool) (params : List FieldParam) (request : Request) :
    Extraction :=
  extractLoop parseF64 defers request params ⟨[], [], request.multipartFields⟩

end Full

inductive Extracted where
  | bound (value : Value)
  | unbound
  | error
  deriving DecidableEq

def Step.extracted : Step → Extracted
  | .bind value => .bound value
  | .skip => .unbound
  | .reject _ => .error
  | .abort _ => .error

def extractedFrom (name : String) (bound : Dict String Value) (errors : List ErrorDetail) :
    Extracted :=
  if errors.isEmpty then
    match bound.get? name with
    | some value => .bound value
    | none => .unbound
  else .error

def asDependencyInput (parseF64 : List Char → Option UInt64) (param : FieldParam)
    (request : Request) : Extracted :=
  match extractSingleParam parseF64 param request
    (request.fields param.wireName) ⟨[], []⟩ with
  | .returned state => extractedFrom param.name state.resolved state.accum
  | .raised _ => .error

def asHandlerParam (parseF64 : List Char → Option UInt64) (defers : Bool) (param : FieldParam)
    (request : Request) : Extracted :=
  match extractParamsToPydictFull parseF64 defers [{ param with isHandlerParam := true }]
    request with
  | .response _ => .error
  | .kwargs bound deferred => extractedFrom param.name bound deferred

def Step.Explains : Step → Prop
  | .reject errors => errors ≠ []
  | _ => True

theorem whenAbsent_explains (loc : String) (param : FieldParam) :
    (whenAbsent loc param).Explains := by
  unfold whenAbsent
  cases param.default with
  | some value => trivial
  | none => cases param.required <;> simp [Step.Explains]

theorem runScalarValidator_explains (loc : String) (param : FieldParam) (validator : Validator)
    (value : Value) : (runScalarValidator loc param validator value).Explains := by
  unfold runScalarValidator
  cases validator value <;> simp [Step.Explains, Rejection.errors]

theorem aborting_explains (step : Step) : step.aborting.Explains := by
  cases step <;> trivial

section Explains

variable (parseF64 : List Char → Option UInt64)

theorem checkText_explains (loc : String) (param : FieldParam) (raw : String) :
    (checkText parseF64 loc param raw).Explains := by
  unfold checkText
  cases param.scalarValidator with
  | some validator => exact runScalarValidator_explains loc param validator _
  | none => cases tryCoerceStrToPy parseF64 raw param.typeHint <;> simp [Step.Explains]

theorem checkItems_explains {β : Type} (loc : String) (param : FieldParam) (inner : TypeHint)
    (text : β → String) (read : β → Option Atom) (validator : Option Validator)
    (items : List β) : (checkItems loc param inner text read validator items).Explains := by
  unfold checkItems
  split
  · cases validator with
    | some validator => exact runScalarValidator_explains loc param validator _
    | none => trivial
  · rename_i hne
    simpa [Step.Explains] using hne

def FieldKind.location : FieldKind → String
  | .path => "path"
  | .query => "query"
  | .header => "header"
  | .cookie => "cookie"
  | .form | .file => "body"

theorem fullStep_rule (hh : Step → Prop) (defers : Bool) (param : FieldParam)
    (request : Request) (fields : List ParsedField)
    (hb : ∀ value, hh (.bind value))
    (ha : hh (whenAbsent param.kind.location param))
    (hv : ∀ validator value,
      hh (runScalarValidator param.kind.location param validator value))
    (ht : ∀ raw, hh (checkText parseF64 param.kind.location param raw))
    (hitems : ∀ {β : Type} inner text read validator (items : List β),
      hh (checkItems param.kind.location param inner text read validator items))
    (haborting : ∀ step, hh step → hh step.aborting)
    (hc : ∀ raw, param.kind = .cookie →
      hh (.abort [.coercion "cookie" param.name none raw param.typeHint])) :
    hh (fullStep parseF64 defers param request fields) := by
  unfold fullStep
  cases hk : param.kind with
  | path =>
    rw [hk] at ha ht
    simp only [pathStep]
    split
    · split
      · exact hb _
      · exact ht _
    · exact ha
  | query =>
    rw [hk] at ha ht hitems
    simp only [queryStep]
    split <;> split
    · exact ha
    · exact hitems _ _ _ _ _
    · exact ht _
    · exact ha
  | header =>
    rw [hk] at ha ht
    simp only [headerStep]
    split <;> split
    · exact ha
    · exact hb _
    · exact ht _
    · exact ha
  | cookie =>
    rw [hk] at ha hv
    simp only [cookieStep]
    split
    · split
      · exact haborting _ (hv _ _)
      · split
        · exact hb _
        · exact hc _ hk
    · split
      · exact ha
      · exact haborting _ ha
  | form =>
    rw [hk] at ha ht hitems
    simp only [formStep, formText]
    split
    · exact ha
    · exact hitems _ _ _ _ _
    · split
      · exact hb _
      · split
        · exact hb _
        · exact haborting _ (ht _)
  | file =>
    rw [hk] at ha
    simp only [fileStep]
    split
    · exact ha
    · exact hb _

theorem fullStep_explains (defers : Bool) (param : FieldParam) (request : Request)
    (fields : List ParsedField) : (fullStep parseF64 defers param request fields).Explains := by
  apply fullStep_rule
  · exact fun _ => trivial
  · exact whenAbsent_explains _ param
  · exact runScalarValidator_explains _ param
  · exact checkText_explains parseF64 _ param
  · exact fun inner text read validator items =>
      checkItems_explains _ param inner text read validator items
  · exact fun step _ => aborting_explains step
  · exact fun _ _ => trivial

end Explains

@[simp] theorem get?_set_nil (name : String) (value : Value) :
    Dict.get? (Dict.set [] name value) name = some value := by
  simp [Dict.get?, Dict.set, Dict.contains]

theorem extractedFrom_explains {errors : List ErrorDetail} (he : errors ≠ [])
    (name : String) (bound : Dict String Value) :
    extractedFrom name bound errors = .error := by
  simp [extractedFrom, he]

theorem asHandlerParam_eq (parseF64 : List Char → Option UInt64) (defers : Bool)
    (param : FieldParam) (request : Request) :
    asHandlerParam parseF64 defers param request =
      (fullStep parseF64 defers param request
        (param.takeFields request.multipartFields).1).extracted := by
  have he := fullStep_explains parseF64 defers param request
    (param.takeFields request.multipartFields).1
  have ht : ({ param with isHandlerParam := true } : FieldParam).takeFields
      request.multipartFields = param.takeFields request.multipartFields := rfl
  have hs : fullStep parseF64 defers { param with isHandlerParam := true } request =
      fullStep parseF64 defers param request := rfl
  simp only [asHandlerParam, extractParamsToPydictFull, extractLoop, ht, hs]
  cases hr : fullStep parseF64 defers param request
    (param.takeFields request.multipartFields).1 with
  | bind value => simp [Step.extracted, extractedFrom]
  | skip => simp [Step.extracted, extractedFrom, Dict.get?]
  | abort errors => simp [Step.extracted]
  | reject errors =>
    cases defers <;> simp_all [Step.extracted, Step.Explains, extractedFrom]

@[simp] theorem extracted_aborting (step : Step) : step.aborting.extracted = step.extracted := by
  cases step <;> rfl

section Agreement

variable (parseF64 : List Char → Option UInt64)

private theorem singleStep_explains (param : FieldParam) (request : Request)
    (fields : List ParsedField) : (singleStep parseF64 param request fields).Explains := by
  have ht (loc : String) (raw : Option String) :
      (singleText parseF64 loc param raw).Explains := by
    cases raw with
    | some raw => trivial
    | none => exact whenAbsent_explains loc param
  unfold singleStep
  split
  · exact ht "path" _
  · simp only [singleQueryList]
    split
    · exact whenAbsent_explains "query" param
    · trivial
  · exact ht "query" _
  · exact ht "header" _
  · exact ht "cookie" _
  all_goals
    simp only [singleField]
    split
    · exact aborting_explains _
    · trivial
    · trivial

theorem asDependencyInput_eq (param : FieldParam) (request : Request) :
    asDependencyInput parseF64 param request =
      (singleStep parseF64 param request (request.fields param.wireName)).extracted := by
  have he := singleStep_explains parseF64 param request (request.fields param.wireName)
  unfold asDependencyInput extractSingleParam
  cases hs : singleStep parseF64 param request (request.fields param.wireName) with
  | bind value => simp [Step.extracted, extractedFrom]
  | skip => simp [Step.extracted, extractedFrom, Dict.get?]
  | abort errors => simp [Step.extracted]
  | reject errors =>
    rw [hs] at he
    simpa [Step.extracted] using extractedFrom_explains he param.name []

/-- The validator accepts the raw string and makes of it what the coercion does. -/
def AcceptsAsCoerced (param : FieldParam) (validator : Validator) (raw : String) : Prop :=
  validator (.atom (.str raw)) =
    .returned (.atom (coerceStrToPy parseF64 raw param.typeHint))

theorem bound_eq_runScalarValidator_iff (loc : String) (param : FieldParam)
    (validator : Validator) (input value : Value) :
    Extracted.bound value = (runScalarValidator loc param validator input).extracted ↔
      validator input = .returned value := by
  unfold runScalarValidator
  cases validator input with
  | returned validated => simp [Step.extracted, eq_comm]
  | raised rejection => simp [Step.extracted]

variable {validator : Validator}

theorem singleText_eq_checkText_iff (loc : String) (param : FieldParam)
    (hv : param.scalarValidator = some validator) (raw : Option String) :
    (singleText parseF64 loc param raw).extracted =
        (match raw with
          | some raw => checkText parseF64 loc param raw
          | none => whenAbsent loc param).extracted ↔
      ∀ text, raw = some text → AcceptsAsCoerced parseF64 param validator text := by
  cases raw with
  | none => simp [singleText]
  | some text =>
    simp only [checkText, hv, Option.some.injEq, forall_eq']
    exact bound_eq_runScalarValidator_iff loc param validator _ _

private theorem coerceStrToPy_of_fastLane {param : FieldParam} {raw : String} {atom : Atom}
    (hf : fastLane param raw = some atom) :
    coerceStrToPy parseF64 raw param.typeHint = atom := by
  unfold fastLane at hf
  split at hf
  · simp [coerceStrToPy, tryCoerceStrToPy_of_fast parseF64 hf]
  · simp at hf

theorem path_agrees_iff (param : FieldParam) (request : Request)
    (hv : param.scalarValidator = some validator) :
    (singleText parseF64 "path" param (request.pathMap param.wireName)).extracted =
        (pathStep parseF64 param request).extracted ↔
      ∀ raw, request.pathMap param.wireName = some raw → fastLane param raw = none →
        AcceptsAsCoerced parseF64 param validator raw := by
  have ht := singleText_eq_checkText_iff parseF64 "path" param hv
    (request.pathMap param.wireName)
  unfold pathStep
  cases hraw : request.pathMap param.wireName with
  | none => simp [singleText]
  | some raw =>
    cases hf : fastLane param raw with
    | none => simpa [hraw, hf] using ht
    | some atom =>
      simp [hf, singleText, coerceStrToPy_of_fastLane parseF64 hf]

theorem itemErrors_eq_nil_iff {β : Type} (loc : String) (param : FieldParam) (inner : TypeHint)
    (text : β → String) (read : β → Option Atom) (items : List β) :
    itemErrors loc param inner text read items = [] ↔ ∀ item ∈ items, read item ≠ none := by
  unfold itemErrors
  rw [filterMap_eq_nil_iff]
  constructor
  · intro he item hitem hr
    obtain ⟨index, hindex⟩ := mem_iff_getElem?.1 hitem
    have hn := he (item, index) (mem_zipIdx_iff_getElem?.2 hindex)
    simp [hr] at hn
  · rintro hr ⟨item, index⟩ hitem
    have hmem := hr item (fst_mem_of_mem_zipIdx hitem)
    cases hv : read item with
    | none => exact absurd hv hmem
    | some atom => simp

private theorem map_coerce_of_coercible (inner : TypeHint) (values : List String)
    (hv : ∀ value ∈ values, tryCoerceStrToPy parseF64 value inner ≠ none) :
    values.map (fun value => coerceStrToPy parseF64 value inner) =
      values.filterMap (tryCoerceStrToPy parseF64 · inner) := by
  induction values with
  | nil => rfl
  | cons value rest ih =>
    have hr := ih fun other hmem => hv other (mem_cons_of_mem value hmem)
    cases hvalue : tryCoerceStrToPy parseF64 value inner with
    | none => exact absurd hvalue (hv value mem_cons_self)
    | some atom =>
      rw [map_cons, hr]
      simp [coerceStrToPy, hvalue]

theorem queryList_agrees_iff (param : FieldParam) (inner : TypeHint) (values : List String)
    (hv : param.scalarValidator = some validator) (hvalues : values ≠ []) :
    (singleQueryList parseF64 param inner values).extracted =
        (checkItems "query" param inner id (tryCoerceStrToPy parseF64 · inner)
          param.scalarValidator values).extracted ↔
      (∀ value ∈ values, tryCoerceStrToPy parseF64 value inner ≠ none) ∧
        validator (.list (values.map fun value => coerceStrToPy parseF64 value inner)) =
          .returned (.list (values.map fun value => coerceStrToPy parseF64 value inner)) := by
  have hs : singleQueryList parseF64 param inner values =
      .bind (.list (values.map fun value => coerceStrToPy parseF64 value inner)) := by
    cases values with
    | nil => exact absurd rfl hvalues
    | cons value rest => rfl
  rw [hs, checkItems, ← itemErrors_eq_nil_iff "query" param inner id]
  cases he : itemErrors "query" param inner id (tryCoerceStrToPy parseF64 · inner) values with
  | nil =>
    rw [map_coerce_of_coercible parseF64 inner values
      ((itemErrors_eq_nil_iff "query" param inner id _ values).1 he), hv]
    simpa [Step.extracted] using bound_eq_runScalarValidator_iff "query" param validator _ _
  | cons error rest => simp [Step.extracted]

/-- The cases in which the two extractors agree on a parameter with a validator:
it is absent, or the validator returns just what the coercion makes of the raw
value.  A list header that is present is read in two different ways; the only
chance is that its first value is unreadable and the default is the list of the
others. -/
def SingleAgrees (param : FieldParam) (validator : Validator) (request : Request) : Prop :=
  match param.kind, param.typeHint with
  | .path, _ =>
    ∀ raw, request.pathMap param.wireName = some raw → fastLane param raw = none →
      AcceptsAsCoerced parseF64 param validator raw
  | .query, .list inner =>
    request.queryMulti param.wireName = [] ∨
      ((∀ value ∈ request.queryMulti param.wireName,
          tryCoerceStrToPy parseF64 value inner ≠ none) ∧
        validator (.list ((request.queryMulti param.wireName).map
            fun value => coerceStrToPy parseF64 value inner)) =
          .returned (.list ((request.queryMulti param.wireName).map
            fun value => coerceStrToPy parseF64 value inner)))
  | .query, _ =>
    ∀ raw, request.queryParams param.wireName = some raw →
      AcceptsAsCoerced parseF64 param validator raw
  | .header, .list _ =>
    request.headerList param.wireName.toLower = [] ∨
      (request.header param.wireName.toLower = none ∧
        param.default =
          some (.list ((request.headerList param.wireName.toLower).map Atom.str)))
  | .header, _ =>
    ∀ raw, request.header param.wireName.toLower = some raw →
      AcceptsAsCoerced parseF64 param validator raw
  | .cookie, _ =>
    ∀ raw, request.cookie param.wireName = some raw →
      AcceptsAsCoerced parseF64 param validator raw
  | .form, _ | .file, _ => False

private theorem header_eq_none_of_headerList (request : Request) (name : String)
    (he : request.headerList name = []) : request.header name = none := by
  unfold Request.headerList at he
  unfold Request.header
  cases hv : request.headerValues name with
  | nil => rfl
  | cons value rest =>
    rw [hv, filterMap_eq_nil_iff] at he
    exact he value mem_cons_self

theorem headerList_agrees_iff (param : FieldParam) (inner : TypeHint) (request : Request)
    (hh : param.typeHint = .list inner) :
    (singleText parseF64 "header" param
          (request.header param.wireName.toLower)).extracted =
        (headerStep parseF64 param request).extracted ↔
      request.headerList param.wireName.toLower = [] ∨
        (request.header param.wireName.toLower = none ∧ param.default =
            some (.list ((request.headerList param.wireName.toLower).map Atom.str))) := by
  simp only [headerStep, hh]
  cases hl : request.headerList param.wireName.toLower with
  | nil => simp [header_eq_none_of_headerList request _ hl, singleText]
  | cons value rest =>
    cases hheader : request.header param.wireName.toLower with
    | some raw =>
      simp [singleText, Step.extracted]
    | none =>
      simp only [singleText, whenAbsent]
      cases hd : param.default with
      | some default => simp [Step.extracted]
      | none => cases param.required <;> simp [Step.extracted]

theorem query_agrees_iff (param : FieldParam) (request : Request)
    (hv : param.scalarValidator = some validator)
    (hk : param.kind = .query) (fields : List ParsedField) :
    (singleStep parseF64 param request fields).extracted =
        (queryStep parseF64 param request).extracted ↔
      SingleAgrees parseF64 param validator request := by
  have ht := singleText_eq_checkText_iff parseF64 "query" param hv
    (request.queryParams param.wireName)
  unfold singleStep queryStep SingleAgrees
  rw [hk]
  cases hh : param.typeHint with
  | list inner =>
    cases hvalues : request.queryMulti param.wireName with
    | nil => simp [singleQueryList]
    | cons value rest =>
      simpa using queryList_agrees_iff parseF64 param inner (value :: rest) hv (by simp)
  | _ => exact ht

theorem header_agrees_iff (param : FieldParam) (request : Request)
    (hv : param.scalarValidator = some validator)
    (hk : param.kind = .header) (fields : List ParsedField) :
    (singleStep parseF64 param request fields).extracted =
        (headerStep parseF64 param request).extracted ↔
      SingleAgrees parseF64 param validator request := by
  have ht := singleText_eq_checkText_iff parseF64 "header" param hv
    (request.header param.wireName.toLower)
  unfold singleStep SingleAgrees
  rw [hk]
  cases hh : param.typeHint with
  | list inner => exact headerList_agrees_iff parseF64 param inner request hh
  | _ => simpa only [headerStep, hh] using ht

private theorem cookie_agrees_iff (defers : Bool) (param : FieldParam) (request : Request)
    (hv : param.scalarValidator = some validator) :
    (singleText parseF64 "cookie" param (request.cookie param.wireName)).extracted =
        (cookieStep parseF64 defers param request).extracted ↔
      ∀ raw, request.cookie param.wireName = some raw →
        AcceptsAsCoerced parseF64 param validator raw := by
  rw [← singleText_eq_checkText_iff parseF64 "cookie" param hv]
  unfold cookieStep checkText
  cases request.cookie param.wireName with
  | none => cases defers <;> simp
  | some raw => simp [hv]

/-- The input of a dependency and the parameter of a handler come out the same in
exactly the cases of `SingleAgrees`. -/
theorem dependency_input_agrees_iff (defers : Bool) (param : FieldParam)
    (hkind : param.kind.readsForm = false) {validator : Validator}
    (hvalidator : param.scalarValidator = some validator) (request : Request) :
    asDependencyInput parseF64 param request = asHandlerParam parseF64 defers param request ↔
      SingleAgrees parseF64 param validator request := by
  rw [asDependencyInput_eq, asHandlerParam_eq]
  cases hp : param.kind with
  | path =>
    simpa only [singleStep, fullStep, SingleAgrees, hp] using
      path_agrees_iff parseF64 param request hvalidator
  | query =>
    simpa only [fullStep, hp] using
      query_agrees_iff parseF64 param request hvalidator hp _
  | header =>
    simpa only [fullStep, hp] using
      header_agrees_iff parseF64 param request hvalidator hp _
  | cookie =>
    simpa only [singleStep, fullStep, SingleAgrees, hp] using
      cookie_agrees_iff parseF64 defers param request hvalidator
  | form | file => simp [hp, FieldKind.readsForm] at hkind

end Agreement

def emptyRequest : Request where
  pathMap := fun _ => none
  queryParams := fun _ => none
  queryMulti := fun _ => []
  headers := none
  multipartFields := []

/-- What Pydantic makes of `Annotated[int, Query(ge=1)]`. -/
def atLeastOne : Validator := fun value =>
  match value with
  | .atom (.str text) =>
    match parseI64 text.toList with
    | some number =>
      if 1 ≤ number then .returned (.atom (.int number))
      else
        .raised ⟨⟨"greater_than_equal", [],
          "Input should be greater than or equal to 1", value, some "\x7b\"ge\":1\x7d"⟩, []⟩
    | none =>
      .raised ⟨⟨"int_parsing", [], (coercionType .int).2, value, none⟩, []⟩
  | _ => .raised ⟨⟨"int_type", [], "Input should be a valid integer", value, none⟩, []⟩

def limitParam : FieldParam where
  name := "limit"
  kind := .query
  typeHint := .int
  required := true
  hasDefault := false
  defaultValue := none
  fastPathCoerce := false
  scalarValidator := some atLeastOne
  aliasName := none
  isHandlerParam := true

def limitRequest (limit : String) : Request :=
  { emptyRequest with queryParams := fun name => if name = "limit" then some limit else none }

theorem limit_five_agrees :
    limitParam.kind.readsForm = false ∧
      asDependencyInput (fun _ => none) limitParam (limitRequest "5") =
        asHandlerParam (fun _ => none) false limitParam (limitRequest "5") := by
  have hv : limitParam.scalarValidator = some atLeastOne := rfl
  refine ⟨rfl, ?_⟩
  refine (dependency_input_agrees_iff (fun _ => none) false limitParam rfl hv
    (limitRequest "5")).2 ?_
  intro raw hraw
  have hf : raw = "5" := by
    simpa [limitRequest, limitParam, FieldParam.wireName, eq_comm] using hraw
  subst hf
  unfold AcceptsAsCoerced
  decide

/-- A dependency receives the `0` that the validator turns away from a handler. -/
theorem limit_zero_reaches_dependency :
    asDependencyInput (fun _ => none) limitParam (limitRequest "0") = .bound (.atom (.int 0)) ∧
      asHandlerParam (fun _ => none) false limitParam (limitRequest "0") = .error := by
  decide

end FastapiTurbo.Extract
