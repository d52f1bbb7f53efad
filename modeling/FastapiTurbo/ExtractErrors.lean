import FastapiTurbo.Extract
import FastapiTurbo.Lib.Lists

/-! Which errors a rejected request is told about: the 422 of
`extract_params_to_pydict_full` against the errors of its parameters, each looked
at on its own. -/
namespace FastapiTurbo.ExtractErrors

open Lib Coercion Extract List

def stepErrors : Step → List ErrorDetail
  | .reject errors | .abort errors => errors
  | _ => []

def reportedDetails : Extraction → Option (List ErrorDetail)
  | .response details => some details
  | .kwargs _ [] => none
  | .kwargs _ deferred => some deferred

section Expected

variable (parseF64 : List Char → Option UInt64)

def checkValue (loc : String) (param : FieldParam) (value : Value) : Step :=
  match param.scalarValidator with
  | some validator => runScalarValidator loc param validator value
  | none => .bind value

def expectedText (loc : String) (param : FieldParam) : Option String → Step
  | some raw => checkText parseF64 loc param raw
  | none => whenAbsent loc param

/-- A list as it was sent, given to the validator of the parameter.  Without one the
elements are validated by the inner type hint. -/
def expectedItems {β : Type} (loc : String) (param : FieldParam) (inner : TypeHint)
    (text : β → String) (raw : β → Atom) (read : β → Option Atom) (items : List β) : Step :=
  match param.scalarValidator with
  | some validator => runScalarValidator loc param validator (.list (items.map raw))
  | none => checkItems loc param inner text read none items

def expectedTexts (loc : String) (param : FieldParam) (inner : TypeHint) :
    List String → Step
  | [] => whenAbsent loc param
  | values =>
    expectedItems loc param inner id Atom.str (tryCoerceStrToPy parseF64 · inner) values

def expectedQuery (param : FieldParam) (request : Request) : Step :=
  match param.typeHint with
  | .list inner =>
    expectedTexts parseF64 "query" param inner (request.queryMulti param.wireName)
  | _ => expectedText parseF64 "query" param (request.queryParams param.wireName)

def expectedHeader (param : FieldParam) (request : Request) : Step :=
  match param.typeHint with
  | .list inner =>
    expectedTexts parseF64 "header" param inner
      (request.headerList param.wireName.toLower)
  | _ => expectedText parseF64 "header" param (request.header param.wireName.toLower)

def sentFormItem (field : ParsedField) : Atom :=
  if field.filename.isSome then .upload field else .str field.text

def expectedForm (param : FieldParam) (fields : List ParsedField) : Step :=
  match fields, param.typeHint with
  | [], _ => whenAbsent "body" param
  | fields, .list inner =>
    expectedItems "body" param inner ParsedField.text sentFormItem
      (readFormItem parseF64 inner) fields
  | field :: _, _ =>
    if field.filename.isSome then checkValue "body" param (.atom (.upload field))
    else
      match emptyDefault param field.text with
      | some value => .bind value
      | none => checkText parseF64 "body" param field.text

def expectedFile (param : FieldParam) (fields : List ParsedField) : Step :=
  match fields with
  | [] => whenAbsent "body" param
  | fields => checkValue "body" param (fileValue param.typeHint fields)

/-- A parameter looked at on its own: missing, or its raw value given to its
validator, where a parameter without one is validated by its type hint. -/
def expectedStep (param : FieldParam) (request : Request) : Step :=
  match param.kind with
  | .path => expectedText parseF64 "path" param (request.pathMap param.wireName)
  | .query => expectedQuery parseF64 param request
  | .header => expectedHeader parseF64 param request
  | .cookie => expectedText parseF64 "cookie" param (request.cookie param.wireName)
  | .form => expectedForm parseF64 param (request.fields param.wireName)
  | .file => expectedFile param (request.fields param.wireName)

def expectedErrors (request : Request) (param : FieldParam) : List ErrorDetail :=
  stepErrors (expectedStep parseF64 param request)

def unchecked (request : Request) (param : FieldParam) : Bool :=
  match param.kind with
  | .path => ((request.pathMap param.wireName).bind (fastLane param)).isSome
  | .header =>
    TypeHint.isList param.typeHint && !(request.headerList param.wireName.toLower).isEmpty
  | .file => !(request.fields param.wireName).isEmpty
  | .form =>
    match request.fields param.wireName, param.typeHint with
    | [], _ => false
    | fields, .list inner =>
      hasFile fields && fields.all fun field => (readFormItem parseF64 inner field).isSome
    | field :: _, _ => field.filename.isSome
  | _ => false

/-- The errors of a query or form list whose elements are coerced before its validator
is asked: those of the coercion, else those the validator has for the coerced list. -/
def coercedErrors (request : Request) (param : FieldParam) : Option (List ErrorDetail) :=
  match param.scalarValidator, param.kind, param.typeHint with
  | some validator, .query, .list inner =>
    match request.queryMulti param.wireName with
    | [] => none
    | values =>
      some (stepErrors (checkItems "query" param inner id (tryCoerceStrToPy parseF64 · inner)
        (some validator) values))
  | some validator, .form, .list inner =>
    match request.fields param.wireName with
    | [] => none
    | fields =>
      some (stepErrors (checkItems "body" param inner ParsedField.text
        (readFormItem parseF64 inner) (if hasFile fields then none else some validator) fields))
  | _, _, _ => none

def foundErrors (request : Request) (param : FieldParam) : List ErrorDetail :=
  if unchecked parseF64 request param then []
  else (coercedErrors parseF64 request param).getD (expectedErrors parseF64 request param)

def Abrupt (defers : Bool) (request : Request) (param : FieldParam) : Prop :=
  expectedErrors parseF64 request param ≠ [] ∧
    match param.kind with
    | .cookie => (request.cookie param.wireName).isSome = true ∨ defers = false
    | .form =>
      TypeHint.isList param.typeHint = false ∧
        ∃ field, (request.fields param.wireName).head? = some field ∧ field.filename = none
    | _ => False

/-- A cookie without a validator that fails to coerce is reported under the name of
the Python parameter. -/
def NamedOnWire (request : Request) (param : FieldParam) : Prop :=
  param.kind = .cookie → param.scalarValidator = none →
    (request.cookie param.wireName).isSome = true → param.name = param.wireName

@[simp] theorem stepErrors_aborting (step : Step) : stepErrors step.aborting = stepErrors step := by
  cases step <;> rfl

theorem aborting_eq_abort {step : Step} (hstep : stepErrors step ≠ []) :
    step.aborting = .abort (stepErrors step) := by
  cases step <;> simp_all [stepErrors, Step.aborting]

theorem aborting_ne_abort {step : Step} (herrors : step.Explains)
    (hgoes : ∀ errors, step ≠ .abort errors)
    (hstep : stepErrors step = []) (errors : List ErrorDetail) : step.aborting ≠ .abort errors := by
  cases step <;> simp_all [stepErrors, Step.aborting, Step.Explains]

def ErrorDetail.Names (loc name : String) (detail : ErrorDetail) : Prop :=
  [.key loc, .key name] <+: detail.json.loc

def StepNames (loc name : String) (step : Step) : Prop :=
  ∀ detail ∈ stepErrors step, ErrorDetail.Names loc name detail

/-- A check does not end the loop, and items errors name the parameter. -/
structure Checks (loc : String) (param : FieldParam) (step : Step) : Prop where
  goes_on : ∀ errors, step ≠ .abort errors
  names : StepNames loc param.wireName step

section Checks

variable (loc : String) (param : FieldParam)

theorem bind_checks (value : Value) : Checks loc param (.bind value) := by
  constructor <;> simp [StepNames, stepErrors]

theorem whenAbsent_checks : Checks loc param (whenAbsent loc param) := by
  unfold whenAbsent
  cases param.default with
  | some value => exact bind_checks loc param value
  | none =>
    cases param.required <;> constructor <;>
      simp [StepNames, stepErrors, ErrorDetail.Names, ErrorDetail.json]

theorem runScalarValidator_checks (validator : Validator) (value : Value) :
    Checks loc param (runScalarValidator loc param validator value) := by
  unfold runScalarValidator
  cases validator value with
  | returned validated => exact bind_checks loc param validated
  | raised rejection =>
    refine ⟨by simp, fun detail hdetail => ?_⟩
    obtain ⟨error, -, rfl⟩ := mem_map.1 hdetail
    simp [ErrorDetail.Names, ErrorDetail.json]

theorem checkText_checks (raw : String) :
    Checks loc param (checkText parseF64 loc param raw) := by
  unfold checkText
  cases param.scalarValidator with
  | some validator => exact runScalarValidator_checks loc param validator _
  | none =>
    cases tryCoerceStrToPy parseF64 raw param.typeHint <;> constructor <;>
      simp [StepNames, stepErrors, ErrorDetail.Names, ErrorDetail.json]

theorem checkValue_checks (value : Value) : Checks loc param (checkValue loc param value) := by
  unfold checkValue
  cases param.scalarValidator with
  | some validator => exact runScalarValidator_checks loc param validator _
  | none => exact bind_checks loc param value

variable {β : Type} (inner : TypeHint) (text : β → String) (read : β → Option Atom)

theorem checkItems_checks (validator : Option Validator) (items : List β) :
    Checks loc param (checkItems loc param inner text read validator items) := by
  unfold checkItems
  split
  · cases validator with
    | some validator => exact runScalarValidator_checks loc param validator _
    | none => exact bind_checks loc param _
  · refine ⟨by simp, fun detail hdetail => ?_⟩
    obtain ⟨item, -, hitem⟩ := mem_filterMap.1 hdetail
    cases hread : read item.1 <;> simp only [hread, Option.some.injEq, reduceCtorEq] at hitem
    subst hitem
    simp [ErrorDetail.Names, ErrorDetail.json]

theorem expectedItems_checks (raw : β → Atom) (items : List β) :
    Checks loc param (expectedItems loc param inner text raw read items) := by
  unfold expectedItems
  split
  · exact runScalarValidator_checks loc param _ _
  · exact checkItems_checks loc param inner text read none items

theorem expectedText_checks (raw : Option String) :
    Checks loc param (expectedText parseF64 loc param raw) := by
  cases raw with
  | none => exact whenAbsent_checks loc param
  | some raw => exact checkText_checks parseF64 loc param raw

private theorem expectedTexts_checks (values : List String) :
    Checks loc param (expectedTexts parseF64 loc param inner values) := by
  cases values with
  | nil => exact whenAbsent_checks loc param
  | cons value rest => exact expectedItems_checks loc param inner id _ Atom.str _

end Checks

theorem expectedStep_checks (param : FieldParam) (request : Request) :
    Checks param.kind.location param (expectedStep parseF64 param request) := by
  unfold expectedStep
  cases hkind : param.kind with
  | path => exact expectedText_checks parseF64 "path" param _
  | cookie => exact expectedText_checks parseF64 "cookie" param _
  | query =>
    simp only [expectedQuery]
    split
    · exact expectedTexts_checks parseF64 "query" param _ _
    · exact expectedText_checks parseF64 "query" param _
  | header =>
    simp only [expectedHeader]
    split
    · exact expectedTexts_checks parseF64 "header" param _ _
    · exact expectedText_checks parseF64 "header" param _
  | form =>
    simp only [expectedForm]
    split
    · exact whenAbsent_checks "body" param
    · exact expectedItems_checks "body" param _ _ _ _ _
    · split
      · exact checkValue_checks "body" param _
      · split
        · exact bind_checks "body" param _
        · exact checkText_checks parseF64 "body" param _
  | file =>
    simp only [expectedFile]
    split
    · exact whenAbsent_checks "body" param
    · exact checkValue_checks "body" param _

theorem coercedErrors_of_kind (request : Request) (param : FieldParam)
    (hquery : param.kind ≠ .query) (hform : param.kind ≠ .form) :
    coercedErrors parseF64 request param = none := by
  unfold coercedErrors
  split <;> simp_all

theorem coercedErrors_of_scalar (request : Request) (param : FieldParam)
    (hscalar : TypeHint.isList param.typeHint = false) :
    coercedErrors parseF64 request param = none := by
  unfold coercedErrors
  split <;> simp_all [TypeHint.isList]

def Adds (step : Step) (request : Request) (param : FieldParam) : Prop :=
  stepErrors step = foundErrors parseF64 request param ∧ ∀ errors, step ≠ .abort errors

section Arms

variable (request : Request) (param : FieldParam)

theorem pathStep_adds (hkind : param.kind = .path) :
    Adds parseF64 (pathStep parseF64 param request) request param := by
  unfold Adds pathStep foundErrors unchecked expectedErrors expectedStep
  rw [coercedErrors_of_kind parseF64 request param (by simp [hkind]) (by simp [hkind]), hkind]
  cases hraw : request.pathMap param.wireName with
  | none => exact ⟨by simp [expectedText], (whenAbsent_checks "path" param).goes_on⟩
  | some raw =>
    cases hfast : fastLane param raw with
    | some atom => simp [hfast, stepErrors]
    | none =>
      simp only [hfast]
      exact ⟨by simp [hfast, expectedText], (checkText_checks parseF64 "path" param raw).goes_on⟩

private theorem queryList_adds (hkind : param.kind = .query) (inner : TypeHint)
    (hhint : param.typeHint = .list inner) :
    Adds parseF64 (queryStep parseF64 param request) request param := by
  unfold Adds queryStep foundErrors unchecked coercedErrors expectedErrors expectedStep
    expectedQuery
  simp only [hkind, hhint]
  cases hvalues : request.queryMulti param.wireName with
  | nil =>
    refine ⟨?_, (whenAbsent_checks "query" param).goes_on⟩
    cases param.scalarValidator <;> simp [expectedTexts]
  | cons value rest =>
    refine ⟨?_, (checkItems_checks "query" param _ _ _ _ _).goes_on⟩
    cases hvalidator : param.scalarValidator <;> simp [expectedTexts, expectedItems, hvalidator]

theorem queryStep_adds (hkind : param.kind = .query) :
    Adds parseF64 (queryStep parseF64 param request) request param := by
  cases hhint : param.typeHint with
  | list inner => exact queryList_adds parseF64 request param hkind inner hhint
  | _ =>
    unfold Adds queryStep foundErrors unchecked expectedErrors expectedStep expectedQuery
    rw [coercedErrors_of_scalar parseF64 request param (by simp [hhint, TypeHint.isList])]
    simp only [hkind, hhint]
    cases hraw : request.queryParams param.wireName with
    | none => exact ⟨by simp [expectedText], (whenAbsent_checks "query" param).goes_on⟩
    | some raw =>
      exact ⟨by simp [expectedText], (checkText_checks parseF64 "query" param raw).goes_on⟩

theorem headerStep_adds (hkind : param.kind = .header) :
    Adds parseF64 (headerStep parseF64 param request) request param := by
  unfold Adds foundErrors unchecked expectedErrors expectedStep
  rw [coercedErrors_of_kind parseF64 request param (by simp [hkind]) (by simp [hkind]), hkind]
  simp only [headerStep, expectedHeader]
  cases hhint : param.typeHint with
  | list inner =>
    cases hvalues : request.headerList param.wireName.toLower with
    | nil => exact ⟨by simp [expectedTexts], (whenAbsent_checks "header" param).goes_on⟩
    | cons value rest => simp [TypeHint.isList, stepErrors]
  | _ =>
    cases hraw : request.header param.wireName.toLower with
    | none =>
      exact ⟨by simp [TypeHint.isList, expectedText], (whenAbsent_checks "header" param).goes_on⟩
    | some raw =>
      exact ⟨by simp [TypeHint.isList, expectedText],
        (checkText_checks parseF64 "header" param raw).goes_on⟩

theorem fileStep_adds (hkind : param.kind = .file) :
    Adds parseF64 (fileStep param (request.fields param.wireName)) request param := by
  unfold Adds foundErrors unchecked expectedErrors expectedStep
  rw [coercedErrors_of_kind parseF64 request param (by simp [hkind]) (by simp [hkind]), hkind]
  simp only [fileStep, expectedFile]
  cases hfields : request.fields param.wireName with
  | nil => exact ⟨by simp, (whenAbsent_checks "body" param).goes_on⟩
  | cons field rest => simp [stepErrors]

theorem cookieStep_adds (defers : Bool) (hkind : param.kind = .cookie)
    (habrupt : ¬Abrupt parseF64 defers request param) :
    Adds parseF64 (cookieStep parseF64 defers param request) request param := by
  unfold Abrupt at habrupt
  unfold Adds foundErrors unchecked
  rw [coercedErrors_of_kind parseF64 request param (by simp [hkind]) (by simp [hkind])]
  unfold expectedErrors expectedStep at habrupt ⊢
  rw [hkind] at habrupt ⊢
  simp only [cookieStep]
  cases hraw : request.cookie param.wireName with
  | none =>
    cases defers with
    | true => exact ⟨by simp [expectedText], (whenAbsent_checks "cookie" param).goes_on⟩
    | false =>
      have herrors : stepErrors (whenAbsent "cookie" param) = [] := by
        simpa [hraw, expectedText] using habrupt
      refine ⟨by simp [expectedText], ?_⟩
      exact aborting_ne_abort (whenAbsent_explains "cookie" param)
        (whenAbsent_checks "cookie" param).goes_on herrors
  | some raw =>
    have herrors : stepErrors (checkText parseF64 "cookie" param raw) = [] := by
      simpa [hraw, expectedText] using habrupt
    cases hvalidator : param.scalarValidator with
    | some validator =>
      simp only [checkText, hvalidator] at herrors
      refine ⟨by simp [expectedText, checkText, hvalidator], ?_⟩
      exact aborting_ne_abort (runScalarValidator_explains "cookie" param validator _)
        (runScalarValidator_checks "cookie" param validator _).goes_on herrors
    | none =>
      simp only [checkText, hvalidator] at herrors
      cases hcoerced : tryCoerceStrToPy parseF64 raw param.typeHint with
      | some atom => simp [expectedText, checkText, hvalidator, hcoerced, stepErrors]
      | none => simp [hcoerced, stepErrors] at herrors

/-- The errors of a form list are those of items elements once one of items parts is a
file, and none if they can all be read. -/
theorem checkItems_fields (inner : TypeHint) (fields : List ParsedField) :
    stepErrors (checkItems "body" param inner ParsedField.text (readFormItem parseF64 inner)
        none fields) =
      if fields.all fun field => (readFormItem parseF64 inner field).isSome then []
      else itemErrors "body" param inner ParsedField.text (readFormItem parseF64 inner) fields := by
  have hread := itemErrors_eq_nil_iff "body" param inner ParsedField.text
    (readFormItem parseF64 inner) fields
  simp only [← Option.isSome_iff_ne_none, ← all_eq_true] at hread
  unfold checkItems
  split
  · next hnil => simp [hread.1 hnil, stepErrors]
  · next errors hne =>
    rw [if_neg fun hall => hne (hread.2 hall)]
    rfl

private theorem formList_adds (hkind : param.kind = .form) (inner : TypeHint)
    (hhint : param.typeHint = .list inner) (field : ParsedField) (rest : List ParsedField)
    (hfields : request.fields param.wireName = field :: rest) :
    Adds parseF64 (formStep parseF64 param (field :: rest)) request param := by
  have hitems := checkItems_fields parseF64 param inner (field :: rest)
  unfold Adds foundErrors unchecked coercedErrors expectedErrors expectedStep
  simp only [formStep, expectedForm, hkind, hfields, hhint]
  refine ⟨?_, (checkItems_checks "body" param _ _ _ _ _).goes_on⟩
  cases hfile : hasFile (field :: rest) with
  | false =>
    cases hvalidator : param.scalarValidator <;> simp [expectedItems, hvalidator]
  | true =>
    simp only [if_true, Bool.true_and]
    cases hvalidator : param.scalarValidator with
    | some validator =>
      simp only [Option.getD_some]
      split <;> simp_all
    | none =>
      simp only [expectedItems, hvalidator, Option.getD_none]
      split <;> simp_all

private theorem formStep_adds (defers : Bool) (hkind : param.kind = .form)
    (habrupt : ¬Abrupt parseF64 defers request param) :
    Adds parseF64 (formStep parseF64 param (request.fields param.wireName)) request param := by
  cases hfields : request.fields param.wireName with
  | nil =>
    refine ⟨?_, (whenAbsent_checks "body" param).goes_on⟩
    have hcoerced : coercedErrors parseF64 request param = none := by
      unfold coercedErrors
      split <;> simp_all
    simp [foundErrors, unchecked, hcoerced, expectedErrors, expectedStep, expectedForm, hkind,
      hfields, formStep]
  | cons field rest =>
    cases hhint : param.typeHint with
    | list inner => exact formList_adds parseF64 request param hkind inner hhint field rest hfields
    | _ =>
      unfold Abrupt at habrupt
      unfold Adds foundErrors unchecked
      rw [coercedErrors_of_scalar parseF64 request param (by simp [hhint, TypeHint.isList])]
      unfold expectedErrors expectedStep at habrupt ⊢
      rw [hkind, hfields] at habrupt ⊢
      simp only [formStep, formText, expectedForm, hhint, TypeHint.isList] at habrupt ⊢
      cases hfile : field.filename with
      | some filename => simp [stepErrors]
      | none =>
        cases hdefault : emptyDefault param field.text with
        | some value => simp [stepErrors]
        | none =>
          have herrors : stepErrors (checkText parseF64 "body" param field.text) = [] := by
            simpa [hfile, hdefault] using habrupt
          refine ⟨by simp, ?_⟩
          exact aborting_ne_abort (checkText_explains parseF64 "body" param _)
            (checkText_checks parseF64 "body" param _).goes_on herrors

theorem fullStep_adds (defers : Bool) (habrupt : ¬Abrupt parseF64 defers request param) :
    Adds parseF64 (fullStep parseF64 defers param request (request.fields param.wireName))
      request param := by
  unfold fullStep
  cases hkind : param.kind with
  | path => exact pathStep_adds parseF64 request param hkind
  | query => exact queryStep_adds parseF64 request param hkind
  | header => exact headerStep_adds parseF64 request param hkind
  | cookie => exact cookieStep_adds parseF64 request param defers hkind habrupt
  | form => exact formStep_adds parseF64 request param defers hkind habrupt
  | file => exact fileStep_adds parseF64 request param hkind

end Arms

theorem foundErrors_names (request : Request) (param : FieldParam) :
    ∀ detail ∈ foundErrors parseF64 request param,
      ErrorDetail.Names param.kind.location param.wireName detail := by
  have hdue := (expectedStep_checks parseF64 param request).names
  unfold foundErrors
  split
  · simp
  · unfold coercedErrors
    split
    · next hkind _ =>
      split
      · exact hdue
      · rw [hkind]
        exact (checkItems_checks "query" param _ _ _ _ _).names
    · next hkind _ =>
      split
      · exact hdue
      · rw [hkind]
        exact (checkItems_checks "body" param _ _ _ _ _).names
    · exact hdue

def NamesParam (param : FieldParam) (detail : ErrorDetail) : Prop :=
  ErrorDetail.Names (param.kind.location) param.wireName detail ∨
    ErrorDetail.Names (param.kind.location) param.name detail

private theorem fullStep_names (defers : Bool) (param : FieldParam) (request : Request)
    (fields : List ParsedField) :
    ∀ detail ∈ stepErrors (fullStep parseF64 defers param request fields),
      NamesParam param detail := by
  have hother {step : Step} (hnamed : StepNames param.kind.location param.wireName step) :
      ∀ detail ∈ stepErrors step, NamesParam param detail :=
    fun detail hdetail => .inl (hnamed detail hdetail)
  apply fullStep_rule parseF64 fun step => ∀ detail ∈ stepErrors step, NamesParam param detail
  · simp [stepErrors]
  · exact hother (whenAbsent_checks _ param).names
  · exact fun validator value => hother (runScalarValidator_checks _ param validator value).names
  · exact fun raw => hother (checkText_checks parseF64 _ param raw).names
  · exact fun inner text read validator items =>
      hother (checkItems_checks _ param inner text read validator items).names
  · intro step hstep
    rwa [stepErrors_aborting]
  · -- the one error that goes by the Python name
    intro raw hkind
    simp [stepErrors, NamesParam, ErrorDetail.Names, ErrorDetail.json, FieldKind.location, hkind]

private theorem extractLoop_names (defers : Bool) (request : Request) (params : List FieldParam)
    (state : FullState) {details : List ErrorDetail}
    (hreported : reportedDetails (extractLoop parseF64 defers request params state) =
      some details) :
    ∀ detail ∈ details, detail ∈ state.errors ∨ ∃ param ∈ params, NamesParam param detail := by
  induction params generalizing state with
  | nil =>
    simp only [extractLoop] at hreported
    split at hreported
    · cases hreported
      exact fun detail hdetail => .inl hdetail
    · cases herrors : state.errors with
      | nil => simp [reportedDetails, herrors] at hreported
      | cons error rest =>
        simp only [reportedDetails, herrors, Option.some.injEq] at hreported
        subst hreported
        exact fun detail hdetail => .inl hdetail
  | cons param rest ih =>
    have hwiden {detail : ErrorDetail} (hresult : ∃ other ∈ rest, NamesParam other detail) :
        ∃ other ∈ param :: rest, NamesParam other detail := by
      obtain ⟨other, hother, hnamed⟩ := hresult
      exact ⟨other, mem_cons_of_mem param hother, hnamed⟩
    have hown := fullStep_names parseF64 defers param request (param.takeFields state.multipart).1
    simp only [extractLoop] at hreported
    split at hreported
    · exact fun detail hdetail => (ih state hreported detail hdetail).imp_right hwiden
    · split at hreported
      · exact fun detail hdetail => (ih _ hreported detail hdetail).imp_right hwiden
      · exact fun detail hdetail => (ih _ hreported detail hdetail).imp_right hwiden
      · rename_i errors hstep
        rw [hstep] at hown
        intro detail hdetail
        rcases ih _ hreported detail hdetail with hearlier | hlater
        · rcases mem_append.1 hearlier with hstate | hnew
          · exact .inl hstate
          · exact .inr ⟨param, mem_cons_self, hown detail hnew⟩
        · exact .inr (hwiden hlater)
      · rename_i errors hstep
        rw [hstep] at hown
        cases hreported
        exact fun detail hdetail => .inr ⟨param, mem_cons_self, hown detail hdetail⟩

theorem extractParamsToPydictFull_names (defers : Bool) (params : List FieldParam)
    (request : Request) {details : List ErrorDetail}
    (hreported : reportedDetails (extractParamsToPydictFull parseF64 defers params request) =
      some details) : ∀ detail ∈ details, ∃ param ∈ params, NamesParam param detail := by
  intro detail hdetail
  rcases extractLoop_names parseF64 defers request params _ hreported detail hdetail with
    hnone | hname
  · simp at hnone
  · exact hname

def Ends (step : Step) (request : Request) (param : FieldParam) : Prop :=
  ∃ errors, step = .abort errors ∧
    errors.length = (expectedErrors parseF64 request param).length ∧
    (errors.map ErrorDetail.json = (expectedErrors parseF64 request param).map ErrorDetail.json ↔
      NamedOnWire request param)

section

variable (defers : Bool) (request : Request) (param : FieldParam)

theorem cookieStep_ends (hkind : param.kind = .cookie)
    (habrupt : Abrupt parseF64 defers request param) :
    Ends parseF64 (cookieStep parseF64 defers param request) request param := by
  unfold Abrupt at habrupt
  unfold Ends NamedOnWire
  unfold expectedErrors expectedStep at habrupt ⊢
  rw [hkind] at habrupt ⊢
  simp only [cookieStep]
  cases hraw : request.cookie param.wireName with
  | none =>
    simp only [hraw, Option.isSome_none, Bool.false_eq_true, false_or] at habrupt
    rw [habrupt.2]
    exact ⟨_, aborting_eq_abort habrupt.1, rfl, by simp [expectedText]⟩
  | some raw =>
    simp only [hraw, expectedText] at habrupt
    cases hvalidator : param.scalarValidator with
    | some validator =>
      simp only [checkText, hvalidator] at habrupt
      exact ⟨_, aborting_eq_abort habrupt.1, by simp [expectedText, checkText, hvalidator],
        by simp [expectedText, checkText, hvalidator]⟩
    | none =>
      simp only [checkText, hvalidator] at habrupt
      cases hcoerced : tryCoerceStrToPy parseF64 raw param.typeHint with
      | some atom => simp [hcoerced, stepErrors] at habrupt
      | none =>
        refine ⟨[.coercion "cookie" param.name none raw param.typeHint], by simp [hcoerced], ?_, ?_⟩
        · simp [expectedText, checkText, hvalidator, hcoerced, stepErrors]
        · simp [expectedText, checkText, hvalidator, hcoerced, stepErrors, ErrorDetail.json]

private theorem formStep_ends (hkind : param.kind = .form)
    (habrupt : Abrupt parseF64 defers request param) :
    Ends parseF64 (formStep parseF64 param (request.fields param.wireName)) request param := by
  have hnamed : NamedOnWire request param := fun hcoerced => by simp [hkind] at hcoerced
  unfold Abrupt at habrupt
  unfold Ends
  unfold expectedErrors expectedStep at habrupt ⊢
  rw [hkind] at habrupt ⊢
  obtain ⟨herrors, hstep, field, hhe, hfields⟩ := habrupt
  obtain ⟨rest, hfield⟩ := head?_eq_some_iff.1 hhe
  simp only [hfield, expectedForm, formStep, formText] at herrors ⊢
  cases hhandler : param.typeHint with
  | list inner => simp [hhandler, TypeHint.isList] at hstep
  | _ =>
    simp only [hhandler, hfields] at herrors ⊢
    cases hdetail : emptyDefault param field.text with
    | some value => simp [hdetail, stepErrors] at herrors
    | none =>
      simp only [hdetail] at herrors ⊢
      exact ⟨_, aborting_eq_abort herrors, rfl, by simp [hnamed]⟩

theorem fullStep_ends (habrupt : Abrupt parseF64 defers request param) :
    Ends parseF64 (fullStep parseF64 defers param request (request.fields param.wireName))
      request param := by
  unfold fullStep
  cases hkind : param.kind with
  | cookie => exact cookieStep_ends parseF64 defers request param hkind habrupt
  | form => exact formStep_ends parseF64 defers request param hkind habrupt
  | _ => simp [Abrupt, hkind] at habrupt

end

variable {request : Request}

/-- A handler parameter in items place in the list.  It is shadowed if items part of
the form was there but has been taken by an earlier parameter of items name. -/
structure Occurrence where
  param : FieldParam
  shadowed : Bool

def occurrences (request : Request) : List String → List FieldParam → List Occurrence
  | _, [] => []
  | taken, param :: rest =>
    if !param.isHandlerParam then occurrences request taken rest
    else if param.kind.readsForm then
      ⟨param, taken.contains param.wireName && !(request.fields param.wireName).isEmpty⟩ ::
        occurrences request (param.wireName :: taken) rest
    else ⟨param, false⟩ :: occurrences request taken rest

def occurrenceStep (defers : Bool) (request : Request) (occurrence : Occurrence) : Step :=
  if occurrence.shadowed then whenAbsent occurrence.param.kind.location occurrence.param
  else
    fullStep parseF64 defers occurrence.param request
      (request.fields occurrence.param.wireName)

def extractItems (defers : Bool) (request : Request) : List Occurrence → Dict String Value →
    List ErrorDetail → Extraction
  | [], bound, errors =>
    if !errors.isEmpty && !defers then .response errors else .kwargs bound errors
  | occurrence :: rest, bound, earlier =>
    match occurrenceStep parseF64 defers request occurrence with
    | .bind value =>
      extractItems defers request rest (bound.set occurrence.param.name value) earlier
    | .skip => extractItems defers request rest bound earlier
    | .reject errors => extractItems defers request rest bound (earlier ++ errors)
    | .abort errors => .response errors

def scan (defers : Bool) (request : Request) : List Occurrence → List ErrorDetail →
    Option (List ErrorDetail)
  | [], [] => none
  | [], earlier => some earlier
  | occurrence :: rest, earlier =>
    match occurrenceStep parseF64 defers request occurrence with
    | .abort errors => some errors
    | step => scan defers request rest (earlier ++ stepErrors step)

def Left (request : Request) (taken : List String)
    (multipart : Dict String (List ParsedField)) : Prop :=
  ∀ name, (multipart.get? name).getD [] =
    if taken.contains name then [] else request.fields name

theorem left_erase {taken : List String} {multipart : Dict String (List ParsedField)}
    (hleft : Left request taken multipart) (name : String) :
    Left request (name :: taken) (multipart.erase name) := by
  intro other
  have hother := hleft other
  rw [Dict.get?_erase]
  by_cases hstep : other = name
  · simp [hstep]
  · simpa [hstep] using hother

theorem fullStep_fields (defers : Bool) (param : FieldParam) (request : Request)
    (hfields : param.kind.readsForm = false) (fields : List ParsedField) :
    fullStep parseF64 defers param request [] = fullStep parseF64 defers param request fields := by
  unfold fullStep
  cases hkind : param.kind <;> simp_all [FieldKind.readsForm]

private theorem fullStep_nil_form (defers : Bool) (param : FieldParam) (request : Request)
    (hfields : param.kind.readsForm = true) :
    fullStep parseF64 defers param request [] = whenAbsent param.kind.location param := by
  unfold fullStep
  cases hkind : param.kind <;>
    simp_all [FieldKind.readsForm, FieldKind.location, formStep, fileStep]

private theorem fullStep_taken {taken : List String} {multipart : Dict String (List ParsedField)}
    (hleft : Left request taken multipart) (defers : Bool) (param : FieldParam)
    (hfields : param.kind.readsForm = true) :
    fullStep parseF64 defers param request ((multipart.get? param.wireName).getD []) =
      occurrenceStep parseF64 defers request
        ⟨param, taken.contains param.wireName && !(request.fields param.wireName).isEmpty⟩ := by
  rw [hleft param.wireName]
  unfold occurrenceStep
  cases htaken : taken.contains param.wireName with
  | false => simp
  | true =>
    cases hfield : request.fields param.wireName with
    | nil => simp
    | cons field rest => simp [fullStep_nil_form parseF64 defers param request hfields]

/-- The loop goes through the handler parameters as they occur. -/
theorem extractLoop_eq_extractItems (defers : Bool) (request : Request)
    (params : List FieldParam) (taken : List String) (state : FullState)
    (hleft : Left request taken state.multipart) :
    extractLoop parseF64 defers request params state =
      extractItems parseF64 defers request (occurrences request taken params) state.bound
        state.errors := by
  induction params generalizing taken state with
  | nil => rfl
  | cons param rest ih =>
    unfold extractLoop occurrences
    cases hhandler : param.isHandlerParam with
    | false => simpa using ih taken state hleft
    | true =>
      simp only [Bool.not_true, Bool.false_eq_true, if_false]
      cases hform : param.kind.readsForm with
      | true =>
        have hstep := fullStep_taken parseF64 hleft defers param hform
        have hrest := left_erase hleft param.wireName
        simp only [FieldParam.takeFields, hform, if_true, extractItems, ← hstep]
        cases fullStep parseF64 defers param request
            ((state.multipart.get? param.wireName).getD []) with
        | abort errors => rfl
        | _ => exact ih _ _ hrest
      | false =>
        have hstep : occurrenceStep parseF64 defers request ⟨param, false⟩ =
            fullStep parseF64 defers param request [] := by
          rw [fullStep_fields parseF64 defers param request hform]
          rfl
        simp only [FieldParam.takeFields, hform, Bool.false_eq_true, if_false, extractItems,
          hstep]
        cases fullStep parseF64 defers param request [] with
        | abort errors => rfl
        | _ => exact ih taken _ hleft

theorem extractParamsToPydictFull_eq (defers : Bool) (params : List FieldParam)
    (request : Request) :
    extractParamsToPydictFull parseF64 defers params request =
      extractItems parseF64 defers request (occurrences request [] params) [] [] :=
  extractLoop_eq_extractItems parseF64 defers request params [] _
    fun name => by simp [Request.fields]

theorem reportedDetails_extractItems (defers : Bool) (request : Request)
    (items : List Occurrence) (bound : Dict String Value) (earlier : List ErrorDetail) :
    reportedDetails (extractItems parseF64 defers request items bound earlier) =
      scan parseF64 defers request items earlier := by
  induction items generalizing bound earlier with
  | nil =>
    unfold extractItems
    cases earlier with
    | nil => simp [reportedDetails, scan]
    | cons error rest => cases defers <;> simp [reportedDetails, scan]
  | cons occurrence rest ih =>
    simp only [extractItems, scan]
    cases occurrenceStep parseF64 defers request occurrence with
    | abort errors => rfl
    | _ => simp [ih, stepErrors]

def Occurrence.Abrupt (defers : Bool) (request : Request) (occurrence : Occurrence) : Prop :=
  occurrence.shadowed = false ∧
    ExtractErrors.Abrupt parseF64 defers request occurrence.param

def Occurrence.expected (request : Request) (occurrence : Occurrence) : List ErrorDetail :=
  expectedErrors parseF64 request occurrence.param

def Occurrence.reported (request : Request) (occurrence : Occurrence) : List ErrorDetail :=
  if occurrence.shadowed then
    stepErrors (whenAbsent occurrence.param.kind.location occurrence.param)
  else foundErrors parseF64 request occurrence.param

section Scan

variable {defers : Bool} {request : Request} {occurrence : Occurrence}

theorem occurrenceStep_adds (habrupt : ¬occurrence.Abrupt parseF64 defers request) :
    stepErrors (occurrenceStep parseF64 defers request occurrence) =
        occurrence.reported parseF64 request ∧
      ∀ errors, occurrenceStep parseF64 defers request occurrence ≠ .abort errors := by
  unfold occurrenceStep Occurrence.reported
  cases hshadowed : occurrence.shadowed with
  | true => exact ⟨rfl, (whenAbsent_checks _ occurrence.param).goes_on⟩
  | false =>
    refine fullStep_adds parseF64 request occurrence.param defers fun hparam => ?_
    exact habrupt ⟨hshadowed, hparam⟩

theorem occurrenceStep_ends (habrupt : occurrence.Abrupt parseF64 defers request) :
    Ends parseF64 (occurrenceStep parseF64 defers request occurrence) request
      occurrence.param := by
  simpa [occurrenceStep, habrupt.1] using
    fullStep_ends parseF64 defers request occurrence.param habrupt.2

private theorem scan_cons_of_not_abrupt (habrupt : ¬occurrence.Abrupt parseF64 defers request)
    (rest : List Occurrence) (earlier : List ErrorDetail) :
    scan parseF64 defers request (occurrence :: rest) earlier =
      scan parseF64 defers request rest (earlier ++ occurrence.reported parseF64 request) := by
  obtain ⟨herrors, hgoes⟩ := occurrenceStep_adds parseF64 habrupt
  rw [← herrors, scan]
  cases hstep : occurrenceStep parseF64 defers request occurrence with
  | abort errors => exact absurd hstep (hgoes errors)
  | _ => rfl

theorem scan_append_of_not_abrupt (before after : List Occurrence)
    (earlier : List ErrorDetail)
    (hbefore : ∀ occurrence ∈ before, ¬occurrence.Abrupt parseF64 defers request) :
    scan parseF64 defers request (before ++ after) earlier =
      scan parseF64 defers request after
        (earlier ++ before.flatMap (Occurrence.reported parseF64 request)) := by
  induction before generalizing earlier with
  | nil => simp
  | cons occurrence rest ih =>
    have hrest := ih (earlier ++ occurrence.reported parseF64 request)
      fun other hother => hbefore other (mem_cons_of_mem occurrence hother)
    rw [cons_append, scan_cons_of_not_abrupt parseF64 (hbefore occurrence mem_cons_self), hrest]
    simp [append_assoc]

variable {items : List Occurrence}

theorem scan_of_not_abrupt
    (hitems : ∀ occurrence ∈ items, ¬occurrence.Abrupt parseF64 defers request) :
    scan parseF64 defers request items [] =
      if items.flatMap (Occurrence.reported parseF64 request) = [] then none
      else some (items.flatMap (Occurrence.reported parseF64 request)) := by
  have hscan := scan_append_of_not_abrupt parseF64 items [] [] hitems
  rw [append_nil] at hscan
  rw [hscan]
  cases items.flatMap (Occurrence.reported parseF64 request) <;> simp [scan]

end Scan

theorem occurrences_params (request : Request) (taken : List String) (params : List FieldParam) :
    (occurrences request taken params).map Occurrence.param =
      params.filter FieldParam.isHandlerParam := by
  induction params generalizing taken with
  | nil => rfl
  | cons param rest ih =>
    unfold occurrences
    cases hhandler : param.isHandlerParam with
    | false => simpa [hhandler] using ih taken
    | true => cases param.kind.readsForm <;> simp [hhandler, ih]

theorem occurrences_flatMap (request : Request) (taken : List String)
    (params : List FieldParam) :
    (occurrences request taken params).flatMap (Occurrence.expected parseF64 request) =
      (params.filter FieldParam.isHandlerParam).flatMap (expectedErrors parseF64 request) := by
  rw [← occurrences_params request taken params, flatMap_map]
  rfl

/-- The place of a parameter in the `loc` of its errors. -/
def place (param : FieldParam) : List LocItem :=
  [.key param.kind.location, .key param.wireName]

theorem take_loc_of_names {loc name : String} {detail : ErrorDetail}
    (hnames : ErrorDetail.Names loc name detail) :
    detail.json.loc.take 2 = [.key loc, .key name] :=
  (prefix_iff_eq_take.1 hnames).symm

theorem expected_placed (request : Request) (occurrence : Occurrence) :
    ∀ json ∈ (occurrence.expected parseF64 request).map ErrorDetail.json,
      json.loc.take 2 = place occurrence.param := by
  intro json hjson
  obtain ⟨detail, hdetail, rfl⟩ := mem_map.1 hjson
  exact take_loc_of_names ((expectedStep_checks parseF64 occurrence.param request).names
    detail hdetail)

theorem reported_placed (request : Request) (occurrence : Occurrence) :
    ∀ json ∈ (occurrence.reported parseF64 request).map ErrorDetail.json,
      json.loc.take 2 = place occurrence.param := by
  intro json hjson
  obtain ⟨detail, hdetail, rfl⟩ := mem_map.1 hjson
  refine take_loc_of_names ?_
  unfold Occurrence.reported at hdetail
  split at hdetail
  · exact (whenAbsent_checks _ occurrence.param).names detail hdetail
  · exact foundErrors_names parseF64 request occurrence.param detail hdetail

/-- The details of the answer, if there is one, read as those that are due. -/
def Complete (defers : Bool) (request : Request) (items : List Occurrence) : Prop :=
  ∀ details, scan parseF64 defers request items [] = some details →
    details.map ErrorDetail.json =
      (items.flatMap (Occurrence.expected parseF64 request)).map ErrorDetail.json

/-- The errors that the code finds for the parameter read as those that are due. -/
def Occurrence.ToldAsDue (request : Request) (occurrence : Occurrence) : Prop :=
  (occurrence.reported parseF64 request).map ErrorDetail.json =
    (occurrence.expected parseF64 request).map ErrorDetail.json

def Apart (params : List FieldParam) : Prop :=
  params.Pairwise fun left right => place left ≠ place right

section Completeness

variable {defers : Bool} {request : Request} {items : List Occurrence}

theorem complete_of_toldAsDue
    (hitems : ∀ occurrence ∈ items, ¬occurrence.Abrupt parseF64 defers request)
    (htold : (∀ occurrence ∈ items, occurrence.reported parseF64 request = []) ∨
      ∀ occurrence ∈ items, occurrence.ToldAsDue parseF64 request) :
    Complete parseF64 defers request items := by
  intro details hdetails
  rw [scan_of_not_abrupt parseF64 hitems] at hdetails
  split at hdetails
  · simp at hdetails
  · next hne =>
    cases hdetails
    rcases htold with hnone | hdue
    · exact absurd (flatMap_eq_nil_iff.2 hnone) hne
    · rw [map_flatMap, map_flatMap, flatMap_def, flatMap_def, map_congr_left hdue]

theorem toldAsDue_of_complete (hapart : Apart (items.map Occurrence.param))
    (hitems : ∀ occurrence ∈ items, ¬occurrence.Abrupt parseF64 defers request)
    (hcomplete : Complete parseF64 defers request items) :
    (∀ occurrence ∈ items, occurrence.reported parseF64 request = []) ∨
      ∀ occurrence ∈ items, occurrence.ToldAsDue parseF64 request := by
  unfold Complete at hcomplete
  rw [scan_of_not_abrupt parseF64 hitems] at hcomplete
  by_cases hnone : items.flatMap (Occurrence.reported parseF64 request) = []
  · exact .inl (flatMap_eq_nil_iff.1 hnone)
  · simp only [hnone, if_false, Option.some.injEq, forall_eq', map_flatMap] at hcomplete
    exact .inr (eq_of_flatMap_eq_of_keys (fun json => json.loc.take 2)
      (fun occurrence => place occurrence.param) items _ _
      (fun occurrence _ => reported_placed parseF64 request occurrence)
      (fun occurrence _ => expected_placed parseF64 request occurrence)
      (by rwa [Apart, pairwise_map] at hapart) hcomplete)

theorem complete_of_abrupt {occurrence : Occurrence} (before after : List Occurrence)
    (hbefore : ∀ other ∈ before, ¬other.Abrupt parseF64 defers request)
    (habrupt : occurrence.Abrupt parseF64 defers request) :
    Complete parseF64 defers request (before ++ occurrence :: after) ↔
      NamedOnWire request occurrence.param ∧
        ∀ other ∈ before ++ after, other.expected parseF64 request = [] := by
  obtain ⟨errors, hstep, hlength, hnamed⟩ := occurrenceStep_ends parseF64 habrupt
  unfold Complete
  rw [scan_append_of_not_abrupt parseF64 before _ [] hbefore, scan, hstep]
  simp only [Option.some.injEq, forall_eq', ← flatMap_eq_nil_iff, flatMap_append,
    flatMap_cons, append_eq_nil_iff, map_append]
  rw [← hnamed]
  constructor
  · intro hdue
    have hcount := congrArg List.length hdue
    simp only [length_append, length_map] at hcount
    have hown : errors.length = (occurrence.expected parseF64 request).length := hlength
    have hbeforeNil : before.flatMap (Occurrence.expected parseF64 request) = [] :=
      eq_nil_of_length_eq_zero (by omega)
    have hafterNil : after.flatMap (Occurrence.expected parseF64 request) = [] :=
      eq_nil_of_length_eq_zero (by omega)
    rw [hbeforeNil, hafterNil] at hdue
    exact ⟨by simpa [Occurrence.expected] using hdue, hbeforeNil, hafterNil⟩
  · rintro ⟨hown, hbeforeNil, hafterNil⟩
    rw [hbeforeNil, hafterNil]
    simpa [Occurrence.expected] using hown

end Completeness

def Occurrence.Silent (request : Request) (occurrence : Occurrence) : Prop :=
  if occurrence.shadowed then
    occurrence.param.hasDefault = true ∨ occurrence.param.required = false
  else
    unchecked parseF64 request occurrence.param = true ∨
      (coercedErrors parseF64 request occurrence.param).getD
        (expectedErrors parseF64 request occurrence.param) = []

/-- Where the check of the occurrence is left out it would have passed, and where the
elements of a list are coerced before it, the errors read as those of the list that
was sent. -/
def Occurrence.Checked (request : Request) (occurrence : Occurrence) : Prop :=
  if occurrence.shadowed then
    (occurrence.param.hasDefault = true ∨ occurrence.param.required = false) ∧
      expectedErrors parseF64 request occurrence.param = []
  else if unchecked parseF64 request occurrence.param then
    expectedErrors parseF64 request occurrence.param = []
  else
    ∀ errors, coercedErrors parseF64 request occurrence.param = some errors →
      errors.map ErrorDetail.json =
        (expectedErrors parseF64 request occurrence.param).map ErrorDetail.json

theorem stepErrors_whenAbsent_eq_nil_iff (loc : String) (param : FieldParam) :
    stepErrors (whenAbsent loc param) = [] ↔
      param.hasDefault = true ∨ param.required = false := by
  unfold whenAbsent FieldParam.default
  cases param.hasDefault <;> cases param.required <;> simp [stepErrors]

theorem reported_eq_nil_iff (request : Request) (occurrence : Occurrence) :
    occurrence.reported parseF64 request = [] ↔ occurrence.Silent parseF64 request := by
  unfold Occurrence.reported Occurrence.Silent foundErrors
  cases occurrence.shadowed with
  | true => exact stepErrors_whenAbsent_eq_nil_iff _ occurrence.param
  | false => cases unchecked parseF64 request occurrence.param <;> simp

theorem toldAsDue_of_checked (request : Request) (occurrence : Occurrence)
    (hchecked : occurrence.Checked parseF64 request) :
    occurrence.ToldAsDue parseF64 request := by
  unfold Occurrence.Checked at hchecked
  unfold Occurrence.ToldAsDue Occurrence.reported Occurrence.expected foundErrors
  split at hchecked
  · rw [hchecked.2, (stepErrors_whenAbsent_eq_nil_iff _ occurrence.param).2 hchecked.1]
    simp [*]
  · split at hchecked
    · simp [*]
    · cases hcoerced : coercedErrors parseF64 request occurrence.param with
      | none => simp [*]
      | some errors => simp [*]

theorem checked_of_toldAsDue (request : Request) (occurrence : Occurrence)
    (hown : occurrence.shadowed = false) (htold : occurrence.ToldAsDue parseF64 request) :
    occurrence.Checked parseF64 request := by
  unfold Occurrence.ToldAsDue Occurrence.reported Occurrence.expected foundErrors at htold
  unfold Occurrence.Checked
  simp only [hown, Bool.false_eq_true, if_false] at htold ⊢
  split at htold
  · next hunchecked => simpa [hunchecked] using htold.symm
  · next hunchecked =>
    simp only [hunchecked]
    intro errors herrors
    simpa [herrors] using htold

private theorem location_of_readsForm {kind : FieldKind} (hform : kind.readsForm = true) :
    kind.location = "body" := by
  cases kind <;> simp_all [FieldKind.readsForm, FieldKind.location]

/-- A parameter is shadowed only by another one of its name. -/
theorem not_shadowed_of_apart (request : Request) (taken : List String)
    (params : List FieldParam)
    (hapart : Apart (params.filter FieldParam.isHandlerParam))
    (htaken : ∀ param ∈ params, param.isHandlerParam = true → param.kind.readsForm = true →
      param.wireName ∉ taken) :
    ∀ occurrence ∈ occurrences request taken params, occurrence.shadowed = false := by
  induction params generalizing taken with
  | nil => simp [occurrences]
  | cons param rest ih =>
    unfold occurrences
    cases hhandler : param.isHandlerParam with
    | false =>
      exact ih taken (by simpa [hhandler] using hapart)
        fun other hother => htaken other (mem_cons_of_mem param hother)
    | true =>
      rw [filter_cons_of_pos hhandler, Apart, pairwise_cons] at hapart
      cases hform : param.kind.readsForm with
      | false =>
        have hrest := ih taken hapart.2
          fun other hother => htaken other (mem_cons_of_mem param hother)
        simpa using hrest
      | true =>
        have hown := htaken param mem_cons_self hhandler hform
        have hrest := ih (param.wireName :: taken) hapart.2 fun other hmem hother hotherForm => by
          have hnew := htaken other (mem_cons_of_mem param hmem) hother hotherForm
          have hplaces := hapart.1 other (mem_filter.2 ⟨hmem, hother⟩)
          have hname : other.wireName ≠ param.wireName := fun hname => hplaces (by
            simp [place, hname, location_of_readsForm hform, location_of_readsForm hotherForm])
          simp [hname, hnew]
        simpa [hown] using hrest

/-- One parameter ends the loop, it is named as on the wire and no other has an
error; or none ends it, and then nothing is reported or all checks are made. -/
def ErrorsComplete (defers : Bool) (request : Request) (items : List Occurrence) : Prop :=
  (∃ before occurrence after, items = before ++ occurrence :: after ∧
      (∀ other ∈ before, ¬other.Abrupt parseF64 defers request) ∧
      occurrence.Abrupt parseF64 defers request ∧
      NamedOnWire request occurrence.param ∧
      ∀ other ∈ before ++ after, expectedErrors parseF64 request other.param = []) ∨
    (∀ occurrence ∈ items, ¬occurrence.Abrupt parseF64 defers request) ∧
      ((∀ occurrence ∈ items, occurrence.Silent parseF64 request) ∨
        ∀ occurrence ∈ items, occurrence.Checked parseF64 request)

section Iff

variable {defers : Bool} {request : Request} {items : List Occurrence}

theorem complete_of_errorsComplete (herrors : ErrorsComplete parseF64 defers request items) :
    Complete parseF64 defers request items := by
  rcases herrors with ⟨before, occurrence, after, rfl, hbefore, habrupt, hnamed, hothers⟩ |
    ⟨hgoes, hsilent | hchecked⟩
  · exact (complete_of_abrupt parseF64 before after hbefore habrupt).2 ⟨hnamed, hothers⟩
  · exact complete_of_toldAsDue parseF64 hgoes (.inl fun occurrence hmem =>
      (reported_eq_nil_iff parseF64 request occurrence).2 (hsilent occurrence hmem))
  · exact complete_of_toldAsDue parseF64 hgoes (.inr fun occurrence hmem =>
      toldAsDue_of_checked parseF64 request occurrence (hchecked occurrence hmem))

theorem errorsComplete_of_complete (hapart : Apart (items.map Occurrence.param))
    (hown : ∀ occurrence ∈ items, occurrence.shadowed = false)
    (hcomplete : Complete parseF64 defers request items) :
    ErrorsComplete parseF64 defers request items := by
  rcases none_or_first (Occurrence.Abrupt parseF64 defers request) items with
    hgoes | ⟨before, occurrence, after, rfl, hbefore, habrupt⟩
  · refine .inr ⟨hgoes, (toldAsDue_of_complete parseF64 hapart hgoes hcomplete).imp ?_ ?_⟩
    · intro hnone occurrence hmem
      exact (reported_eq_nil_iff parseF64 request occurrence).1 (hnone occurrence hmem)
    · intro htold occurrence hmem
      exact checked_of_toldAsDue parseF64 request occurrence (hown occurrence hmem)
        (htold occurrence hmem)
  · obtain ⟨hnamed, hothers⟩ :=
      (complete_of_abrupt parseF64 before after hbefore habrupt).1 hcomplete
    exact .inl ⟨before, occurrence, after, rfl, hbefore, habrupt, hnamed, hothers⟩

end Iff

/-- The request is told of just the errors of its handler parameters, in order. -/
def ToldOfAll (defers : Bool) (params : List FieldParam) (request : Request) : Prop :=
  ∀ details,
    reportedDetails (extractParamsToPydictFull parseF64 defers params request) = some details →
      details.map ErrorDetail.json =
        ((params.filter FieldParam.isHandlerParam).flatMap
          (expectedErrors parseF64 request)).map ErrorDetail.json

end Expected

def visitsParam : FieldParam :=
  { limitParam with name := "visits", kind := .cookie }

def visitsRequest (visits : String) : Request :=
  { emptyRequest with headers := some [("cookie", some ("visits=" ++ visits))] }

/-- The validator of `list[int | str]`, whose union keeps integers and strings apart.
Its type hint is that of `list[int]`. -/
def intOrStr : Validator
  | .list items =>
    if items.all fun item => match item with | .int _ | .str _ => true | _ => false then
      .returned (.list items)
    else .raised ⟨⟨"int_type", [], "Input should be a valid integer", .list items, none⟩, []⟩
  | value => .raised ⟨⟨"list_type", [], "Input should be a valid list", value, none⟩, []⟩

def tagsParam : FieldParam :=
  { limitParam with
    name := "tags", typeHint := .list .int, scalarValidator := some intOrStr }

def tagsRequest (tags : List String) : Request :=
  { emptyRequest with queryMulti := fun name => if name = "tags" then tags else [] }

end FastapiTurbo.ExtractErrors
