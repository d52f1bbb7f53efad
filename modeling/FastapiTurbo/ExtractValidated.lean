import FastapiTurbo.ExtractErrors

/-! What `extract_params_to_pydict_full` hands to a handler for a parameter that has
a validator. -/
namespace FastapiTurbo.ExtractValidated

open Lib Coercion Extract ExtractErrors List

section Vetting

variable (parseF64 : List Char → Option UInt64)

def sentText (raw : Option String) : Option Value :=
  raw.map fun raw => .atom (.str raw)

def sentList : List Atom → Option Value
  | [] => none
  | atoms => some (.list atoms)

def sentUpload : List ParsedField → Option Value
  | [] => none
  | field :: _ => if field.filename.isSome then some (.atom (.upload field)) else none

/-- The raw value of a parameter: a string, an upload, or the list of them. -/
def sentValue (param : FieldParam) (request : Request) : Option Value :=
  match param.kind, param.typeHint with
  | .path, _ => sentText (request.pathMap param.wireName)
  | .query, .list _ => sentList ((request.queryMulti param.wireName).map Atom.str)
  | .query, _ => sentText (request.queryParams param.wireName)
  | .header, .list _ => sentList ((request.headerList param.wireName.toLower).map Atom.str)
  | .header, _ => sentText (request.header param.wireName.toLower)
  | .cookie, _ => sentText (request.cookie param.wireName)
  | .form, .list _ => sentList ((request.fields param.wireName).map sentFormItem)
  | .form, _ =>
    (request.fields param.wireName).head?.map fun field => .atom (sentFormItem field)
  | .file, _ => none

/-- The default, or what the validator returns for what was sent. -/
def Output (request : Request) (param : FieldParam) (validator : Validator) (value : Value) :
    Prop :=
  param.default = some value ∨
    ∃ sent, sentValue param request = some sent ∧ validator sent = .returned value

/-- The digits lane of the path counts as the validator. -/
def Vetted (request : Request) (param : FieldParam) (validator : Validator) (value : Value) :
    Prop :=
  Output request param validator value ∨
    param.kind = .path ∧
      ∃ atom, (request.pathMap param.wireName).bind (fastLane param) = some atom ∧
        value = .atom atom

def checked (validator : Option Validator) (value : Value) : Option Value :=
  match validator with
  | none => some value
  | some validator =>
    match validator value with
    | .returned validated => some validated
    | .raised _ => none

def readList {β : Type} (validator : Option Validator) (read : β → Option Atom) :
    List β → Option Value
  | [] => none
  | items => (items.mapM read).bind fun atoms => checked validator (.list atoms)

/-- What is bound for a list or an upload that was sent.  The validator sees the
elements of a query or form list once they have been coerced; it sees neither a list
header nor an upload. -/
def passedBy (request : Request) (param : FieldParam) (validator : Validator) : Option Value :=
  match param.kind, param.typeHint with
  | .query, .list inner =>
    readList (some validator) (tryCoerceStrToPy parseF64 · inner)
      (request.queryMulti param.wireName)
  | .header, .list _ => sentList ((request.headerList param.wireName.toLower).map Atom.str)
  | .form, .list inner =>
    readList (if hasFile (request.fields param.wireName) then none else some validator)
      (readFormItem parseF64 inner) (request.fields param.wireName)
  | .form, _ => sentUpload (request.fields param.wireName)
  | _, _ => none

/-- The validator would itself have returned what is bound past it. -/
def PassesRightly (request : Request) (param : FieldParam) : Prop :=
  ∀ validator, param.scalarValidator = some validator →
    ∀ value, passedBy parseF64 request param validator = some value →
      Output request param validator value

end Vetting

theorem whenAbsent_eq_bind_iff (loc : String) (param : FieldParam) (value : Value) :
    whenAbsent loc param = .bind value ↔ param.default = some value := by
  unfold whenAbsent
  cases param.default with
  | some default => simp
  | none => cases param.required <;> simp

theorem runScalarValidator_eq_bind_iff (loc : String) (param : FieldParam)
    (validator : Validator) (input value : Value) :
    runScalarValidator loc param validator input = .bind value ↔
      validator input = .returned value := by
  unfold runScalarValidator
  cases validator input <;> simp

theorem bind_of_aborting {step : Step} {value : Value} (hstep : step.aborting = .bind value) :
    step = .bind value := by
  cases step <;> simp_all [Step.aborting]

theorem checked_some_iff (validator : Validator) (input value : Value) :
    checked (some validator) input = some value ↔ validator input = .returned value := by
  simp only [checked]
  cases validator input <;> simp

theorem checkItems_eq_bind_iff {β : Type} (loc : String) (param : FieldParam)
    (inner : TypeHint) (text : β → String) (read : β → Option Atom)
    (validator : Option Validator) (items : List β) (value : Value) :
    checkItems loc param inner text read validator items = .bind value ↔
      ∃ atoms, items.mapM read = some atoms ∧ checked validator (.list atoms) = some value := by
  have hread := itemErrors_eq_nil_iff loc param inner text read items
  unfold checkItems
  cases herrors : itemErrors loc param inner text read items with
  | cons error rest =>
    simp only [reduceCtorEq, false_iff]
    rintro ⟨atoms, hatoms, -⟩
    rw [hread.2 (ne_none_of_mapM hatoms)] at herrors
    cases herrors
  | nil =>
    rw [mapM_eq_filterMap read items (hread.1 herrors)]
    cases validator with
    | none => simp [checked]
    | some validator =>
      simpa [checked_some_iff] using runScalarValidator_eq_bind_iff loc param validator _ value

theorem checkItems_eq_bind_iff_readList {β : Type} (loc : String) (param : FieldParam)
    (inner : TypeHint) (text : β → String) (read : β → Option Atom)
    (validator : Option Validator) (item : β) (rest : List β) (value : Value) :
    checkItems loc param inner text read validator (item :: rest) = .bind value ↔
      readList validator read (item :: rest) = some value := by
  simp only [checkItems_eq_bind_iff, readList, Option.bind_eq_some_iff]

section Arms

variable {parseF64 : List Char → Option UInt64} {param : FieldParam} {request : Request}
  {validator : Validator} {value : Value}

theorem Output.of_absent {loc : String} (hstep : whenAbsent loc param = .bind value) :
    Output request param validator value :=
  .inl ((whenAbsent_eq_bind_iff loc param value).1 hstep)

theorem Output.of_text {loc raw : String} (hvalidator : param.scalarValidator = some validator)
    (hsent : sentValue param request = some (.atom (.str raw)))
    (hstep : checkText parseF64 loc param raw = .bind value) :
    Output request param validator value := by
  unfold checkText at hstep
  rw [hvalidator] at hstep
  exact .inr ⟨_, hsent, (runScalarValidator_eq_bind_iff loc param validator _ value).1 hstep⟩

theorem pathStep_vetted (hkind : param.kind = .path)
    (hvalidator : param.scalarValidator = some validator)
    (hstep : pathStep parseF64 param request = .bind value) :
    Vetted request param validator value := by
  unfold pathStep at hstep
  cases hraw : request.pathMap param.wireName with
  | none =>
    rw [hraw] at hstep
    exact .inl (.of_absent hstep)
  | some raw =>
    simp only [hraw] at hstep
    cases hfast : fastLane param raw with
    | some atom =>
      have hvalue : value = .atom atom := by simpa [hfast, eq_comm] using hstep
      exact .inr ⟨hkind, atom, by simp [hraw, hfast], hvalue⟩
    | none =>
      simp only [hfast] at hstep
      exact .inl (.of_text hvalidator (by simp [sentValue, hkind, sentText, hraw]) hstep)

theorem queryStep_vetted (hkind : param.kind = .query)
    (hvalidator : param.scalarValidator = some validator)
    (hstep : queryStep parseF64 param request = .bind value) :
    Output request param validator value ∨
      passedBy parseF64 request param validator = some value := by
  unfold queryStep at hstep
  split at hstep
  next inner hhint =>
    split at hstep
    next => exact .inl (.of_absent hstep)
    next values hne =>
      rw [hvalidator] at hstep
      refine .inr ?_
      unfold passedBy
      simp only [hkind, hhint]
      cases hvalues : request.queryMulti param.wireName with
      | nil => exact absurd hvalues hne
      | cons first rest =>
        exact (checkItems_eq_bind_iff_readList _ _ _ _ _ _ _ _ _).1 (hvalues ▸ hstep)
  next hhint =>
    split at hstep
    next raw hraw =>
      refine .inl (.of_text hvalidator ?_ hstep)
      simp [sentValue, hkind, sentText, hraw]
    next => exact .inl (.of_absent hstep)

theorem headerStep_vetted (hkind : param.kind = .header)
    (hvalidator : param.scalarValidator = some validator)
    (hstep : headerStep parseF64 param request = .bind value) :
    Output request param validator value ∨
      passedBy parseF64 request param validator = some value := by
  simp only [headerStep] at hstep
  split at hstep
  next inner hhint =>
    split at hstep
    next => exact .inl (.of_absent hstep)
    next values hne =>
      refine .inr ?_
      simp only [passedBy, hkind, hhint]
      cases hvalues : request.headerList param.wireName.toLower with
      | nil => exact absurd hvalues hne
      | cons first rest => simpa [sentList, hvalues] using hstep
  next hhint =>
    split at hstep
    next raw hraw =>
      refine .inl (.of_text hvalidator ?_ hstep)
      simp [sentValue, hkind, sentText, hraw]
    next => exact .inl (.of_absent hstep)

theorem cookieStep_vetted {defers : Bool} (hkind : param.kind = .cookie)
    (hvalidator : param.scalarValidator = some validator)
    (hstep : cookieStep parseF64 defers param request = .bind value) :
    Output request param validator value := by
  unfold cookieStep at hstep
  cases hcookie : request.cookie param.wireName with
  | some raw =>
    simp only [hcookie, hvalidator] at hstep
    refine .inr ⟨.atom (.str raw), by simp [sentValue, hkind, sentText, hcookie], ?_⟩
    exact (runScalarValidator_eq_bind_iff _ _ _ _ _).1 (bind_of_aborting hstep)
  | none =>
    simp only [hcookie] at hstep
    split at hstep
    next => exact .of_absent hstep
    next => exact .of_absent (bind_of_aborting hstep)

private theorem formText_vetted {field : ParsedField} {rest : List ParsedField}
    (hkind : param.kind = .form) (hhint : TypeHint.isList param.typeHint = false)
    (hfields : request.fields param.wireName = field :: rest) (htext : field.filename = none)
    (hvalidator : param.scalarValidator = some validator)
    (hstep : formText parseF64 param field.text = .bind value) :
    Output request param validator value := by
  unfold formText at hstep
  cases hempty : emptyDefault param field.text with
  | some default =>
    have hdefault : param.default = some default := by
      unfold emptyDefault at hempty
      split at hempty
      next => exact hempty
      next => simp at hempty
    have hvalue : default = value := by simpa [hempty] using hstep
    exact .inl (hvalue ▸ hdefault)
  | none =>
    simp only [hempty] at hstep
    refine .of_text hvalidator ?_ (bind_of_aborting hstep)
    unfold sentValue
    cases hint : param.typeHint <;> simp_all [TypeHint.isList, sentFormItem]

private theorem formStep_vetted (hkind : param.kind = .form)
    (hvalidator : param.scalarValidator = some validator)
    (hstep : formStep parseF64 param (request.fields param.wireName) = .bind value) :
    Output request param validator value ∨
      passedBy parseF64 request param validator = some value := by
  cases hfields : request.fields param.wireName with
  | nil =>
    rw [hfields] at hstep
    exact .inl (.of_absent hstep)
  | cons field rest =>
    rw [hfields] at hstep
    cases hhint : param.typeHint with
    | list inner =>
      simp only [formStep, hhint, hvalidator] at hstep
      simp only [passedBy, hkind, hhint, hfields]
      exact .inr ((checkItems_eq_bind_iff_readList _ _ _ _ _ _ _ _ _).1 hstep)
    | _ =>
      simp only [formStep, hhint] at hstep
      cases hfile : field.filename with
      | none =>
        simp only [hfile] at hstep
        exact .inl (formText_vetted hkind (by simp [hhint, TypeHint.isList]) hfields hfile
          hvalidator hstep)
      | some filename =>
        refine .inr ?_
        simpa [passedBy, hkind, hhint, hfields, sentUpload, hfile] using hstep

/-- A value that is bound is vetted, or it is one that is bound past the validator. -/
theorem fullStep_vetted {defers : Bool} (hfile : param.kind ≠ .file)
    (hvalidator : param.scalarValidator = some validator)
    (hstep : fullStep parseF64 defers param request (request.fields param.wireName) =
      .bind value) :
    Vetted request param validator value ∨
      passedBy parseF64 request param validator = some value := by
  unfold fullStep at hstep
  cases hkind : param.kind with
  | path => exact .inl (pathStep_vetted hkind hvalidator (by simpa [hkind] using hstep))
  | query =>
    exact (queryStep_vetted hkind hvalidator (by simpa [hkind] using hstep)).imp_left .inl
  | header =>
    exact (headerStep_vetted hkind hvalidator (by simpa [hkind] using hstep)).imp_left .inl
  | cookie =>
    exact .inl (.inl (cookieStep_vetted hkind hvalidator (by simpa [hkind] using hstep)))
  | form =>
    exact (formStep_vetted hkind hvalidator (by simpa [hkind] using hstep)).imp_left .inl
  | file => exact absurd hkind hfile

/-- What goes past the validator is bound. -/
theorem fullStep_of_passedBy (defers : Bool)
    (hvalidator : param.scalarValidator = some validator)
    (hpassed : passedBy parseF64 request param validator = some value) :
    fullStep parseF64 defers param request (request.fields param.wireName) = .bind value := by
  unfold passedBy at hpassed
  unfold fullStep
  split at hpassed
  next inner hkind hhint =>
    simp only [hkind, queryStep, hhint, hvalidator]
    cases hvalues : request.queryMulti param.wireName with
    | nil => simp [hvalues, readList] at hpassed
    | cons first rest =>
      exact (checkItems_eq_bind_iff_readList _ _ _ _ _ _ _ _ _).2 (hvalues ▸ hpassed)
  next inner hkind hhint =>
    simp only [hkind, headerStep, hhint]
    cases hvalues : request.headerList param.wireName.toLower with
    | nil => simp [hvalues, sentList] at hpassed
    | cons first rest => simpa [hvalues, sentList] using hpassed
  next inner hkind hhint =>
    simp only [hkind]
    cases hfields : request.fields param.wireName with
    | nil => simp [hfields, readList] at hpassed
    | cons field rest =>
      simp only [formStep, hhint, hvalidator]
      exact (checkItems_eq_bind_iff_readList _ _ _ _ _ _ _ _ _).2 (hfields ▸ hpassed)
  next hkind hhint =>
    simp only [hkind]
    cases hfields : request.fields param.wireName with
    | nil => simp [hfields, sentUpload] at hpassed
    | cons field rest =>
      cases hfile : field.filename with
      | none => simp [hfields, sentUpload, hfile] at hpassed
      | some filename =>
        cases hint : param.typeHint with
        | list inner => exact absurd hint (hhint inner)
        | _ => simpa [formStep, hint, hfields, sentUpload, hfile] using hpassed
  next => simp at hpassed

theorem kind_ne_of_passedBy (hpassed : passedBy parseF64 request param validator = some value) :
    param.kind ≠ .path ∧ param.kind ≠ .file := by
  unfold passedBy at hpassed
  split at hpassed <;> simp_all

end Arms

section Loop

variable (parseF64 : List Char → Option UInt64)

/-- The values bound by the loop, with the parameters they are bound for. -/
def bindings (defers : Bool) (request : Request) (items : List Occurrence) :
    List (FieldParam × Value) :=
  items.filterMap fun occurrence =>
    match occurrenceStep parseF64 defers request occurrence with
    | .bind value => some (occurrence.param, value)
    | _ => none

def bindAll (bound : Dict String Value) (bindings : List (FieldParam × Value)) :
    Dict String Value :=
  bindings.foldl (fun bound binding => bound.set binding.1.name binding.2) bound

theorem extractItems_bindAll {defers : Bool} {request : Request} (items : List Occurrence)
    (start : Dict String Value) (earlier : List ErrorDetail) {bound : Dict String Value}
    {deferred : List ErrorDetail}
    (hextract : extractItems parseF64 defers request items start earlier =
      .kwargs bound deferred) :
    bound = bindAll start (bindings parseF64 defers request items) := by
  induction items generalizing start earlier with
  | nil =>
    unfold extractItems at hextract
    split at hextract
    next => simp at hextract
    next => exact (Extraction.kwargs.inj hextract).1.symm
  | cons occurrence rest ih =>
    unfold extractItems at hextract
    unfold bindings
    cases hstep : occurrenceStep parseF64 defers request occurrence with
    | bind value =>
      simp only [hstep] at hextract
      simpa [hstep, bindAll, bindings] using ih _ _ hextract
    | skip | reject errors =>
      simp only [hstep] at hextract
      simpa [hstep, bindings] using ih _ _ hextract
    | abort errors => simp [hstep] at hextract

theorem mem_bindings_iff {defers : Bool} {request : Request} {items : List Occurrence}
    (param : FieldParam) (value : Value) :
    (param, value) ∈ bindings parseF64 defers request items ↔
      ∃ occurrence ∈ items, occurrence.param = param ∧
        occurrenceStep parseF64 defers request occurrence = .bind value := by
  simp only [bindings, mem_filterMap]
  refine exists_congr fun occurrence => and_congr_right fun _ => ?_
  cases occurrenceStep parseF64 defers request occurrence <;> simp [and_comm]

def BoundVetted (request : Request) (binding : FieldParam × Value) : Prop :=
  ∀ validator, binding.1.scalarValidator = some validator → binding.1.kind ≠ .file →
    Vetted request binding.1 validator binding.2

section

variable {defers : Bool} {request : Request} {items : List Occurrence}

theorem bindings_vetted
    (hpasses : ∀ occurrence ∈ items, occurrence.shadowed = false →
      PassesRightly parseF64 request occurrence.param) :
    ∀ binding ∈ bindings parseF64 defers request items, BoundVetted request binding := by
  rintro ⟨param, value⟩ hbinding validator hvalidator hfile
  obtain ⟨occurrence, hmem, rfl, hstep⟩ := (mem_bindings_iff parseF64 param value).1 hbinding
  unfold occurrenceStep at hstep
  cases hshadowed : occurrence.shadowed with
  | true => exact .inl (.of_absent (by simpa [hshadowed] using hstep))
  | false =>
    simp only [hshadowed] at hstep
    rcases fullStep_vetted hfile hvalidator hstep with hvetted | hpassed
    · exact hvetted
    · exact .inl (hpasses occurrence hmem hshadowed validator hvalidator value hpassed)

theorem passesRightly_of_vetted
    (hbindings : ∀ binding ∈ bindings parseF64 defers request items,
      BoundVetted request binding) :
    ∀ occurrence ∈ items, occurrence.shadowed = false →
      PassesRightly parseF64 request occurrence.param := by
  intro occurrence hmem hshadowed validator hvalidator value hpassed
  obtain ⟨hpath, hfile⟩ := kind_ne_of_passedBy hpassed
  have hstep : occurrenceStep parseF64 defers request occurrence = .bind value := by
    simpa [occurrenceStep, hshadowed] using fullStep_of_passedBy defers hvalidator hpassed
  have hbinding := hbindings _
    ((mem_bindings_iff parseF64 occurrence.param value).2 ⟨occurrence, hmem, rfl, hstep⟩)
  rcases hbinding validator hvalidator hfile with houtput | ⟨hkind, -⟩
  · exact houtput
  · exact absurd hkind hpath

end

end Loop

def limitsHeader : FieldParam :=
  { limitParam with kind := .header, typeHint := .list .int }

def limitForm : FieldParam :=
  { limitParam with kind := .form }

def limitFile : ParsedField where
  filename := some "limit.txt"
  data := []
  text := ""

end FastapiTurbo.ExtractValidated
