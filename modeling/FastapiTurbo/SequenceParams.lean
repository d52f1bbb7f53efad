import FastapiTurbo.ExtractValidated

/-! Sequence parameters: the tag that `_get_type_name` (`_door_support.py`) makes of an
annotation, and the coercion by that tag before the parameter's own validator sees the
elements. -/
namespace FastapiTurbo.SequenceParams

open Lib Coercion Extract ExtractErrors List
  ExtractValidated

inductive Builtin where
  | int
  | float
  | bool
  | str
  | bytes
  deriving DecidableEq

def Builtin.typeHint : Builtin → TypeHint
  | .int => .int
  | .float => .float
  | .bool => .bool
  | .str => .str
  | .bytes => .bytes

inductive Origin where
  | list
  | tuple
  | set
  | frozenset
  deriving DecidableEq

/-- An annotation, as far as `_get_type_name` looks at it. -/
inductive AnnotationExpr where
  | empty
  | noneType
  | builtin (builtin : Builtin)
  /-- An enum with those classes of its `__mro__` that are keys of `type_map`. -/
  | enum (bases : List Builtin)
  | cls (name : String)
  | union (args : List AnnotationExpr)
  | bare (origin : Origin)
  | sequence (origin : Origin) (args : List AnnotationExpr)
  /-- Anything else, `Annotated` or `Literal` for instance. -/
  | special

mutual

def getTypeName : AnnotationExpr → TypeHint
  | .empty | .noneType | .cls _ | .special => .str
  | .builtin builtin => builtin.typeHint
  | .enum bases => (bases.head?.map Builtin.typeHint).getD .str
  | .union args => firstTypeName args
  | .bare _ => .list .str
  | .sequence _ args => .list (elementTypeName args)

def firstTypeName : List AnnotationExpr → TypeHint
  | [] => .str
  | .noneType :: rest => firstTypeName rest
  | arg :: _ => getTypeName arg

def elementTypeName : List AnnotationExpr → TypeHint
  | [] => .str
  | arg :: _ => getTypeName arg

end

def AnnotationExpr.isSequence : AnnotationExpr → Bool
  | .bare _ | .sequence _ _ => true
  | _ => false

def elementTag : AnnotationExpr → TypeHint
  | .sequence _ args => elementTypeName args
  | _ => .str

theorem getTypeName_of_isSequence {expr : AnnotationExpr}
    (hs : expr.isSequence = true) :
    getTypeName expr = .list (elementTag expr) := by
  cases expr with
  | bare origin | sequence origin args => simp [getTypeName, elementTag]
  | _ => cases hs

def precoerced : TypeHint → Bool
  | .int | .float | .bool => true
  | _ => false

def rawTexts (param : FieldParam) (request : Request) : List String :=
  match param.kind with
  | .form => (request.fields param.wireName).map ParsedField.text
  | _ => request.queryMulti param.wireName

def asStrings (texts : List String) : Value :=
  .list (texts.map .str)

def fromStrings (param : FieldParam) (request : Request) : Bool :=
  match param.kind with
  | .query => true
  | .form => !hasFile (request.fields param.wireName)
  | _ => false

section Bound

variable (parseF64 : List Char → Option UInt64)

theorem coerce_of_not_precoerced {tag : TypeHint} (htag : precoerced tag = false) (raw : String) :
    tryCoerceStrToPy parseF64 raw tag = some (.str raw) := by
  cases tag <;> first | rfl | cases htag

theorem mapM_coerce_of_not_precoerced {tag : TypeHint} (htag : precoerced tag = false)
    (texts : List String) :
    texts.mapM (tryCoerceStrToPy parseF64 · tag) = some (texts.map .str) := by
  rw [funext (coerce_of_not_precoerced parseF64 htag)]
  exact mapM_pure

private theorem mapM_readFormItem (tag : TypeHint) {fields : List ParsedField}
    (hf : hasFile fields = false) :
    fields.mapM (readFormItem parseF64 tag) =
      (fields.map ParsedField.text).mapM (tryCoerceStrToPy parseF64 · tag) := by
  induction fields with
  | nil => rfl
  | cons field rest ih =>
    simp only [hasFile, any_cons, Bool.or_eq_false_iff] at hf
    rw [map_cons, mapM_cons, mapM_cons, ih hf.2, readFormItem, hf.1]
    rfl

theorem listStep_eq_bind_iff {expr : AnnotationExpr} {param : FieldParam} {request : Request}
    {validator : Validator} {output : Value} (hsequence : expr.isSequence = true)
    (hh : param.typeHint = getTypeName expr)
    (hv : param.scalarValidator = some validator) (hs : fromStrings param request = true)
    (defers : Bool) :
    fullStep parseF64 defers param request (request.fields param.wireName) = .bind output ↔
      if rawTexts param request = [] then param.default = some output
      else ∃ coerced,
        (rawTexts param request).mapM (tryCoerceStrToPy parseF64 · (elementTag expr)) =
            some coerced ∧
          validator (.list coerced) = .returned output := by
  rw [getTypeName_of_isSequence hsequence] at hh
  unfold fullStep
  cases hk : param.kind with
  | query =>
    simp only [queryStep, hh, rawTexts, hk, hv]
    cases request.queryMulti param.wireName with
    | nil => exact whenAbsent_eq_bind_iff "query" param output
    | cons value rest =>
      rw [if_neg (cons_ne_nil _ _)]
      simp only [checkItems_eq_bind_iff, checked_some_iff]
  | form =>
    have hf : hasFile (request.fields param.wireName) = false := by
      simpa [fromStrings, hk] using hs
    simp only [rawTexts, hk]
    generalize request.fields param.wireName = fields at hf
    cases fields with
    | nil => exact whenAbsent_eq_bind_iff "body" param output
    | cons field rest =>
      rw [map_cons, if_neg (cons_ne_nil _ _), ← map_cons, ← mapM_readFormItem parseF64 _ hf]
      simp only [formStep, hh, hf, hv, checkItems_eq_bind_iff]
      simp [checked_some_iff]
  | path | header | cookie | file => simp [fromStrings, hk] at hs

/-- Strings that the validator accepts are bound to its output exactly if the tag of the
elements parses none of them, or parses them all to what the validator treats alike. -/
theorem accepted_sequence_bound_iff {expr : AnnotationExpr} {param : FieldParam}
    {request : Request} {validator : Validator} {output : Value}
    (hsequence : expr.isSequence = true) (hhint : param.typeHint = getTypeName expr)
    (hvalidator : param.scalarValidator = some validator)
    (hstrings : fromStrings param request = true)
    (haccepts : validator (asStrings (rawTexts param request)) = .returned output)
    (defers : Bool) :
    fullStep parseF64 defers param request (request.fields param.wireName) = .bind output ↔
      if rawTexts param request = [] then param.default = some output
      else precoerced (elementTag expr) = true → ∃ coerced,
        (rawTexts param request).mapM (tryCoerceStrToPy parseF64 · (elementTag expr)) =
            some coerced ∧
          validator (.list coerced) = .returned output := by
  rw [listStep_eq_bind_iff parseF64 hsequence hhint hvalidator hstrings defers]
  split
  · rfl
  · refine ⟨fun hb _ => hb, fun hb => ?_⟩
    cases htag : precoerced (elementTag expr) with
    | true => exact hb htag
    | false => exact ⟨_, mapM_coerce_of_not_precoerced parseF64 htag _, haccepts⟩

end Bound

def listOf (element : List AnnotationExpr) : AnnotationExpr :=
  .sequence .list [.union element]

def tagsParam (expr : AnnotationExpr) : FieldParam :=
  { limitParam with name := "tags", typeHint := getTypeName expr,
                    scalarValidator := some intOrStr }

def tagsRequest (tags : List String) : Request :=
  { emptyRequest with queryMulti := fun name => if name = "tags" then tags else [] }

theorem str_or_int_bound :
    fullStep (fun _ => none) false (tagsParam (listOf [.builtin .str, .builtin .int]))
        (tagsRequest ["abc", "5"]) [] = .bind (.list [.str "abc", .str "5"]) := by
  refine (@accepted_sequence_bound_iff (fun _ => none) (listOf [.builtin .str, .builtin .int])
    (tagsParam (listOf [.builtin .str, .builtin .int])) (tagsRequest ["abc", "5"]) intOrStr
    (.list [.str "abc", .str "5"]) rfl rfl rfl rfl rfl false).2 ?_
  decide

/-- With the members of the union the other way round a string is rejected, or altered to
an integer, before the validator sees it. -/
theorem int_or_str_rejected :
    intOrStr (asStrings ["abc"]) = .returned (.list [.str "abc"]) ∧
      fullStep (fun _ => none) false (tagsParam (listOf [.builtin .int, .builtin .str]))
          (tagsRequest ["abc"]) [] =
        .reject [.coercion "query" "tags" (some 0) "abc" .int] ∧
      intOrStr (asStrings ["5"]) = .returned (.list [.str "5"]) ∧
      fullStep (fun _ => none) false (tagsParam (listOf [.builtin .int, .builtin .str]))
          (tagsRequest ["5"]) [] = .bind (.list [.int 5]) := by
  decide

end FastapiTurbo.SequenceParams
