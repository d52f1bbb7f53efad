import FastapiTurbo.Py
import FastapiTurbo.Lib.Json

/-! The two JSON encoders of a handler's result (`responses.rs`, `responses.py`): orjson with
`_json_default`, and the Rust writer that takes over the whole payload when orjson raises. -/
namespace FastapiTurbo.JsonWriters

open Lib List Option Py

inductive FloatView where
  | finite (literal : String)
  | nonFinite
  deriving DecidableEq

structure DecimalView where
  isFinite : Bool
  isIntegral : Bool
  /-- `__int__`, where it fits an `i64`. -/
  int64 : Option Int
  text : Option String
  float : Option FloatView
  deriving DecidableEq

inductive SecondsView where
  | whole (seconds : Int)
  | fraction (literal : String)
  | nonFinite
  deriving DecidableEq

structure Asked where
  /-- `type(obj).__name__`. -/
  cls : String
  decimal : DecimalView
  /-- `extract::<i64>()`, by `__index__`. -/
  i64 : Option Int
  /-- `extract::<f64>()`, by `__float__` or `__index__`. -/
  f64 : Option FloatView
  isoformat : Option String
  totalSeconds : Option SecondsView
  /-- `str(obj)`. -/
  text : String
  deriving DecidableEq

/-- Python values.  A member of an enumeration that is an `int` or a `str` itself is one of
these; a `model_dump` that raises counts as none. -/
inductive PyVal where
  | none
  | bool (value : Bool)
  | int (value : Int)
  | str (text : String)
  | bytes (data : List UInt8)
  | list (items : List PyVal)
  | tuple (items : List PyVal)
  /-- A `set` or `frozenset`, in the order of its iteration. -/
  | set (items : List PyVal)
  | dict (entries : List (String × PyVal))
  | decimal (view : DecimalView)
  /-- An object with what its `model_dump(mode="json", by_alias=True)` returns. -/
  | model (asked : Asked) (dumped : PyVal)
  /-- A plain object with its `__dict__`. -/
  | plain (asked : Asked) (vars : List (String × PyVal))
  /-- An `Enum` member with its value and what its `__dict__` has behind `_value_`.  One that is
  itself a `bytes`, `list`, `tuple`, `set` or `dict` is that constructor's. -/
  | enumMember (asked : Asked) (value : PyVal) (rest : List (String × PyVal))
  /-- An object without `__dict__`, such as a class, with its `str`. -/
  | shown (text : String)

def floatJson : FloatView → Json
  | .finite literal => .number literal
  | .nonFinite => .null

def decimalJson (view : DecimalView) : Json :=
  if !view.isFinite then .null
  else
    match (if view.isIntegral then (view.int64.map toString).or view.text else none) with
    | some literal => .number literal
    | none => (view.float.map floatJson).getD .null

/-- What `write_any_json` writes for an object before it comes to its attributes; the class
is looked at by name. -/
def numeric (asked : Asked) : Option Json :=
  if asked.cls = "Decimal" then some (decimalJson asked.decimal)
  else (asked.i64.map fun value => .number (toString value)).or (asked.f64.map floatJson)

def secondsJson : SecondsView → Json
  | .whole seconds => .number (toString seconds)
  | .fraction literal => .number literal
  | .nonFinite => .null

def byClassName (asked : Asked) : Option Json :=
  match asked.cls with
  | "datetime" | "date" | "time" => asked.isoformat.map .string
  | "timedelta" => asked.totalSeconds.map secondsJson
  | "UUID" => some (.string asked.text)
  | _ => none

/-- What `write_any_json` writes for an object without `model_dump` before it comes to its
`__dict__`. -/
def answered (asked : Asked) : Option Json :=
  (numeric asked).or (byClassName asked)

def fitsI64 (value : Int) : Bool :=
  -9223372036854775808 ≤ value && value < 9223372036854775808

def intStr (value : Int) : Option String :=
  if isShort value then some (toString value) else none

/-- What `write_any_json` writes for an integer: an `i64` itself, and a wider one by its
`str`.  One without a `str` is no `f64` either and comes to the last arm, which takes the
default for the `str` that raised. -/
def intJson (value : Int) : Json :=
  if fitsI64 value then .number (toString value)
  else
    match intStr value with
    | some digits => .number digits
    | none => .string ""

def escapeChar (char : Char) : List Char :=
  match char with
  | '"' => ['\\', '"']
  | '\\' => ['\\', '\\']
  | '\n' => ['\\', 'n']
  | '\r' => ['\\', 'r']
  | '\t' => ['\\', 't']
  | char =>
    if char.toNat < 0x20 then
      "\\u00".toList ++ [Nat.digitChar (char.toNat / 16), Nat.digitChar (char.toNat % 16)]
    else [char]

def quoted (text : String) : List Char :=
  '"' :: text.toList.flatMap escapeChar ++ ['"']

def writeDictJson (entries : List (List Char)) : List Char :=
  '{' :: Json.commas entries ++ ['}']

def writeListJson (items : List (List Char)) : List Char :=
  '[' :: Json.commas items ++ [']']

section Encoders

-- `from_utf8_lossy` and `decode("utf-8", errors="replace")`, which replace alike.
variable (lossy : List UInt8 → String)

mutual

/-- `write_any_json`: the text that is pushed. -/
def writeAnyJson : PyVal → List Char
  | .none => "null".toList
  | .bool value => if value then "true".toList else "false".toList
  | .decimal view => (decimalJson view).render quoted
  | .int value => (intJson value).render quoted
  | .str text => quoted text
  | .dict entries => writeDictJson (writeEntries entries)
  | .list items | .tuple items | .set items => writeListJson (writeItems items)
  | .bytes data => quoted (lossy data)
  | .model asked dumped =>
    match numeric asked with
    | some json => json.render quoted
    | none => writeAnyJson dumped
  | .plain asked vars =>
    match answered asked with
    | some json => json.render quoted
    | none => writeDictJson (writeEntries vars)
  | .enumMember asked value rest =>
    match answered asked with
    | some json => json.render quoted
    | none =>
      writeDictJson ((quoted "_value_" ++ ':' :: writeAnyJson value) :: writeEntries rest)
  | .shown text => quoted text

def writeItems : List PyVal → List (List Char)
  | [] => []
  | item :: rest => writeAnyJson item :: writeItems rest

def writeEntries : List (String × PyVal) → List (List Char)
  | [] => []
  | (key, value) :: rest => (quoted key ++ ':' :: writeAnyJson value) :: writeEntries rest

end

mutual

def written : PyVal → Json
  | .none => .null
  | .bool value => .bool value
  | .decimal view => decimalJson view
  | .int value => intJson value
  | .str text => .string text
  | .dict entries => .object (writtenEntries entries)
  | .list items | .tuple items | .set items => .array (writtenItems items)
  | .bytes data => .string (lossy data)
  | .model asked dumped => (numeric asked).getD (written dumped)
  | .plain asked vars =>
    (answered asked).getD (.object (writtenEntries vars))
  | .enumMember asked value rest =>
    (answered asked).getD
      (.object (("_value_", written value) :: writtenEntries rest))
  | .shown text => .string text

def writtenItems : List PyVal → List Json
  | [] => []
  | item :: rest => written item :: writtenItems rest

def writtenEntries : List (String × PyVal) → List (String × Json)
  | [] => []
  | (key, value) :: rest => (key, written value) :: writtenEntries rest

end

def fits64 (value : Int) : Bool :=
  -9223372036854775808 ≤ value && value < 18446744073709551616

mutual

/-- orjson with `default=_json_default`: the value, or `none` where it raises. -/
def encode : PyVal → Option Json
  | .none => some .null
  | .bool value => some (.bool value)
  | .int value => if fits64 value then some (.number (toString value)) else none
  | .str text => some (.string text)
  | .dict entries => (encodeEntries entries).map .object
  | .list items | .tuple items => (encodeItems items).map .array
  -- From here on with the result of `_json_default`.
  | .decimal _ => none
  | .bytes data => some (.string (lossy data))
  | .set items => (encodeItems items).map .array
  | .model _ dumped => encode dumped
  | .enumMember _ value _ => encode value
  | .plain _ vars => (encodeEntries vars).map .object
  | .shown text => some (.string text)

def encodeItems : List PyVal → Option (List Json)
  | [] => some []
  | item :: rest =>
    match encode item, encodeItems rest with
    | some json, some more => some (json :: more)
    | _, _ => none

def encodeEntries : List (String × PyVal) → Option (List (String × Json))
  | [] => some []
  | (key, value) :: rest =>
    match encode value, encodeEntries rest with
    | some json, some more => some ((key, json) :: more)
    | _, _ => none

end

theorem isShort_of_lt {value : Int} (hv : value.natAbs < 100000000000000000000) :
    isShort value = true := by
  have hd : (Nat.toDigits 10 value.natAbs).length ≤ 20 :=
    (Nat.length_toDigits_le_iff (by decide) (by decide)).2 hv
  exact decide_eq_true (Nat.le_trans hd (by decide))

theorem intJson_of_fits64 {value : Int} (hf : fits64 value = true) :
    intJson value = .number (toString value) := by
  have hs : isShort value = true := by
    apply isShort_of_lt
    simp only [fits64, Bool.and_eq_true, decide_eq_true_eq] at hf
    omega
  rw [intJson, intStr, if_pos hs, ite_self]

/-- `dict_to_json_bytes`: what orjson makes of the payload, or else the Rust writer. -/
def dictToJson (payload : PyVal) : Json :=
  (encode lossy payload).getD (written lossy payload)

mutual

theorem writeAnyJson_eq_render (value : PyVal) :
    writeAnyJson lossy value = (written lossy value).render quoted := by
  cases value with
  | none | bool _ | int _ | str _ | bytes _ | decimal _ | shown _ => rfl
  | dict entries =>
    simp only [writeAnyJson, written, Json.render, writeDictJson, writeEntries_eq_render entries]
  | list items | tuple items | set items =>
    simp only [writeAnyJson, written, Json.render, writeListJson, writeItems_eq_render items]
  | model asked dumped =>
    simp only [writeAnyJson, written]
    cases numeric asked with
    | none => exact writeAnyJson_eq_render dumped
    | some json => rfl
  | plain asked vars =>
    simp only [writeAnyJson, written]
    cases answered asked with
    | none => simp only [getD_none, Json.render, writeDictJson, writeEntries_eq_render vars]
    | some json => rfl
  | enumMember asked value rest =>
    simp only [writeAnyJson, written]
    cases answered asked with
    | none =>
      simp only [getD_none, Json.render, Json.renderEntries, writeDictJson,
        writeAnyJson_eq_render value, writeEntries_eq_render rest]
    | some json => rfl

theorem writeItems_eq_render (items : List PyVal) :
    writeItems lossy items = Json.renderItems quoted (writtenItems lossy items) := by
  cases items with
  | nil => rfl
  | cons item rest =>
    rw [writeItems, writtenItems, Json.renderItems, writeAnyJson_eq_render item,
      writeItems_eq_render rest]

theorem writeEntries_eq_render (entries : List (String × PyVal)) :
    writeEntries lossy entries = Json.renderEntries quoted (writtenEntries lossy entries) := by
  match entries with
  | [] => rfl
  | (key, value) :: rest =>
    rw [writeEntries, writtenEntries, Json.renderEntries, writeAnyJson_eq_render value,
      writeEntries_eq_render rest]

end

mutual

/-- orjson meets no `Decimal` and no integer wider than 64 bits. -/
def accepted : PyVal → Bool
  | .none | .bool _ | .str _ | .bytes _ | .shown _ => true
  | .decimal _ => false
  | .int value => fits64 value
  | .dict entries => acceptedEntries entries
  | .list items | .tuple items | .set items => acceptedItems items
  | .model _ dumped => accepted dumped
  | .enumMember _ value _ => accepted value
  | .plain _ vars => acceptedEntries vars

def acceptedItems : List PyVal → Bool
  | [] => true
  | item :: rest => accepted item && acceptedItems rest

def acceptedEntries : List (String × PyVal) → Bool
  | [] => true
  | (_, value) :: rest => accepted value && acceptedEntries rest

end

def scalarOf : PyVal → Option Json
  | .none => some .null
  | .bool value => some (.bool value)
  | .int value => some (.number (toString value))
  | .str text | .shown text => some (.string text)
  | .bytes data => some (.string (lossy data))
  | .model _ dumped => scalarOf dumped
  | .enumMember _ value _ => scalarOf value
  | _ => none

mutual

theorem isSome_encode (value : PyVal) : (encode lossy value).isSome = accepted value := by
  cases value with
  | none | bool _ | str _ | bytes _ | shown _ | decimal _ => rfl
  | int value =>
    simp only [encode, accepted]
    cases fits64 value <;> rfl
  | dict entries | plain _ entries =>
    simp only [encode, accepted, isSome_map, isSome_encodeEntries entries]
  | list items | tuple items | set items =>
    simp only [encode, accepted, isSome_map, isSome_encodeItems items]
  | model _ dumped => exact isSome_encode dumped
  | enumMember _ value _ => exact isSome_encode value

theorem isSome_encodeItems (items : List PyVal) :
    (encodeItems lossy items).isSome = acceptedItems items := by
  cases items with
  | nil => rfl
  | cons item rest =>
    rw [acceptedItems, ← isSome_encode item, ← isSome_encodeItems rest, encodeItems]
    cases encode lossy item <;> cases encodeItems lossy rest <;> rfl

theorem isSome_encodeEntries (entries : List (String × PyVal)) :
    (encodeEntries lossy entries).isSome = acceptedEntries entries := by
  match entries with
  | [] => rfl
  | (key, value) :: rest =>
    rw [acceptedEntries, ← isSome_encode value, ← isSome_encodeEntries rest, encodeEntries]
    cases encode lossy value <;> cases encodeEntries lossy rest <;> rfl

end

variable {json : Json}

theorem scalarOf_eq (value : PyVal) (hj : encode lossy value = some json) :
    scalarOf lossy value = if json.isScalar then some json else none := by
  cases value with
  | none | bool _ | str _ | bytes _ | shown _ =>
    cases hj
    rfl
  | int value =>
    simp only [encode, ite_none_right_eq_some, Option.some.injEq] at hj
    obtain ⟨-, rfl⟩ := hj
    rfl
  | decimal view => cases hj
  | dict _ | plain _ _ | list _ | tuple _ | set _ =>
    obtain ⟨_, -, rfl⟩ := map_eq_some_iff.1 hj
    rfl
  | model _ dumped => exact scalarOf_eq dumped hj
  | enumMember _ value _ => exact scalarOf_eq value hj

/-- The Rust writer makes of a value what orjson makes of it. -/
def Same (value : PyVal) : Prop :=
  ∀ json, encode lossy value = some json → written lossy value = json

mutual

/-- A value and everything in it that orjson comes to are written alike. -/
def SameThroughout : PyVal → Prop
  | .dict entries => Same lossy (.dict entries) ∧ SameEntries entries
  | .list items => Same lossy (.list items) ∧ SameItems items
  | .tuple items => Same lossy (.tuple items) ∧ SameItems items
  | .set items => Same lossy (.set items) ∧ SameItems items
  | .model asked dumped => Same lossy (.model asked dumped) ∧ SameThroughout dumped
  | .enumMember asked value rest =>
    Same lossy (.enumMember asked value rest) ∧ SameThroughout value
  | .plain asked vars => Same lossy (.plain asked vars) ∧ SameEntries vars
  | value => Same lossy value

def SameItems : List PyVal → Prop
  | [] => True
  | item :: rest => SameThroughout item ∧ SameItems rest

def SameEntries : List (String × PyVal) → Prop
  | [] => True
  | (_, value) :: rest => SameThroughout value ∧ SameEntries rest

end

mutual

/-- Every object that is accepted by orjson is asked the same by both encoders: one with a
`model_dump` is no number, or is dumped as that number; one without is not answered for
beside its `__dict__`; and a member of an enumeration is answered for with its value. -/
def Alike : PyVal → Prop
  | .none | .bool _ | .int _ | .str _ | .bytes _ | .shown _ | .decimal _ => True
  | .dict entries => AlikeEntries entries
  | .list items | .tuple items | .set items => AlikeItems items
  | .model asked dumped =>
    Alike dumped ∧
      (accepted dumped = true → numeric asked = none ∨ numeric asked = scalarOf lossy dumped)
  | .plain asked vars => AlikeEntries vars ∧ (acceptedEntries vars = true → answered asked = none)
  | .enumMember asked value _ =>
    Alike value ∧
      (accepted value = true → answered asked ≠ none ∧ answered asked = scalarOf lossy value)

def AlikeItems : List PyVal → Prop
  | [] => True
  | item :: rest => Alike item ∧ AlikeItems rest

def AlikeEntries : List (String × PyVal) → Prop
  | [] => True
  | (_, value) :: rest => Alike value ∧ AlikeEntries rest

end

theorem isScalar_floatJson (view : FloatView) : (floatJson view).isScalar = true := by
  cases view <;> rfl

private theorem isScalar_decimalJson (view : DecimalView) : (decimalJson view).isScalar = true := by
  unfold decimalJson
  split
  · rfl
  · split
    · rfl
    · cases view.float with
      | none => rfl
      | some float => exact isScalar_floatJson float

variable {asked : Asked}

theorem isScalar_numeric (hj : numeric asked = some json) : json.isScalar = true := by
  unfold numeric at hj
  split at hj
  · cases hj
    exact isScalar_decimalJson _
  · rcases or_eq_some_iff.1 hj with hindex | ⟨-, hf⟩
    · obtain ⟨_, -, rfl⟩ := map_eq_some_iff.1 hindex
      rfl
    · obtain ⟨view, -, rfl⟩ := map_eq_some_iff.1 hf
      exact isScalar_floatJson view

theorem isScalar_answered (hj : answered asked = some json) : json.isScalar = true := by
  rcases or_eq_some_iff.1 hj with hnumeric | ⟨-, hn⟩
  · exact isScalar_numeric hnumeric
  · unfold byClassName at hn
    split at hn
    case h_6 => cases hn
    case h_5 =>
      cases hn
      rfl
    case h_4 =>
      obtain ⟨view, -, rfl⟩ := map_eq_some_iff.1 hn
      cases view <;> rfl
    all_goals
      obtain ⟨_, -, rfl⟩ := map_eq_some_iff.1 hn
      rfl

variable {value : PyVal}

theorem same_of_sameThroughout (hs : SameThroughout lossy value) : Same lossy value := by
  cases value <;> first | exact hs | exact hs.1

theorem accepted_of_encode (hj : encode lossy value = some json) : accepted value = true := by
  rw [← isSome_encode lossy value, hj]
  rfl

theorem exists_encode (ha : accepted value = true) : ∃ json, encode lossy value = some json := by
  rw [← isSome_encode lossy value] at ha
  exact isSome_iff_exists.1 ha

theorem eq_of_scalarOf {answer : Json} (hj : encode lossy value = some json)
    (ha : some answer = scalarOf lossy value) : answer = json := by
  rw [scalarOf_eq lossy value hj] at ha
  split at ha
  · exact Option.some.inj ha
  · cases ha

theorem scalarOf_of_eq {answer : Json} (hj : encode lossy value = some json)
    (hs : answer.isScalar = true) (ha : answer = json) : some answer = scalarOf lossy value := by
  rw [scalarOf_eq lossy value hj, ← ha, if_pos hs]

theorem same_model_iff {dumped : PyVal} (hd : Same lossy dumped) :
    Same lossy (.model asked dumped) ↔
      (accepted dumped = true → numeric asked = none ∨ numeric asked = scalarOf lossy dumped) := by
  constructor
  · intro hsame ha
    obtain ⟨json, hj⟩ := exists_encode lossy ha
    have hw := hsame json hj
    simp only [written] at hw
    cases hn : numeric asked with
    | none => exact .inl rfl
    | some number =>
      rw [hn] at hw
      exact .inr (scalarOf_of_eq lossy hj (isScalar_numeric hn) hw)
  · intro hc json hj
    have ha : accepted dumped = true := accepted_of_encode lossy hj
    simp only [written]
    cases hn : numeric asked with
    | none => exact hd json hj
    | some number =>
      rcases hc ha with hnone | hs
      · rw [hn] at hnone
        cases hnone
      · rw [hn] at hs
        exact eq_of_scalarOf lossy hj hs

theorem same_plain_iff {vars : List (String × PyVal)}
    (hv : ∀ entries, encodeEntries lossy vars = some entries → writtenEntries lossy vars = entries)
    :
    Same lossy (.plain asked vars) ↔ (acceptedEntries vars = true → answered asked = none) := by
  constructor
  · intro hsame ha
    rw [← isSome_encodeEntries lossy vars] at ha
    obtain ⟨entries, he⟩ := isSome_iff_exists.1 ha
    have hw := hsame (.object entries) (by rw [encode, he, map_some])
    simp only [written] at hw
    cases hanswered : answered asked with
    | none => rfl
    | some answer =>
      -- The answer is a scalar, and orjson writes the `__dict__`.
      rw [hanswered] at hw
      have hs := isScalar_answered hanswered
      rw [show answer = .object entries from hw] at hs
      cases hs
  · intro hc json hj
    obtain ⟨entries, he, rfl⟩ := map_eq_some_iff.1 hj
    have ha : acceptedEntries vars = true := by
      rw [← isSome_encodeEntries lossy vars, he]
      rfl
    simp only [written]
    rw [hc ha, getD_none, hv entries he]

theorem same_enumMember_iff {rest : List (String × PyVal)} (hv : Same lossy value) :
    Same lossy (.enumMember asked value rest) ↔
      (accepted value = true → answered asked ≠ none ∧ answered asked = scalarOf lossy value) := by
  constructor
  · intro hsame haccepted
    obtain ⟨json, hj⟩ := exists_encode lossy haccepted
    have hw := hsame json hj
    simp only [written] at hw
    cases ha : answered asked with
    | none =>
      -- The `__dict__` has the value in it, so it is not the value.
      rw [ha, hv json hj] at hw
      exact absurd hw (Json.ne_of_mem_entries mem_cons_self)
    | some answer =>
      rw [ha] at hw
      exact ⟨nofun, scalarOf_of_eq lossy hj (isScalar_answered ha) hw⟩
  · intro hc json hj
    obtain ⟨hsome, hs⟩ := hc (accepted_of_encode lossy hj)
    obtain ⟨answer, ha⟩ := ne_none_iff_exists'.1 hsome
    rw [ha] at hs
    simp only [written, ha]
    exact eq_of_scalarOf lossy hj hs

variable {items : List PyVal}

theorem writtenItems_eq_iff {jsons : List Json} (hj : encodeItems lossy items = some jsons) :
    writtenItems lossy items = jsons ↔ ∀ item ∈ items, Same lossy item := by
  induction items generalizing jsons with
  | nil =>
    cases hj
    simp [writtenItems]
  | cons item rest ih =>
    rw [encodeItems] at hj
    split at hj
    · next json more hjson hm =>
      cases hj
      simp [writtenItems, ih hm, Same, hjson]
    · cases hj

variable {entries : List (String × PyVal)}

theorem writtenEntries_eq_iff {jsons : List (String × Json)}
    (hj : encodeEntries lossy entries = some jsons) :
    writtenEntries lossy entries = jsons ↔ ∀ entry ∈ entries, Same lossy entry.2 := by
  induction entries generalizing jsons with
  | nil =>
    cases hj
    simp [writtenEntries]
  | cons entry rest ih =>
    rw [encodeEntries] at hj
    split at hj
    · next json more hjson hm =>
      cases hj
      rw [writtenEntries, List.cons.injEq, ih hm]
      simp [Same, hjson]
    · cases hj

theorem same_of_sameItems (hs : SameItems lossy items) : ∀ item ∈ items, Same lossy item := by
  induction items with
  | nil => exact nofun
  | cons item rest ih =>
    exact forall_mem_cons.2 ⟨same_of_sameThroughout lossy hs.1, ih hs.2⟩

theorem same_of_sameEntries (hs : SameEntries lossy entries) :
    ∀ entry ∈ entries, Same lossy entry.2 := by
  induction entries with
  | nil => exact nofun
  | cons entry rest ih =>
    exact forall_mem_cons.2 ⟨same_of_sameThroughout lossy hs.1, ih hs.2⟩

theorem same_array (hs : SameItems lossy items) :
    ∀ json, (encodeItems lossy items).map Json.array = some json →
      Json.array (writtenItems lossy items) = json := by
  intro json hj
  obtain ⟨jsons, hjsons, rfl⟩ := map_eq_some_iff.1 hj
  rw [(writtenItems_eq_iff lossy hjsons).2 (same_of_sameItems lossy hs)]

private theorem same_object (hs : SameEntries lossy entries) : Same lossy (.dict entries) := by
  intro json hj
  obtain ⟨jsons, hjsons, rfl⟩ := map_eq_some_iff.1 hj
  rw [written, (writtenEntries_eq_iff lossy hjsons).2 (same_of_sameEntries lossy hs)]

mutual

theorem sameThroughout_iff (value : PyVal) : SameThroughout lossy value ↔ Alike lossy value := by
  cases value with
  | none | bool _ | str _ | bytes _ | shown _ =>
    exact ⟨fun _ => trivial, fun _ json hj => Option.some.inj hj⟩
  | decimal view => exact ⟨fun _ => trivial, fun _ json hj => nomatch hj⟩
  | int value =>
    refine ⟨fun _ => trivial, fun _ json hj => ?_⟩
    simp only [encode, ite_none_right_eq_some, Option.some.injEq] at hj
    rw [written, intJson_of_fits64 hj.1, hj.2]
  | dict entries =>
    rw [SameThroughout, Alike, ← sameEntries_iff entries]
    exact ⟨And.right, fun hs => ⟨same_object lossy hs, hs⟩⟩
  | list items | tuple items | set items =>
    rw [SameThroughout, Alike, ← sameItems_iff items]
    exact ⟨And.right, fun hs => ⟨same_array lossy hs, hs⟩⟩
  | model asked dumped =>
    rw [SameThroughout, Alike, ← sameThroughout_iff dumped, and_comm]
    exact and_congr_right fun hs => same_model_iff lossy (same_of_sameThroughout lossy hs)
  | enumMember asked value rest =>
    rw [SameThroughout, Alike, ← sameThroughout_iff value, and_comm]
    exact and_congr_right fun hs =>
      same_enumMember_iff lossy (same_of_sameThroughout lossy hs)
  | plain asked vars =>
    rw [SameThroughout, Alike, ← sameEntries_iff vars, and_comm]
    exact and_congr_right fun hs =>
      same_plain_iff lossy fun _ he =>
        (writtenEntries_eq_iff lossy he).2 (same_of_sameEntries lossy hs)

theorem sameItems_iff (items : List PyVal) : SameItems lossy items ↔ AlikeItems lossy items := by
  cases items with
  | nil => exact Iff.rfl
  | cons item rest =>
    rw [SameItems, AlikeItems, sameThroughout_iff item, sameItems_iff rest]

theorem sameEntries_iff (entries : List (String × PyVal)) :
    SameEntries lossy entries ↔ AlikeEntries lossy entries := by
  match entries with
  | [] => exact Iff.rfl
  | (key, value) :: rest =>
    rw [SameEntries, AlikeEntries, sameThroughout_iff value, sameEntries_iff rest]

end

/-- A payload that orjson accepts is extended by an element that it rejects, between
`front` and `back`: the other elements are in the JSON as they were. -/
def ListUnchanged (front back : List PyVal) (rejected : PyVal) : Prop :=
  ∃ one two, encodeItems lossy front = some one ∧ encodeItems lossy back = some two ∧
    dictToJson lossy (.list (front ++ rejected :: back)) =
      .array (one ++ written lossy rejected :: two)

def DictUnchanged (front back : List (String × PyVal)) (key : String) (rejected : PyVal) : Prop :=
  ∃ one two, encodeEntries lossy front = some one ∧ encodeEntries lossy back = some two ∧
    dictToJson lossy (.dict (front ++ (key, rejected) :: back)) =
      .object (one ++ (key, written lossy rejected) :: two)

theorem writtenItems_eq_map (items : List PyVal) :
    writtenItems lossy items = items.map (written lossy) := by
  induction items with
  | nil => rfl
  | cons item rest ih => rw [writtenItems, ih, map_cons]

theorem writtenEntries_eq_map (entries : List (String × PyVal)) :
    writtenEntries lossy entries = entries.map fun entry => (entry.1, written lossy entry.2) := by
  induction entries with
  | nil => rfl
  | cons entry rest ih => rw [writtenEntries, ih, map_cons]

theorem acceptedItems_eq_all (items : List PyVal) : acceptedItems items = items.all accepted := by
  induction items with
  | nil => rfl
  | cons item rest ih => rw [acceptedItems, ih, all_cons]

theorem acceptedEntries_eq_all (entries : List (String × PyVal)) :
    acceptedEntries entries = entries.all fun entry => accepted entry.2 := by
  induction entries with
  | nil => rfl
  | cons entry rest ih => rw [acceptedEntries, ih, all_cons]

theorem length_of_encodeItems {jsons : List Json} (hj : encodeItems lossy items = some jsons) :
    jsons.length = items.length := by
  induction items generalizing jsons with
  | nil =>
    cases hj
    rfl
  | cons item rest ih =>
    rw [encodeItems] at hj
    split at hj
    · next hm =>
      cases hj
      rw [length_cons, length_cons, ih hm]
    · cases hj

theorem length_of_encodeEntries {jsons : List (String × Json)}
    (hj : encodeEntries lossy entries = some jsons) : jsons.length = entries.length := by
  induction entries generalizing jsons with
  | nil =>
    cases hj
    rfl
  | cons entry rest ih =>
    rw [encodeEntries] at hj
    split at hj
    · next hm =>
      cases hj
      rw [length_cons, length_cons, ih hm]
    · cases hj

theorem dictToJson_of_rejected {payload : PyVal} (hr : accepted payload = false) :
    dictToJson lossy payload = written lossy payload := by
  rw [← isSome_encode lossy payload, isSome_eq_false_iff, isNone_iff_eq_none] at hr
  rw [dictToJson, hr, getD_none]

theorem around_eq_iff {α : Type} {front one back two : List α} (middle : α)
    (hl : one.length = front.length) :
    front ++ middle :: back = one ++ middle :: two ↔ front = one ∧ back = two := by
  constructor
  · intro hs
    obtain ⟨hf, hb⟩ := append_inj hs hl.symm
    exact ⟨hf, (List.cons.inj hb).2⟩
  · rintro ⟨rfl, rfl⟩
    rfl

theorem listUnchanged_iff {front back : List PyVal} {rejected : PyVal}
    (ha : acceptedItems (front ++ back) = true) (hr : accepted rejected = false) :
    ListUnchanged lossy front back rejected ↔ ∀ item ∈ front ++ back, Same lossy item := by
  rw [acceptedItems_eq_all, all_append, Bool.and_eq_true, ← acceptedItems_eq_all,
    ← acceptedItems_eq_all, ← isSome_encodeItems lossy front, ← isSome_encodeItems lossy back,
    isSome_iff_exists, isSome_iff_exists] at ha
  obtain ⟨⟨one, hone⟩, two, htwo⟩ := ha
  have hw : dictToJson lossy (.list (front ++ rejected :: back)) =
      .array (writtenItems lossy front ++ written lossy rejected :: writtenItems lossy back) := by
    rw [dictToJson_of_rejected, written]
    · simp [writtenItems_eq_map]
    · simp [accepted, acceptedItems_eq_all, hr]
  have hl : one.length = (writtenItems lossy front).length := by
    rw [length_of_encodeItems lossy hone, writtenItems_eq_map, length_map]
  rw [forall_mem_append, ← writtenItems_eq_iff lossy hone, ← writtenItems_eq_iff lossy htwo,
    ← around_eq_iff (written lossy rejected) hl, ← Json.array.injEq, ← hw]
  unfold ListUnchanged
  rw [hone, htwo]
  simp

theorem dictUnchanged_iff {front back : List (String × PyVal)} {key : String} {rejected : PyVal}
    (ha : acceptedEntries (front ++ back) = true) (hr : accepted rejected = false) :
    DictUnchanged lossy front back key rejected ↔
      ∀ entry ∈ front ++ back, Same lossy entry.2 := by
  rw [acceptedEntries_eq_all, all_append, Bool.and_eq_true, ← acceptedEntries_eq_all,
    ← acceptedEntries_eq_all, ← isSome_encodeEntries lossy front, ← isSome_encodeEntries lossy back,
    isSome_iff_exists, isSome_iff_exists] at ha
  obtain ⟨⟨one, hone⟩, two, htwo⟩ := ha
  have hw : dictToJson lossy (.dict (front ++ (key, rejected) :: back)) =
      .object (writtenEntries lossy front ++ (key, written lossy rejected) ::
        writtenEntries lossy back) := by
    rw [dictToJson_of_rejected, written]
    · simp [writtenEntries_eq_map]
    · simp [accepted, acceptedEntries_eq_all, hr]
  have hl : one.length = (writtenEntries lossy front).length := by
    rw [length_of_encodeEntries lossy hone, writtenEntries_eq_map, length_map]
  rw [forall_mem_append, ← writtenEntries_eq_iff lossy hone,
    ← writtenEntries_eq_iff lossy htwo, ← around_eq_iff (key, written lossy rejected) hl,
    ← Json.object.injEq, ← hw]
  unfold DictUnchanged
  rw [hone, htwo]
  simp

/-- A payload and all that is in it are written alike by both encoders exactly if its
objects are; an element that orjson rejects changes none of the others exactly if these are
written alike. -/
theorem encoders_agree_iff (payload : PyVal) :
    (SameThroughout lossy payload ↔ Alike lossy payload) ∧
      (∀ front back rejected, acceptedItems (front ++ back) = true → accepted rejected = false →
        (ListUnchanged lossy front back rejected ↔ ∀ item ∈ front ++ back, Same lossy item)) ∧
      ∀ front back key rejected, acceptedEntries (front ++ back) = true →
        accepted rejected = false →
        (DictUnchanged lossy front back key rejected ↔
          ∀ entry ∈ front ++ back, Same lossy entry.2) :=
  ⟨sameThroughout_iff lossy payload, fun _ _ _ => listUnchanged_iff lossy,
    fun _ _ _ _ => dictUnchanged_iff lossy⟩

end Encoders

def oneAndAHalf : DecimalView where
  isFinite := true
  isIntegral := false
  int64 := some 1
  text := some "1.5"
  float := some (.finite "1.5")

theorem string_unchanged_beside_decimal :
    DictUnchanged (fun _ => "") [("name", .str "ada")] [] "price" (.decimal oneAndAHalf) := by
  refine ((encoders_agree_iff (fun _ => "") .none).2.2 [("name", .str "ada")] [] "price"
    (.decimal oneAndAHalf) rfl rfl).2 ?_
  intro entry he json hj
  cases mem_singleton.1 he
  exact Option.some.inj hj

def red : PyVal :=
  .enumMember
    { cls := "Color"
      decimal := ⟨false, false, none, none, none⟩
      i64 := none
      f64 := none
      isoformat := none
      totalSeconds := none
      text := "Color.RED" }
    (.int 1)
    [("_name_", .str "RED"), ("__objclass__", .shown "<enum 'Color'>"), ("_sort_order_", .int 0)]

theorem enum_changes_beside_decimal :
    dictToJson (fun _ => "") (.dict [("color", red)]) = .object [("color", .number "1")] ∧
      dictToJson (fun _ => "") (.dict [("color", red), ("price", .decimal oneAndAHalf)]) =
        .object
          [("color", .object [("_value_", .number "1"), ("_name_", .string "RED"),
              ("__objclass__", .string "<enum 'Color'>"), ("_sort_order_", .number "0")]),
            ("price", .number "1.5")] :=
  ⟨rfl, rfl⟩

end FastapiTurbo.JsonWriters
