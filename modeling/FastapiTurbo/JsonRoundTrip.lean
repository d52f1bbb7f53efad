import FastapiTurbo.JsonWriters
import FastapiTurbo.Lib.Codec
import FastapiTurbo.Lib.JsonCompact

/-! What `write_any_json` writes, read back: for values of `None`, booleans, integers,
strings, lists, tuples and dicts with string keys. -/
namespace FastapiTurbo.JsonRoundTrip

open Lib Lib.Json JsonWriters List Option Py

theorem hexDigit_digitChar : ∀ digit < 16, hexDigit (Nat.digitChar digit) = some digit := by
  decide

/-- `json_escape_to` escapes what must be escaped. -/
theorem escapeChar_eq_self_iff (char : Char) :
    escapeChar char = [char] ↔ mustEscape char = false := by
  unfold escapeChar
  split
  · decide
  · decide
  · decide
  · decide
  · decide
  · next hq hb _ _ _ =>
    have ho : mustEscape char = decide (char.toNat < 0x20) := by
      have hq : char ≠ '"' := hq
      have hb : char ≠ '\\' := hb
      simp [mustEscape, hq, hb]
    rw [ho]
    split
    · next hc => simp [hc]
    · next hc => simp [hc]

private theorem readChar_of_plain {char : Char} (hp : mustEscape char = false) (rest : List Char) :
    readChar (char :: rest) = some (char, rest) := by
  have hb : char ≠ '\\' := by
    rintro rfl
    cases hp
  rw [readChar, if_neg hb, hp]
  rfl

theorem readChar_escapeChar (char : Char) (rest : List Char) :
    readChar (escapeChar char ++ rest) = some (char, rest) := by
  by_cases hs : escapeChar char = [char]
  · rw [hs]
    exact readChar_of_plain ((escapeChar_eq_self_iff char).1 hs) rest
  · unfold escapeChar at hs ⊢
    split at hs
    · rfl
    · rfl
    · rfl
    · rfl
    · rfl
    · split at hs
      · next hc =>
        have hh := hexDigit_digitChar (char.toNat / 16) (by omega)
        have hlow := hexDigit_digitChar (char.toNat % 16) (by omega)
        have hu : hexUnit '0' '0' (Nat.digitChar (char.toNat / 16))
            (Nat.digitChar (char.toNat % 16)) = some char.toNat := by
          simp only [hexUnit, hh, hlow, show hexDigit '0' = some 0 from rfl]
          congr 1
          omega
        have hishigh : isHigh char.toNat = false := by
          simp only [isHigh, Bool.and_eq_false_iff, decide_eq_false_iff_not]
          omega
        have hislow : isLow char.toNat = false := by
          simp only [isLow, Bool.and_eq_false_iff, decide_eq_false_iff_not]
          omega
        simp [readChar, readEscape, hc, hu, hishigh, hislow, Char.ofNat_toNat]
      · exact absurd rfl hs

theorem escapeChar_starts (char : Char) :
    ∃ first more, escapeChar char = first :: more ∧ first ≠ '"' := by
  by_cases hs : escapeChar char = [char]
  · refine ⟨char, [], hs, ?_⟩
    rintro rfl
    cases hs
  · unfold escapeChar at hs ⊢
    split at hs
    · exact ⟨_, _, rfl, by decide⟩
    · exact ⟨_, _, rfl, by decide⟩
    · exact ⟨_, _, rfl, by decide⟩
    · exact ⟨_, _, rfl, by decide⟩
    · exact ⟨_, _, rfl, by decide⟩
    · split at hs
      · next hc => exact ⟨'\\', _, if_pos hc, by decide⟩
      · exact absurd rfl hs

theorem readChars_escaped (chars rest : List Char) {fuel : Nat} (hf : chars.length < fuel) :
    readChars fuel (chars.flatMap escapeChar ++ '"' :: rest) = some (chars, rest) := by
  induction chars generalizing fuel with
  | nil =>
    obtain ⟨fuel, rfl⟩ := Nat.exists_eq_add_one_of_ne_zero (Nat.ne_of_gt hf)
    rfl
  | cons char chars ih =>
    obtain ⟨fuel, rfl⟩ := Nat.exists_eq_add_one_of_ne_zero (Nat.ne_of_gt (Nat.zero_lt_of_lt hf))
    obtain ⟨first, more, hfirst, hq⟩ := escapeChar_starts char
    have hh : (escapeChar char ++ (chars.flatMap escapeChar ++ '"' :: rest)).head? ≠
        some '"' := by
      simpa [hfirst] using hq
    rw [List.flatMap_cons, List.append_assoc, readChars, if_neg hh, readChar_escapeChar]
    simp only [ih (Nat.lt_of_succ_lt_succ hf), map_some]

private theorem length_le_flatMap_escapeChar (chars : List Char) :
    chars.length ≤ (chars.flatMap escapeChar).length := by
  induction chars with
  | nil => simp
  | cons char chars ih =>
    obtain ⟨first, more, hf, -⟩ := escapeChar_starts char
    simp only [List.flatMap_cons, hf, List.length_append, List.length_cons]
    omega

theorem quotes_quoted : Quotes quoted := by
  intro text
  refine ⟨text.toList.flatMap escapeChar ++ ['"'], rfl, ?_⟩
  intro rest fuel hf
  have hl := length_le_flatMap_escapeChar text.toList
  rw [length_append, length_singleton] at hf
  rw [append_assoc]
  exact readChars_escaped text.toList rest (by omega)

def minus (value : Int) : List Char :=
  if value < 0 then ['-'] else []

theorem minus_cases (value : Int) : minus value = [] ∨ minus value = ['-'] := by
  unfold minus
  split
  · exact .inr rfl
  · exact .inl rfl

theorem toList_toString (value : Int) :
    (toString value).toList = minus value ++ Nat.toDigits 10 value.natAbs := by
  cases value with
  | ofNat number =>
    have hnat : ¬Int.ofNat number < 0 := Int.not_lt.2 (Int.natCast_nonneg number)
    rw [minus, if_neg hnat]
    exact Nat.toList_repr
  | negSucc number =>
    rw [show toString (Int.negSucc number) = "-" ++ (number + 1).repr from rfl,
      String.toList_append, Nat.toList_repr, minus, if_pos (by omega)]
    rfl

private theorem readable_toString (value : Int) : Readable (.number (toString value)) := by
  obtain ⟨char, body, hs, hc⟩ :=
    IsDigits.starts (minus_cases value) (isWhole_toDigits value.natAbs).1
  rw [← toList_toString] at hs
  refine .number hs hc fun rest hr => ?_
  rw [toList_toString]
  exact readNumber_whole (minus_cases value) (isWhole_toDigits _) hr

theorem readable_intJson (value : Int) : Readable (intJson value) := by
  unfold intJson
  split
  · exact readable_toString value
  · unfold intStr
    split
    · next digits hd =>
      split at hd
      · cases hd
        exact readable_toString value
      · cases hd
    · exact .string ""

mutual

/-- Built of `None`, booleans, integers, strings, lists, tuples and dicts. -/
def plain : PyVal → Bool
  | .none | .bool _ | .int _ | .str _ => true
  | .list items | .tuple items => plainItems items
  | .dict entries => plainEntries entries
  | _ => false

def plainItems : List PyVal → Bool
  | [] => true
  | item :: rest => plain item && plainItems rest

def plainEntries : List (String × PyVal) → Bool
  | [] => true
  | (_, value) :: rest => plain value && plainEntries rest

end

mutual

/-- No integer in the value has more digits than `str` writes. -/
def Short : PyVal → Prop
  | .int value => isShort value = true
  | .list items | .tuple items => ShortItems items
  | .dict entries => ShortEntries entries
  | _ => True

def ShortItems : List PyVal → Prop
  | [] => True
  | item :: rest => Short item ∧ ShortItems rest

def ShortEntries : List (String × PyVal) → Prop
  | [] => True
  | (_, value) :: rest => Short value ∧ ShortEntries rest

end

mutual

def untupled : PyVal → PyVal
  | .list items | .tuple items => .list (untupledItems items)
  | .dict entries => .dict (untupledEntries entries)
  | value => value

def untupledItems : List PyVal → List PyVal
  | [] => []
  | item :: rest => untupled item :: untupledItems rest

def untupledEntries : List (String × PyVal) → List (String × PyVal)
  | [] => []
  | (key, value) :: rest => (key, untupled value) :: untupledEntries rest

end

def intOf (literal : List Char) : Option Int :=
  (Codec.decimal.decode (splitMinus literal).2).map fun number =>
    if (splitMinus literal).1 = [] then Int.ofNat number else -Int.ofNat number

theorem intOf_toString (value : Int) : intOf (toString value).toList = some value := by
  have hs := splitMinus_append (minus_cases value) (isWhole_toDigits value.natAbs).1 []
  rw [append_nil, append_nil] at hs
  have hd : Codec.decimal.decode (Nat.toDigits 10 value.natAbs) = some value.natAbs :=
    Codec.decimal.decode_encode value.natAbs
  rw [intOf, toList_toString, hs]
  simp only [hd, map_some, Option.some.injEq]
  unfold minus
  split
  · next hneg =>
    rw [if_neg (cons_ne_nil _ _)]
    exact (Int.eq_neg_natAbs_of_nonpos (Int.le_of_lt hneg)).symm
  · next hneg =>
    rw [if_pos rfl]
    exact Int.natAbs_of_nonneg (Int.not_lt.1 hneg)

mutual

def loads : Json → Option PyVal
  | .null => some .none
  | .bool value => some (.bool value)
  | .number literal => (intOf literal.toList).map .int
  | .string text => some (.str text)
  | .array items => (loadsItems items).map .list
  | .object entries => (loadsEntries entries).map .dict

def loadsItems : List Json → Option (List PyVal)
  | [] => some []
  | item :: rest =>
    match loads item, loadsItems rest with
    | some value, some values => some (value :: values)
    | _, _ => none

def loadsEntries : List (String × Json) → Option (List (String × PyVal))
  | [] => some []
  | (key, item) :: rest =>
    match loads item, loadsEntries rest with
    | some value, some values => some ((key, value) :: values)
    | _, _ => none

end

theorem loads_number (value : Int) : loads (.number (toString value)) = some (.int value) := by
  rw [loads, intOf_toString, map_some]

theorem intJson_of_long {value : Int} (hl : isShort value = false) :
    intJson value = .string "" := by
  have hw : fitsI64 value = false := by
    refine Bool.eq_false_iff.2 fun hf => Bool.eq_false_iff.1 hl (isShort_of_lt ?_)
    simp only [fitsI64, Bool.and_eq_true, decide_eq_true_eq] at hf
    omega
  rw [intJson, intStr, hw, hl]
  rfl

theorem loads_intJson (value : Int) :
    loads (intJson value) = some (if isShort value then .int value else .str "") := by
  cases hs : isShort value with
  | true => rw [intJson, intStr, if_pos hs, ite_self, loads_number, if_pos rfl]
  | false =>
    rw [intJson_of_long hs, loads]
    rfl

section Writer

variable (lossy : List UInt8 → String)

mutual

theorem readable_written (value : PyVal) (hp : plain value = true) :
    Readable (written lossy value) := by
  cases value with
  | none => exact .null
  | bool value => exact .bool value
  | int value => exact readable_intJson value
  | str text => exact .string text
  | list items | tuple items => exact .array (readable_writtenItems items hp)
  | dict entries => exact .object (readable_writtenEntries entries hp)
  | bytes _ | set _ | decimal _ | model _ _ | plain _ _ | enumMember _ _ _ | shown _ =>
    cases hp

theorem readable_writtenItems (items : List PyVal) (hp : plainItems items = true) :
    ∀ json ∈ writtenItems lossy items, Readable json := by
  cases items with
  | nil => simp [writtenItems]
  | cons item rest =>
    rw [plainItems, Bool.and_eq_true] at hp
    rw [writtenItems, forall_mem_cons]
    exact ⟨readable_written item hp.1, readable_writtenItems rest hp.2⟩

theorem readable_writtenEntries (entries : List (String × PyVal))
    (hp : plainEntries entries = true) :
    ∀ entry ∈ writtenEntries lossy entries, Readable entry.2 := by
  match entries with
  | [] => simp [writtenEntries]
  | (key, value) :: rest =>
    rw [plainEntries, Bool.and_eq_true] at hp
    rw [writtenEntries, forall_mem_cons]
    exact ⟨readable_written value hp.1, readable_writtenEntries rest hp.2⟩

end

mutual

theorem loads_written (value : PyVal) (hp : plain value = true) :
    ∃ loaded, loads (written lossy value) = some loaded ∧
      (loaded = untupled value ↔ Short value) := by
  cases value with
  | none | bool _ | str _ => exact ⟨_, rfl, by simp [untupled, Short]⟩
  | int value =>
    refine ⟨_, loads_intJson value, ?_⟩
    change _ = PyVal.int value ↔ isShort value = true
    cases isShort value with
    | true => exact iff_of_true rfl rfl
    | false => exact iff_of_false (by simp) (by simp)
  | list items | tuple items =>
    obtain ⟨loaded, hl, hs⟩ := loads_writtenItems items hp
    refine ⟨.list loaded, by rw [written, loads, hl, map_some], ?_⟩
    rw [untupled, Short, PyVal.list.injEq, hs]
  | dict entries =>
    obtain ⟨loaded, hl, hs⟩ := loads_writtenEntries entries hp
    refine ⟨.dict loaded, by rw [written, loads, hl, map_some], ?_⟩
    rw [untupled, Short, PyVal.dict.injEq, hs]
  | bytes _ | set _ | decimal _ | model _ _ | plain _ _ | enumMember _ _ _ | shown _ =>
    cases hp

theorem loads_writtenItems (items : List PyVal) (hp : plainItems items = true) :
    ∃ loaded, loadsItems (writtenItems lossy items) = some loaded ∧
      (loaded = untupledItems items ↔ ShortItems items) := by
  cases items with
  | nil => exact ⟨[], rfl, by simp [untupledItems, ShortItems]⟩
  | cons item rest =>
    rw [plainItems, Bool.and_eq_true] at hp
    obtain ⟨first, hf, hfirstSame⟩ := loads_written item hp.1
    obtain ⟨others, ho, hothersSame⟩ := loads_writtenItems rest hp.2
    refine ⟨first :: others, by rw [writtenItems, loadsItems, hf, ho], ?_⟩
    rw [untupledItems, ShortItems, List.cons.injEq, hfirstSame, hothersSame]

theorem loads_writtenEntries (entries : List (String × PyVal))
    (hp : plainEntries entries = true) :
    ∃ loaded, loadsEntries (writtenEntries lossy entries) = some loaded ∧
      (loaded = untupledEntries entries ↔ ShortEntries entries) := by
  match entries with
  | [] => exact ⟨[], rfl, by simp [untupledEntries, ShortEntries]⟩
  | (key, value) :: rest =>
    rw [plainEntries, Bool.and_eq_true] at hp
    obtain ⟨first, hf, hfirstSame⟩ := loads_written value hp.1
    obtain ⟨others, ho, hothersSame⟩ := loads_writtenEntries rest hp.2
    refine ⟨(key, first) :: others, by rw [writtenEntries, loadsEntries, hf, ho], ?_⟩
    rw [untupledEntries, ShortEntries, List.cons.injEq, Prod.mk.injEq, hfirstSame, hothersSame]
    simp

end

/-- `write_any_json` writes a document of RFC 8259.  Reading it gives the value back, with
its tuples as arrays, exactly if no integer has more digits than `str` writes; and a
character is escaped exactly if it must be. -/
theorem write_any_json_read_back_iff (value : PyVal) (hplain : plain value = true) :
    (∃ json, parse (writeAnyJson lossy value) = some json) ∧
      ((parse (writeAnyJson lossy value)).bind loads = some (untupled value) ↔ Short value) ∧
      ∀ char, escapeChar char ≠ [char] ↔ mustEscape char = true := by
  have hp : parse (writeAnyJson lossy value) = some (written lossy value) := by
    rw [writeAnyJson_eq_render]
    exact parse_render quotes_quoted (readable_written lossy value hplain)
  refine ⟨⟨_, hp⟩, ?_, ?_⟩
  · obtain ⟨loaded, hl, hs⟩ := loads_written lossy value hplain
    rw [hp, bind_some, hl, Option.some.injEq, hs]
  · intro char
    rw [Ne, escapeChar_eq_self_iff, Bool.not_eq_false]

end Writer

theorem nested_value_read_back :
    (parse (writeAnyJson (fun _ => "")
      (.dict [("say \"hi\"\n", .tuple [.int 18446744073709551616, .none])]))).bind loads =
      some (.dict [("say \"hi\"\n", .list [.int 18446744073709551616, .none])]) :=
  (write_any_json_read_back_iff (fun _ => "")
    (.dict [("say \"hi\"\n", .tuple [.int 18446744073709551616, .none])]) rfl).2.1.2
    ⟨⟨isShort_of_lt (by decide), trivial, trivial⟩, trivial⟩

/-- `{"n": 10 ** 4300}`, whose digits `str` refuses, loses its number. -/
theorem long_integer_is_lost :
    writeAnyJson (fun _ => "") (.dict [("n", .int (Nat.pow 10 intMaxStrDigits))]) =
      "\x7b\"n\":\"\"\x7d".toList ∧
    (parse "\x7b\"n\":\"\"\x7d".toList).bind loads = some (.dict [("n", .str "")]) := by
  refine ⟨?_, rfl⟩
  simp only [writeAnyJson, writeEntries, intJson_of_long isShort_pow]
  rfl

end FastapiTurbo.JsonRoundTrip
