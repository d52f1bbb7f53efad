import FastapiTurbo.Lib.Coroutine

/-! Request values and the string coercions of the Rust extractors (`router.rs`). -/
namespace FastapiTurbo.Coercion

open Lib List

/-- A part of a multipart body.  `text` is its lossy UTF-8 decoding. -/
structure ParsedField where
  filename : Option String
  data : List UInt8
  text : String
  deriving DecidableEq

/-- A Python object that can stand in a list; a float is known by its bits, an
object of a validator's making by its identity. -/
inductive Atom where
  | none
  | int (value : Int)
  | float (bits : UInt64)
  | bool (value : Bool)
  | str (text : String)
  | bytes (data : List UInt8)
  | upload (field : ParsedField)
  | object (identity : Nat)
  deriving DecidableEq

inductive Value where
  | atom (atom : Atom)
  | list (items : List Atom)
  deriving DecidableEq

inductive TypeHint where
  | int
  | float
  | bool
  | str
  | bytes
  | other (name : String)
  | list (inner : TypeHint)
  deriving DecidableEq

def isWhitespace (char : Char) : Bool :=
  let code := char.toNat
  (9 ≤ code && code ≤ 13) || code == 0x20 || code == 0x85 || code == 0xA0 ||
    code == 0x1680 || (0x2000 ≤ code && code ≤ 0x200A) || code == 0x2028 ||
    code == 0x2029 || code == 0x202F || code == 0x205F || code == 0x3000

def trimStart (chars : List Char) : List Char :=
  chars.dropWhile isWhitespace

def trim (chars : List Char) : List Char :=
  (trimStart (trimStart chars).reverse).reverse

def isAsciiDigit (char : Char) : Bool :=
  '0' ≤ char && char ≤ '9'

def digitsValue (digits : List Char) : Nat :=
  digits.foldl (fun value digit => 10 * value + (digit.toNat - '0'.toNat)) 0

def inI64 (value : Int) : Option Int :=
  if Int64.minValue.toInt ≤ value ∧ value ≤ Int64.maxValue.toInt then some value else none

def parseDigits (negative : Bool) (digits : List Char) : Option Int :=
  if digits.isEmpty || !digits.all isAsciiDigit then none
  else inI64 (if negative then -(digitsValue digits : Int) else digitsValue digits)

def parseI64 : List Char → Option Int
  | '+' :: digits => parseDigits false digits
  | '-' :: digits => parseDigits true digits
  | digits => parseDigits false digits

def trueWords : List String := ["true", "t", "1", "yes", "y", "on"]
def falseWords : List String := ["false", "f", "0", "no", "n", "off"]

section Coerce

-- `str::parse::<f64>`; nothing here depends on how it rounds
variable (parseF64 : List Char → Option UInt64)

def tryCoerceStrToPy (raw : String) : TypeHint → Option Atom
  | .int => (parseI64 (trim raw.toList)).map .int
  | .float => (parseF64 (trim raw.toList)).map .float
  | .bool =>
    let lower := raw.toLower
    if trueWords.contains lower then some (.bool true)
    else if falseWords.contains lower then some (.bool false)
    else none
  | _ => some (.str raw)

def coerceStrToPy (raw : String) (hint : TypeHint) : Atom :=
  (tryCoerceStrToPy parseF64 raw hint).getD (.str raw)

end Coerce

def withoutMinus : List Char → List Char
  | '-' :: rest => rest
  | chars => chars

def fastCoercePathValue (raw : String) : TypeHint → Option Atom
  | .str => some (.str raw)
  | .int =>
    let digits := withoutMinus raw.toList
    if digits.isEmpty || !digits.all isAsciiDigit then none
    else (parseI64 raw.toList).map .int
  | _ => none

variable {char : Char}

theorem isWhitespace_of_isAsciiDigit (hd : isAsciiDigit char = true) :
    isWhitespace char = false := by
  have hlow : 48 ≤ char.toNat := by
    simp only [isAsciiDigit, Bool.and_eq_true, decide_eq_true_eq] at hd
    exact hd.1
  have hh : char.toNat ≤ 57 := by
    simp only [isAsciiDigit, Bool.and_eq_true, decide_eq_true_eq] at hd
    exact hd.2
  simp only [isWhitespace, Bool.or_eq_false_iff, Bool.and_eq_false_iff, beq_eq_false_iff_ne,
    decide_eq_false_iff_not]
  omega

private theorem trimStart_of_not_whitespace (chars : List Char)
    (hc : ∀ char ∈ chars, isWhitespace char = false) : trimStart chars = chars := by
  cases chars with
  | nil => rfl
  | cons char rest =>
    have hchar := hc char mem_cons_self
    simp [trimStart, hchar]

theorem trim_of_not_whitespace (chars : List Char)
    (hc : ∀ char ∈ chars, isWhitespace char = false) : trim chars = chars := by
  have hr : trimStart chars.reverse = chars.reverse := by
    apply trimStart_of_not_whitespace
    intro char hchar
    exact hc char (mem_reverse.1 hchar)
  rw [trim, trimStart_of_not_whitespace chars hc, hr, reverse_reverse]

variable {chars : List Char}

theorem isWhitespace_of_head?_trimStart (hh : (trimStart chars).head? = some char) :
    isWhitespace char = false := by
  have hnot := head?_dropWhile_not isWhitespace chars
  rw [trimStart] at hh
  rw [hh] at hnot
  exact hnot

theorem trimStart_of_head? (hh : ∀ char, chars.head? = some char → isWhitespace char = false) :
    trimStart chars = chars := by
  cases chars with
  | nil => rfl
  | cons char rest => simp [trimStart, hh char rfl]

theorem trim_of_ends (hh : ∀ char, chars.head? = some char → isWhitespace char = false)
    (hl : ∀ char, chars.getLast? = some char → isWhitespace char = false) : trim chars = chars := by
  have hr : trimStart chars.reverse = chars.reverse := by
    apply trimStart_of_head?
    intro char hc
    rw [head?_reverse] at hc
    exact hl char hc
  rw [trim, trimStart_of_head? hh, hr, reverse_reverse]

theorem trim_prefix_trimStart (chars : List Char) : trim chars <+: trimStart chars := by
  rw [trim, ← reverse_suffix, reverse_reverse]
  exact dropWhile_suffix _

theorem trim_infix (chars : List Char) : trim chars <:+: chars :=
  (trim_prefix_trimStart chars).isInfix.trans (dropWhile_suffix _).isInfix

@[simp] theorem trim_trim (chars : List Char) : trim (trim chars) = trim chars := by
  apply trim_of_ends
  · intro char hc
    obtain ⟨rest, hr⟩ := trim_prefix_trimStart chars
    apply isWhitespace_of_head?_trimStart
    rw [← hr, head?_append, hc, Option.some_or]
  · intro char hc
    rw [trim, getLast?_reverse] at hc
    exact isWhitespace_of_head?_trimStart hc

private theorem mem_trimStart (hmem : char ∈ chars) (hc : isWhitespace char = false) :
    char ∈ trimStart chars := by
  rw [← takeWhile_append_dropWhile (p := isWhitespace) (l := chars), mem_append] at hmem
  refine hmem.resolve_left fun hs => ?_
  rw [all_eq_true.1 all_takeWhile char hs] at hc
  cases hc

theorem mem_trim (hmem : char ∈ chars) (hc : isWhitespace char = false) : char ∈ trim chars := by
  rw [trim, mem_reverse]
  exact mem_trimStart (mem_reverse.2 (mem_trimStart hmem hc)) hc

theorem trim_cons_of_isWhitespace (hc : isWhitespace char = true) (rest : List Char) :
    trim (char :: rest) = trim rest := by
  have hs : trimStart (char :: rest) = trimStart rest := dropWhile_cons_of_pos hc
  rw [trim, hs, ← trim]

private theorem isWhitespace_of_withoutMinus (hd : (withoutMinus chars).all isAsciiDigit = true) :
    ∀ char ∈ chars, isWhitespace char = false := by
  rw [all_eq_true] at hd
  intro char hc
  unfold withoutMinus at hd
  split at hd
  · rcases mem_cons.1 hc with rfl | hr
    · decide
    · exact isWhitespace_of_isAsciiDigit (hd char hr)
  · exact isWhitespace_of_isAsciiDigit (hd char hc)

theorem tryCoerceStrToPy_of_fast (parseF64 : List Char → Option UInt64) {raw : String}
    {hint : TypeHint} {atom : Atom} (hf : fastCoercePathValue raw hint = some atom) :
    tryCoerceStrToPy parseF64 raw hint = some atom := by
  cases hint with
  | str => exact hf
  | int =>
    simp only [fastCoercePathValue] at hf
    by_cases hd : (withoutMinus raw.toList).all isAsciiDigit = true
    · rw [tryCoerceStrToPy, trim_of_not_whitespace _ (isWhitespace_of_withoutMinus hd)]
      split at hf
      · simp at hf
      · exact hf
    · simp [hd] at hf
  | _ => simp [fastCoercePathValue] at hf

def splitChars (separator : Char) : List Char → List (List Char)
  | [] => [[]]
  | char :: rest =>
    let pieces := splitChars separator rest
    if char = separator then [] :: pieces
    else
      match pieces with
      | [] => [[char]]
      | piece :: others => (char :: piece) :: others

def unquote (chars : List Char) : List Char :=
  if 2 ≤ chars.length ∧ chars.head? = some '"' ∧ chars.getLast? = some '"' then
    (chars.drop 1).dropLast
  else chars

def cookiePair (name : String) (pair : List Char) : Option String :=
  let trimmed := trim pair
  let key := trimmed.takeWhile (· ≠ '=')
  match trimmed.dropWhile (· ≠ '=') with
  | [] => none
  | _ :: value =>
    if trim key = name.toList then some (String.ofList (unquote (trim value))) else none

def parseCookieValue (cookieHeader name : String) : Option String :=
  ((splitChars ';' cookieHeader.toList).filterMap (cookiePair name)).getLast?

end FastapiTurbo.Coercion
