import FastapiTurbo.Lib.Json

/-! A reader for the JSON texts of RFC 8259.  Each production of its grammar takes what it
spells off the front of a text, and refuses any other text. -/
namespace FastapiTurbo.Lib.Json

def isSpace (char : Char) : Bool :=
  char = ' ' || char = '\t' || char = '\n' || char = '\r'

def hexDigit (char : Char) : Option Nat :=
  if '0' ≤ char ∧ char ≤ '9' then some (char.toNat - '0'.toNat)
  else if 'a' ≤ char ∧ char ≤ 'f' then some (char.toNat - 'a'.toNat + 10)
  else if 'A' ≤ char ∧ char ≤ 'F' then some (char.toNat - 'A'.toNat + 10)
  else none

def hexUnit (a b c d : Char) : Option Nat :=
  match hexDigit a, hexDigit b, hexDigit c, hexDigit d with
  | some a, some b, some c, some d => some (((a * 16 + b) * 16 + c) * 16 + d)
  | _, _, _, _ => none

def shortEscape (letter : Char) : Option Char :=
  if letter = '"' ∨ letter = '\\' ∨ letter = '/' then some letter
  else if letter = 'b' then some (Char.ofNat 8)
  else if letter = 'f' then some (Char.ofNat 12)
  else if letter = 'n' then some '\n'
  else if letter = 'r' then some '\r'
  else if letter = 't' then some '\t'
  else none

def isHigh (unit : Nat) : Bool :=
  0xD800 ≤ unit && unit < 0xDC00

def isLow (unit : Nat) : Bool :=
  0xDC00 ≤ unit && unit < 0xE000

def pairChar (high low : Nat) : Char :=
  Char.ofNat (0x10000 + (high - 0xD800) * 0x400 + (low - 0xDC00))

def mustEscape (char : Char) : Bool :=
  char = '"' || char = '\\' || char.toNat < 0x20

def skipSpace (text : List Char) : List Char :=
  text.dropWhile isSpace

/-- What stands behind the first backslash of an escape.  A surrogate without its other half
spells no character. -/
def readEscape : List Char → Option (Char × List Char)
  | 'u' :: a :: b :: c :: d :: rest =>
    match hexUnit a b c d with
    | none => none
    | some unit =>
      if isHigh unit then
        match rest with
        | '\\' :: 'u' :: e :: f :: g :: h :: rest =>
          match hexUnit e f g h with
          | none => none
          | some low => if isLow low then some (pairChar unit low, rest) else none
        | _ => none
      else if isLow unit then none
      else some (Char.ofNat unit, rest)
  | letter :: rest => (shortEscape letter).map fun char => (char, rest)
  | [] => none

def readChar : List Char → Option (Char × List Char)
  | [] => none
  | char :: rest =>
    if char = '\\' then readEscape rest
    else if mustEscape char then none
    else some (char, rest)

def readChars : Nat → List Char → Option (List Char × List Char)
  | 0, _ => none
  | fuel + 1, text =>
    if text.head? = some '"' then some ([], text.tail)
    else
      match readChar text with
      | none => none
      | some (char, more) =>
        (readChars fuel more).map fun (chars, rest) => (char :: chars, rest)

def readDigits (text : List Char) : Option (List Char × List Char) :=
  if text.takeWhile Char.isDigit = [] then none
  else some (text.takeWhile Char.isDigit, text.dropWhile Char.isDigit)

def readWhole (text : List Char) : Option (List Char × List Char) :=
  match readDigits text with
  | none => none
  | some (digits, rest) =>
    if digits.head? = some '0' ∧ digits ≠ ['0'] then none else some (digits, rest)

def readFraction (text : List Char) : Option (List Char × List Char) :=
  if text.head? = some '.' then
    (readDigits text.tail).map fun (digits, rest) => ('.' :: digits, rest)
  else some ([], text)

def splitSign (text : List Char) : List Char × List Char :=
  match text with
  | char :: rest => if char = '+' ∨ char = '-' then ([char], rest) else ([], text)
  | [] => ([], [])

def readExponent (text : List Char) : Option (List Char × List Char) :=
  match text with
  | [] => some ([], [])
  | letter :: more =>
    if letter = 'e' ∨ letter = 'E' then
      (readDigits (splitSign more).2).map fun (digits, rest) =>
        (letter :: ((splitSign more).1 ++ digits), rest)
    else some ([], text)

def splitMinus (text : List Char) : List Char × List Char :=
  if text.head? = some '-' then (['-'], text.tail) else ([], text)

def readNumber (text : List Char) : Option (List Char × List Char) :=
  match readWhole (splitMinus text).2 with
  | none => none
  | some (whole, behindWhole) =>
    match readFraction behindWhole with
    | none => none
    | some (fraction, behindFraction) =>
      (readExponent behindFraction).map fun (exponent, rest) =>
        ((splitMinus text).1 ++ whole ++ fraction ++ exponent, rest)

variable {α : Type}

def readItems (item : List Char → Option (α × List Char)) (close : Char) :
    Nat → List Char → Option (List α × List Char)
  | 0, _ => none
  | fuel + 1, text =>
    match item (skipSpace text) with
    | none => none
    | some (first, behind) =>
      match skipSpace behind with
      | [] => none
      | char :: more =>
        if char = ',' then
          (readItems item close fuel more).map fun (items, rest) => (first :: items, rest)
        else if char = close then some ([first], more)
        else none

def readSequence (item : List Char → Option (α × List Char)) (close : Char) (fuel : Nat)
    (text : List Char) : Option (List α × List Char) :=
  if (skipSpace text).head? = some close then some ([], (skipSpace text).tail)
  else readItems item close fuel text

def readMember (value : List Char → Option (α × List Char)) (text : List Char) :
    Option ((String × α) × List Char) :=
  if text.head? = some '"' then
    match readChars text.length text.tail with
    | none => none
    | some (name, behind) =>
      match skipSpace behind with
      | [] => none
      | char :: more =>
        if char = ':' then
          (value (skipSpace more)).map fun (member, rest) =>
            ((String.ofList name, member), rest)
        else none
  else none

def readWord (text : List Char) : Option (Json × List Char) :=
  if "null".toList <+: text then some (.null, text.drop 4)
  else if "true".toList <+: text then some (.bool true, text.drop 4)
  else if "false".toList <+: text then some (.bool false, text.drop 5)
  else none

def readValue : Nat → List Char → Option (Json × List Char)
  | 0, _ => none
  | fuel + 1, text =>
    match text with
    | [] => none
    | char :: more =>
      if char = '"' then
        (readChars text.length more).map fun (chars, rest) =>
          (.string (String.ofList chars), rest)
      else if char = '[' then
        (readSequence (readValue fuel) ']' fuel more).map fun (items, rest) =>
          (.array items, rest)
      else if char = '{' then
        (readSequence (readMember (readValue fuel)) '}' fuel more).map fun (entries, rest) =>
          (.object entries, rest)
      else
        (readWord text).or ((readNumber text).map fun (literal, rest) =>
          (.number (String.ofList literal), rest))

def parse (text : List Char) : Option Json :=
  match readValue (text.length + 1) (skipSpace text) with
  | some (json, rest) => if skipSpace rest = [] then some json else none
  | none => none

end FastapiTurbo.Lib.Json
