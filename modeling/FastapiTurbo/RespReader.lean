import Mathlib.Data.List.Infix
import FastapiTurbo.Lib.Codec
import FastapiTurbo.Lib.Lists
import FastapiTurbo.Lib.Utf8
import FastapiTurbo.Py

/-! The RESP2 reader of `contrib_redis.py` (`_PyReader`), fed with the bytes of replies in
any chunks, and the commands that the multiplexer writes. -/
namespace FastapiTurbo.RespReader

open Lib List Py

section Reader

inductive Reply where
  | bytes (content : List UInt8)
  | int (number : Int)
  /-- `RedisMuxError` -/
  | error (text : List Char)
  | none
  | list (items : List Reply)

inductive Failure where
  | unicodeDecode
  | value
  | connection (kind : UInt8)
  | recursion
  /-- A bulk string of a length below -1, which no server sends; its slices are left out. -/
  | length

inductive Parsed (α : Type) where
  | incomplete
  | value (value : α) (consumed : Nat)
  | raised (failure : Failure)

def crlf : List UInt8 := [13, 10]

def splitCrlf : List UInt8 → Option (List UInt8 × List UInt8)
  | [] => none
  | byte :: rest =>
    if byte = 13 ∧ rest.head? = some 10 then some ([], rest.tail)
    else (splitCrlf rest).map fun parts => (byte :: parts.1, parts.2)

def isSpace (char : Char) : Bool :=
  char = ' ' || ('\t'.toNat ≤ char.toNat && char.toNat ≤ '\r'.toNat)

def digitsOf (text : List Char) : Option Nat :=
  if (text.splitOn '_').all fun group => group ≠ [] && group.all Char.isDigit then
    Codec.decimal.decode (text.filter (· ≠ '_'))
  else none

def pyInt (line : List UInt8) : Option Int :=
  let text := line.map fun byte => Char.ofNat byte.toNat
  let text := ((text.dropWhile isSpace).reverse.dropWhile isSpace).reverse
  match text with
  | '-' :: digits => (digitsOf digits).map fun (number : Nat) => -(number : Int)
  | '+' :: digits => (digitsOf digits).map fun (number : Nat) => (number : Int)
  | digits => (digitsOf digits).map fun (number : Nat) => (number : Int)

def parseItems (parse : List UInt8 → Parsed Reply) : Nat → List UInt8 → Parsed (List Reply)
  | 0, _ => .value [] 0
  | count + 1, buf =>
    match parse buf with
    | .incomplete => .incomplete
    | .raised failure => .raised failure
    | .value item consumed =>
      match parseItems parse count (buf.drop consumed) with
      | .incomplete => .incomplete
      | .raised failure => .raised failure
      | .value items more => .value (item :: items) (consumed + more)

def parseBulk (headEnd : Nat) (length : Int) (rest : List UInt8) : Parsed Reply :=
  if length < 0 then .raised .length
  else if rest.length < length.toNat + 2 then .incomplete
  else .value (.bytes (rest.take length.toNat)) (headEnd + length.toNat + 2)

def parseArray (parse : List UInt8 → Parsed Reply) (headEnd : Nat) (count : Int)
    (rest : List UInt8) : Parsed Reply :=
  match parseItems parse count.toNat rest with
  | .incomplete => .incomplete
  | .raised failure => .raised failure
  | .value items used => .value (.list items) (headEnd + used)

def parseLine (parse : List UInt8 → Parsed Reply) (head rest : List UInt8) : Parsed Reply :=
  let headEnd := head.length + 2
  match head with
  | [] => .raised (.connection 13)
  | kind :: line =>
    if kind = 43 then .value (.bytes line) headEnd
    else if kind = 58 then
      match pyInt line with
      | some number => .value (.int number) headEnd
      | none => .raised .value
    else if kind = 45 then
      match decodeUtf8 line with
      | some text => .value (.error text) headEnd
      | none => .raised .unicodeDecode
    else if kind = 36 then
      match pyInt line with
      | some number => if number = -1 then .value .none headEnd else parseBulk headEnd number rest
      | none => .raised .value
    else if kind = 42 then
      match pyInt line with
      | some number =>
        if number = -1 then .value .none headEnd else parseArray parse headEnd number rest
      | none => .raised .value
    else .raised (.connection kind)

/-- `_parse`, on the buffer from the position on.  The interpreter allows so many calls of
it one inside another. -/
def parse : Nat → List UInt8 → Parsed Reply
  | 0, _ => .raised .recursion
  | frames + 1, buf =>
    match splitCrlf buf with
    | none => .incomplete
    | some (head, rest) => parseLine (parse frames) head rest

/-- The calls of `gets` after a `feed`, until one returns `False`; `none` where one
raises. -/
def drain (frames : Nat) : Nat → List UInt8 → Option (List Reply × List UInt8)
  | 0, _ => none
  | calls + 1, buf =>
    match parse frames buf with
    | .incomplete => some ([], buf)
    | .raised _ => none
    | .value reply consumed =>
      (drain frames calls (buf.drop consumed)).map fun after => (reply :: after.1, after.2)

def dataReceived (frames : Nat) (state : List Reply × List UInt8) (data : List UInt8) :
    Option (List Reply × List UInt8) :=
  let buf := state.2 ++ data
  (drain frames (buf.length + 1) buf).map fun after => (state.1 ++ after.1, after.2)

def received (frames : Nat) (chunks : List (List UInt8)) : Option (List Reply × List UInt8) :=
  chunks.foldlM (dataReceived frames) ([], [])

end Reader

section Values

structure Line where
  text : List UInt8
  no_crlf : ¬ crlf <:+: text

inductive Value where
  | simple (line : Line)
  | error (line : Line)
  | integer (number : Int64)
  | bulk (content : List UInt8)
  | nullBulk
  | nullArray
  | array (items : List Value)

def numeralText (number : Int) : List Char :=
  if number < 0 then '-' :: Codec.decimal.encode number.natAbs
  else Codec.decimal.encode number.natAbs

def numeral (number : Int) : List UInt8 :=
  (numeralText number).map fun char => UInt8.ofNat char.toNat

def headed (kind : UInt8) (line body : List UInt8) : List UInt8 :=
  kind :: line ++ crlf ++ body

def encodeBulk (content : List UInt8) : List UInt8 :=
  headed 36 (numeral content.length) (content ++ crlf)

mutual

def encode : Value → List UInt8
  | .simple line => headed 43 line.text []
  | .error line => headed 45 line.text []
  | .integer number => headed 58 (numeral number.toInt) []
  | .bulk content => encodeBulk content
  | .nullBulk => headed 36 (numeral (-1)) []
  | .nullArray => headed 42 (numeral (-1)) []
  | .array items => headed 42 (numeral items.length) (encodeAll items)

def encodeAll : List Value → List UInt8
  | [] => []
  | value :: rest => encode value ++ encodeAll rest

end

/-- The reply for a value; there is none for an error whose text is not UTF-8, and for
arrays that are nested deeper than the calls allow. -/
def Value.reply : Nat → Value → Option Reply
  | 0, _ => none
  | _ + 1, .simple line => some (.bytes line.text)
  | _ + 1, .error line => (decodeUtf8 line.text).map .error
  | _ + 1, .integer number => some (.int number.toInt)
  | _ + 1, .bulk content => some (.bytes content)
  | _ + 1, .nullBulk => some .none
  | _ + 1, .nullArray => some .none
  | frames + 1, .array items => (items.mapM (Value.reply frames)).map .list

end Values

section Numerals

theorem mem_numeralText {number : Int} {char : Char} (hmem : char ∈ numeralText number) :
    char.isDigit = true ∨ char = '-' := by
  have hd (hmem : char ∈ Codec.decimal.encode number.natAbs) : char.isDigit = true := by
    by_contra hnot
    exact Codec.not_mem_decimal (Bool.not_eq_true _ ▸ hnot) _ hmem
  unfold numeralText at hmem
  split at hmem
  · rcases mem_cons.1 hmem with hm | hr
    · exact .inr hm
    · exact .inl (hd hr)
  · exact .inl (hd hmem)

private theorem toNat_of_isDigit {char : Char} (hd : char.isDigit = true) :
    48 ≤ char.toNat ∧ char.toNat ≤ 57 := by
  simpa [Char.isDigit, UInt32.le_iff_toNat_le] using hd

theorem toNat_numeralText {number : Int} {char : Char} (hmem : char ∈ numeralText number) :
    45 ≤ char.toNat ∧ char.toNat ≤ 57 := by
  rcases mem_numeralText hmem with hd | rfl
  · have hr := toNat_of_isDigit hd
    omega
  · decide

theorem digitsOf_decimal (number : Nat) : digitsOf (Codec.decimal.encode number) = some number := by
  have hbar := @Codec.not_mem_decimal '_' rfl number
  have hd : ∀ char ∈ Codec.decimal.encode number, char.isDigit = true :=
    fun char hmem => Nat.isDigit_of_mem_toDigits (by decide) (by decide) hmem
  have hs : (Codec.decimal.encode number).splitOn '_' = [Codec.decimal.encode number] := by
    rw [← splitOn_intercalate '_' (by simpa using hbar) (cons_ne_nil _ _), intercalate_singleton]
  have hf : (Codec.decimal.encode number).filter (· ≠ '_') = Codec.decimal.encode number := by
    refine filter_eq_self.2 fun char hmem => decide_eq_true ?_
    rintro rfl
    exact hbar hmem
  have hne : Codec.decimal.encode number ≠ [] := Nat.toDigits_ne_nil
  rw [digitsOf, hs, hf]
  simpa [hne] using hd

theorem dropWhile_isSpace {text : List Char} (hn : ∀ char ∈ text, isSpace char = false) :
    text.dropWhile isSpace = text := by
  cases text with
  | nil => rfl
  | cons char rest => simp [hn char mem_cons_self]

private theorem map_numeral (number : Int) :
    (numeral number).map (fun byte => Char.ofNat byte.toNat) = numeralText number := by
  rw [numeral, map_map]
  refine (map_congr_left fun char hmem => ?_).trans (map_id _)
  have hr := toNat_numeralText hmem
  have hs : char.toNat % 256 = char.toNat := Nat.mod_eq_of_lt (by omega)
  simp [hs]

theorem pyInt_numeral (number : Int) : pyInt (numeral number) = some number := by
  have hs : ∀ char ∈ numeralText number, isSpace char = false := by
    intro char hmem
    have hr := toNat_numeralText hmem
    have hne : char ≠ ' ' := by
      rintro rfl
      exact absurd hr.1 (by decide)
    simp [isSpace, hne]
    omega
  rw [pyInt, map_numeral]
  simp only [dropWhile_isSpace hs]
  rw [dropWhile_isSpace (by simpa using hs), reverse_reverse]
  unfold numeralText
  by_cases hneg : number < 0
  · rw [if_pos hneg]
    change (digitsOf _).map (fun number : Nat => -(number : Int)) = _
    rw [digitsOf_decimal, Option.map_some, Option.some.injEq]
    omega
  · simp only [if_neg hneg]
    split
    next ds hd =>
      exact absurd (hd ▸ mem_cons_self) (@Codec.not_mem_decimal '-' rfl number.natAbs)
    next ds hd =>
      exact absurd (hd ▸ mem_cons_self) (@Codec.not_mem_decimal '+' rfl number.natAbs)
    next =>
      rw [digitsOf_decimal, Option.map_some, Option.some.injEq]
      omega

theorem no_crlf_numeral (number : Int) : ¬ crlf <:+: numeral number := by
  intro hwithin
  obtain ⟨char, hc, hb⟩ := mem_map.1 (hwithin.subset mem_cons_self)
  have hr := toNat_numeralText hc
  have hmod := congrArg UInt8.toNat hb
  rw [UInt8.toNat_ofNat'] at hmod
  have hcr : (13 : UInt8).toNat = 13 := rfl
  omega

end Numerals

section Lines

variable {buf head rest line : List UInt8}

theorem splitCrlf_cons {byte : UInt8} (hs : splitCrlf (byte :: buf) = some (head, rest)) :
    (head = [] ∧ byte = 13 ∧ buf = 10 :: rest) ∨
      ∃ tail, head = byte :: tail ∧ ¬ (byte = 13 ∧ buf.head? = some 10) ∧
        splitCrlf buf = some (tail, rest) := by
  rw [splitCrlf] at hs
  split at hs
  next hc =>
    obtain ⟨rfl, hh⟩ := hc
    obtain ⟨tail, rfl⟩ := head?_eq_some_iff.1 hh
    cases hs
    exact .inl ⟨rfl, rfl, rfl⟩
  next hc =>
    obtain ⟨⟨tail, after⟩, ht, hp⟩ := Option.map_eq_some_iff.1 hs
    cases hp
    exact .inr ⟨tail, rfl, hc, ht⟩

theorem splitCrlf_append (hs : splitCrlf buf = some (head, rest)) (more : List UInt8) :
    splitCrlf (buf ++ more) = some (head, rest ++ more) := by
  induction buf generalizing head with
  | nil => cases hs
  | cons byte buf ih =>
    rw [cons_append, splitCrlf]
    rcases splitCrlf_cons hs with ⟨rfl, rfl, rfl⟩ | ⟨tail, rfl, hc, ht⟩
    · rfl
    · have hne : buf ≠ [] := by
        rintro rfl
        cases ht
      rw [head?_append_of_ne_nil _ hne, if_neg hc, ih ht]
      rfl

theorem length_splitCrlf (hs : splitCrlf buf = some (head, rest)) :
    buf.length = head.length + 2 + rest.length := by
  induction buf generalizing head with
  | nil => cases hs
  | cons byte buf ih =>
    rcases splitCrlf_cons hs with ⟨rfl, -, rfl⟩ | ⟨tail, rfl, -, ht⟩
    · simp only [length_cons, length_nil]
      omega
    · simp only [length_cons, ih ht]
      omega

theorem splitCrlf_line (hl : ¬ crlf <:+: line) (rest : List UInt8) :
    splitCrlf (line ++ crlf ++ rest) = some (line, rest) := by
  induction line with
  | nil => rfl
  | cons byte line ih =>
    have hr := ih fun hwithin => hl (hwithin.trans (suffix_cons _ _).isInfix)
    rw [cons_append, cons_append, splitCrlf, if_neg, hr]
    · rfl
    · rintro ⟨rfl, hh⟩
      cases line with
      | nil => cases hh
      | cons next line =>
        cases hh
        exact hl ⟨[], line, rfl⟩

end Lines

section Stable

/-- More bytes change nothing about a buffer that was enough, and no more of it is taken
than there is. -/
structure Stable {α : Type} (parse : List UInt8 → Parsed α) : Prop where
  extend : ∀ buf, parse buf ≠ .incomplete → ∀ more, parse (buf ++ more) = parse buf
  within : ∀ buf value consumed, parse buf = .value value consumed → consumed ≤ buf.length

variable {parser : List UInt8 → Parsed Reply}

theorem stable_parseItems (hs : Stable parser) (count : Nat) :
    Stable (parseItems parser count) := by
  induction count with
  | zero => exact ⟨fun _ _ _ => rfl, fun _ _ _ hv => by cases hv; exact Nat.zero_le _⟩
  | succ count ih =>
    constructor
    · intro buf hd more
      rw [parseItems] at hd
      rw [parseItems, parseItems]
      cases hite : parser buf with
      | incomplete => simp [hite] at hd
      | raised failure => rw [hs.extend buf (by simp [hite]), hite]
      | value item consumed =>
        rw [hs.extend buf (by simp [hite])]
        have hle := hs.within buf item consumed hite
        simp only [hite] at hd ⊢
        rw [drop_append_of_le_length hle, ih.extend]
        rintro hwithin
        simp [hwithin] at hd
    · intro buf items consumed hi
      rw [parseItems] at hi
      split at hi <;> try cases hi
      next item first hite =>
        split at hi <;> try cases hi
        next rest more hr =>
          have hf := hs.within buf item first hite
          have hm := ih.within _ rest more hr
          rw [length_drop] at hm
          omega

theorem parseBulk_extend {headEnd : Nat} {length : Int} {rest : List UInt8}
    (hd : parseBulk headEnd length rest ≠ .incomplete) (more : List UInt8) :
    parseBulk headEnd length (rest ++ more) = parseBulk headEnd length rest := by
  unfold parseBulk at hd ⊢
  by_cases hneg : length < 0
  · rw [if_pos hneg, if_pos hneg]
  · rw [if_neg hneg] at hd ⊢
    have he : ¬ rest.length < length.toNat + 2 := fun hs => hd (if_pos hs)
    have hm : ¬ (rest ++ more).length < length.toNat + 2 := by
      rw [length_append]
      omega
    rw [if_neg hm, if_neg hneg, if_neg he, take_append_of_le_length (by omega)]

theorem parseArray_extend (hs : Stable parser) {headEnd : Nat} {count : Int} {rest : List UInt8}
    (hd : parseArray parser headEnd count rest ≠ .incomplete) (more : List UInt8) :
    parseArray parser headEnd count (rest ++ more) = parseArray parser headEnd count rest := by
  unfold parseArray at hd ⊢
  rw [(stable_parseItems hs _).extend]
  intro hwithin
  simp [hwithin] at hd

theorem parseLine_extend (hs : Stable parser) {head rest : List UInt8}
    (hd : parseLine parser head rest ≠ .incomplete) (more : List UInt8) :
    parseLine parser head (rest ++ more) = parseLine parser head rest := by
  cases head with
  | nil => rfl
  | cons kind line =>
    unfold parseLine at hd ⊢
    grind [parseBulk_extend, parseArray_extend]

private theorem parseLine_within (hs : Stable parser) {head rest : List UInt8} {reply : Reply}
    {consumed : Nat} (hv : parseLine parser head rest = .value reply consumed) :
    consumed ≤ head.length + 2 + rest.length := by
  have hb {length : Int}
      (hv : parseBulk (head.length + 2) length rest = .value reply consumed) :
      consumed ≤ head.length + 2 + rest.length := by
    unfold parseBulk at hv
    grind
  have ha {count : Int}
      (hv : parseArray parser (head.length + 2) count rest = .value reply consumed) :
      consumed ≤ head.length + 2 + rest.length := by
    unfold parseArray at hv
    have hite := (stable_parseItems hs count.toNat).within rest
    grind
  unfold parseLine at hv
  grind

theorem stable_parse (frames : Nat) : Stable (parse frames) := by
  induction frames with
  | zero => exact ⟨fun _ _ _ => rfl, fun _ _ _ hv => by cases hv⟩
  | succ frames ih =>
    constructor
    · intro buf hd more
      rw [parse] at hd ⊢
      cases hs : splitCrlf buf with
      | none => simp [hs] at hd
      | some ps =>
        rw [parse, splitCrlf_append hs more, hs]
        simp only [hs] at hd
        exact parseLine_extend ih hd more
    · intro buf reply consumed hv
      rw [parse] at hv
      split at hv
      · cases hv
      next head rest hs =>
        rw [length_splitCrlf hs]
        exact parseLine_within ih hv

end Stable

section Exact

private theorem headed_append (kind : UInt8) (line body rest : List UInt8) :
    headed kind line body ++ rest = (kind :: line) ++ crlf ++ (body ++ rest) := by
  simp [headed]

theorem parse_headed {kind : UInt8} {line : List UInt8} (hk : kind ≠ 13)
    (hl : ¬ crlf <:+: line) (frames : Nat) (body rest : List UInt8) :
    parse (frames + 1) (headed kind line body ++ rest) =
      parseLine (parse frames) (kind :: line) (body ++ rest) := by
  have hh : ¬ crlf <:+: kind :: line := by
    rw [infix_cons_iff, not_or]
    refine ⟨?_, hl⟩
    rintro ⟨tail, ht⟩
    exact hk (List.cons.inj ht).1.symm
  rw [headed_append, parse, splitCrlf_line hh]

theorem length_headed (kind : UInt8) (line body : List UInt8) :
    (headed kind line body).length = line.length + 3 + body.length := by
  simp [headed, crlf]
  omega

theorem parseItems_encodeAll {parser : List UInt8 → Parsed Reply} {reply : Value → Option Reply}
    {items : List Value} {replies : List Reply}
    (hp : ∀ item ∈ items, ∀ itemReply, reply item = some itemReply → ∀ rest,
      parser (encode item ++ rest) = .value itemReply (encode item).length)
    (hr : items.mapM reply = some replies) (rest : List UInt8) :
    parseItems parser items.length (encodeAll items ++ rest) =
      .value replies (encodeAll items).length := by
  induction items generalizing replies with
  | nil =>
    cases hr
    rfl
  | cons item items ih =>
    rw [forall_mem_cons] at hp
    rw [mapM_cons] at hr
    simp only [Option.bind_eq_bind, Option.bind_eq_some_iff, Option.pure_def,
      Option.some.injEq] at hr
    obtain ⟨first, hf, others, ho, rfl⟩ := hr
    rw [encodeAll, append_assoc, length_cons, parseItems, hp.1 first hf]
    simp only [drop_left, ih hp.2 ho, length_append]

/-- The bytes of a value are parsed to its reply, whatever comes after them. -/
theorem parse_encode {frames : Nat} {v : Value} {reply : Reply} (hr : v.reply frames = some reply)
    (rest : List UInt8) : parse frames (encode v ++ rest) = .value reply (encode v).length := by
  induction frames generalizing v reply rest with
  | zero => simp [Value.reply] at hr
  | succ frames ih =>
    cases v with
    | simple line =>
      cases hr
      rw [encode, parse_headed (by decide) line.no_crlf, length_headed]
      rfl
    | error line =>
      obtain ⟨text, ht, rfl⟩ := Option.map_eq_some_iff.1 hr
      rw [encode, parse_headed (by decide) line.no_crlf, length_headed]
      simp [parseLine, ht]
    | integer number | nullBulk | nullArray =>
      cases hr
      rw [encode, parse_headed (by decide) (no_crlf_numeral _), length_headed]
      simp [parseLine, pyInt_numeral]
    | bulk content =>
      cases hr
      rw [encode, encodeBulk, parse_headed (by decide) (no_crlf_numeral _), length_headed]
      have hl : ¬ (content.length : Int) < 0 := by omega
      have he : ¬ rest.length + 1 + 1 < 2 := by omega
      simp [parseLine, pyInt_numeral, parseBulk, crlf, hl, he]
      omega
    | array items =>
      obtain ⟨replies, hreplies, rfl⟩ := Option.map_eq_some_iff.1 hr
      rw [encode, parse_headed (by decide) (no_crlf_numeral _), length_headed]
      have hite := parseItems_encodeAll (fun item _ itemReply hi => ih hi) hreplies rest
      simp [parseLine, pyInt_numeral, parseArray, hite]

theorem parseItems_raised {parser : List UInt8 → Parsed Reply} {reply : Value → Option Reply}
    {items : List Value}
    (hreply : ∀ item ∈ items, ∀ itemReply, reply item = some itemReply → ∀ rest,
      parser (encode item ++ rest) = .value itemReply (encode item).length)
    (hraised : ∀ item ∈ items, reply item = none → ∀ rest, ∃ failure,
      parser (encode item ++ rest) = .raised failure)
    (hnone : items.mapM reply = none) (rest : List UInt8) :
    ∃ failure, parseItems parser items.length (encodeAll items ++ rest) = .raised failure := by
  induction items with
  | nil => cases hnone
  | cons item items ih =>
    rw [forall_mem_cons] at hreply hraised
    rw [encodeAll, append_assoc, length_cons, parseItems]
    cases hitem : reply item with
    | none =>
      obtain ⟨failure, hparse⟩ := hraised.1 hitem (encodeAll items ++ rest)
      exact ⟨failure, by rw [hparse]⟩
    | some itemReply =>
      have hrest : items.mapM reply = none := by
        rw [mapM_cons, hitem] at hnone
        cases hitems : items.mapM reply with
        | none => rfl
        | some replies => simp [hitems] at hnone
      obtain ⟨failure, hparse⟩ := ih hreply.2 hraised.2 hrest
      refine ⟨failure, ?_⟩
      rw [hreply.1 itemReply hitem]
      simp only [drop_left, hparse]

/-- The bytes of a value without a reply make `_parse` raise. -/
theorem parse_raised {frames : Nat} {value : Value} (hnone : value.reply frames = none)
    (rest : List UInt8) : ∃ failure, parse frames (encode value ++ rest) = .raised failure := by
  induction frames generalizing value rest with
  | zero => exact ⟨.recursion, rfl⟩
  | succ frames ih =>
    cases value with
    | simple line | integer number | bulk content | nullBulk | nullArray => cases hnone
    | error line =>
      have htext := Option.map_eq_none_iff.1 hnone
      rw [encode, parse_headed (by decide) line.no_crlf]
      exact ⟨.unicodeDecode, by simp [parseLine, htext]⟩
    | array items =>
      have hitems := Option.map_eq_none_iff.1 hnone
      obtain ⟨failure, hparse⟩ := @parseItems_raised (parse frames) _ items
        (fun item _ itemReply => parse_encode) (fun item _ => ih) hitems rest
      rw [encode, parse_headed (by decide) (no_crlf_numeral _)]
      exact ⟨failure, by simp [parseLine, pyInt_numeral, parseArray, hparse]⟩

/-- Of the bytes of a value, any but all are incomplete. -/
theorem parse_incomplete {frames : Nat} {value : Value} {reply : Reply}
    (hr : value.reply frames = some reply) {buf : List UInt8} (hbuf : buf <+: encode value)
    (hshort : buf.length < (encode value).length) : parse frames buf = .incomplete := by
  obtain ⟨more, hm⟩ := hbuf
  have hs := stable_parse frames
  by_contra hd
  have hv := parse_encode hr []
  rw [append_nil, ← hm, hs.extend buf hd, hm] at hv
  have hw := hs.within buf reply _ hv
  omega

end Exact

section Feed

variable {frames : Nat}

/-- The bytes are not yet all of the next value; when there is none, there are none. -/
def Waiting (pending : List Value) (buf : List UInt8) : Prop :=
  match pending with
  | [] => buf = []
  | next :: _ => buf.length < (encode next).length

/-- The values whose bytes are in the buffer are read, and `gets` then returns `False`. -/
theorem drain_spec {values : List Value}
    (hr : ∀ value ∈ values, ∃ reply, value.reply (frames + 1) = some reply)
    {buf : List UInt8} (hbuf : buf <+: encodeAll values) :
    ∃ done pending rest replies, values = done ++ pending ∧ buf = encodeAll done ++ rest ∧
      Waiting pending rest ∧ done.mapM (Value.reply (frames + 1)) = some replies ∧
      ∀ chunks, done.length < chunks → drain (frames + 1) chunks buf = some (replies, rest) := by
  induction values generalizing buf with
  | nil =>
    obtain rfl := prefix_nil.1 hbuf
    refine ⟨[], [], [], [], rfl, rfl, rfl, rfl, fun chunks hc => ?_⟩
    obtain ⟨chunks, rfl⟩ : ∃ more, chunks = more + 1 := ⟨chunks - 1, by omega⟩
    rfl
  | cons value values ih =>
    rw [forall_mem_cons] at hr
    obtain ⟨reply, hreplies⟩ := hr.1
    by_cases hall : (encode value).length ≤ buf.length
    · obtain ⟨rest, rfl⟩ := prefix_of_prefix_length_le (prefix_append _ _) hbuf hall
      obtain ⟨done, pending, left, replies, rfl, rfl, hw, hrep, hd⟩ :=
        ih hr.2 ((prefix_append_right_inj _).1 hbuf)
      refine ⟨value :: done, pending, left, reply :: replies, rfl, by simp [encodeAll], hw,
        by simp [hreplies, hrep], fun chunks hc => ?_⟩
      obtain ⟨chunks, rfl⟩ : ∃ more, chunks = more + 1 := ⟨chunks - 1, by omega⟩
      rw [drain, parse_encode hreplies]
      simp only [drop_left]
      rw [hd chunks (by simpa using hc), Option.map_some]
    · have hf := prefix_of_prefix_length_le hbuf (prefix_append _ _) (by omega)
      refine ⟨[], value :: values, buf, [], rfl, rfl, by simpa [Waiting] using hall, rfl,
        fun chunks hc => ?_⟩
      obtain ⟨chunks, rfl⟩ : ∃ more, chunks = more + 1 := ⟨chunks - 1, by omega⟩
      rw [drain, parse_incomplete hreplies hf (by omega)]

theorem encodeAll_append (front back : List Value) :
    encodeAll (front ++ back) = encodeAll front ++ encodeAll back := by
  induction front with
  | nil => rfl
  | cons value front ih => simp [encodeAll, ih]

theorem encode_pos (value : Value) : 1 ≤ (encode value).length := by
  cases value <;> simp [encode, encodeBulk, headed]

theorem length_le_encodeAll (values : List Value) : values.length ≤ (encodeAll values).length := by
  induction values with
  | nil => exact le_rfl
  | cons value values ih =>
    have hpos := encode_pos value
    simp only [encodeAll, length_cons, length_append]
    omega

/-- What the reader has made of the bytes so far: the replies of the values that are
complete, and in the buffer what there is of the next one. -/
structure ReadSoFar (frames : Nat) (values : List Value) (bytes : List UInt8)
    (state : List Reply × List UInt8) (done pending : List Value) : Prop where
  split : values = done ++ pending
  bytes_eq : bytes = encodeAll done ++ state.2
  waiting : Waiting pending state.2
  replies : done.mapM (Value.reply frames) = some state.1

/-- However the bytes are cut into chunks, after each the values that are complete have
been returned, and no byte is lost. -/
def ReadsBack (frames : Nat) (values : List Value) : Prop :=
  ∀ chunks, chunks.flatten <+: encodeAll values → ∃ state done pending,
    received frames chunks = some state ∧
      ReadSoFar frames values chunks.flatten state done pending

private theorem mapM_append_some {done more : List Value} {replies others : List Reply}
    (hd : done.mapM (Value.reply frames) = some replies)
    (hm : more.mapM (Value.reply frames) = some others) :
    (done ++ more).mapM (Value.reply frames) = some (replies ++ others) := by
  simp [hd, hm]

/-- A `feed` with the calls of `gets` after it. -/
theorem dataReceived_spec {values : List Value}
    (hr : ∀ value ∈ values, ∃ reply, value.reply (frames + 1) = some reply)
    {bytes data : List UInt8} {state : List Reply × List UInt8} {done pending : List Value}
    (hreplies : ReadSoFar (frames + 1) values bytes state done pending)
    (hd : bytes ++ data <+: encodeAll values) :
    ∃ next done' pending', dataReceived (frames + 1) state data = some next ∧
      ReadSoFar (frames + 1) values (bytes ++ data) next done' pending' := by
  obtain ⟨rfl, rfl, -, hrep⟩ := hreplies
  rw [append_assoc, encodeAll_append, prefix_append_right_inj] at hd
  obtain ⟨more, pending', rest, others, rfl, hbuf, hw, ho, hdrained⟩ :=
    drain_spec (fun value hmem => hr value (mem_append_right _ hmem)) hd
  have hc : more.length < (state.2 ++ data).length + 1 := by
    have hle := length_le_encodeAll more
    rw [hbuf, length_append]
    omega
  refine ⟨(state.1 ++ others, rest), done ++ more, pending', ?_, by simp, ?_, hw,
    mapM_append_some hrep ho⟩
  · rw [dataReceived]
    simp only [hdrained _ hc, Option.map_some]
  · rw [append_assoc, hbuf, encodeAll_append, append_assoc]

theorem readsBack {values : List Value}
    (hreplies : ∀ value ∈ values, ∃ reply, value.reply (frames + 1) = some reply) :
    ReadsBack (frames + 1) values := by
  intro chunks
  induction chunks using List.reverseRecOn with
  | nil =>
    refine fun _ => ⟨([], []), [], values, rfl, rfl, rfl, ?_, rfl⟩
    cases values with
    | nil => rfl
    | cons next values => exact encode_pos next
  | append_singleton chunks chunk ih =>
    intro hc
    rw [flatten_append, flatten_singleton] at hc ⊢
    obtain ⟨state, done, pending, hs, hr⟩ := ih ((prefix_append _ _).trans hc)
    obtain ⟨next, done', pending', hn, hr'⟩ := dataReceived_spec hreplies hr hc
    refine ⟨next, done', pending', ?_, hr'⟩
    rw [received, foldlM_append, ← received, hs]
    simp [hn]

/-- Once all bytes are there, all values have been returned. -/
theorem received_all {values : List Value} (hr : ReadsBack frames values)
    {chunks : List (List UInt8)} (hall : chunks.flatten = encodeAll values) :
    ∃ replies, received frames chunks = some (replies, []) ∧
      values.mapM (Value.reply frames) = some replies := by
  obtain ⟨⟨replies, buf⟩, done, pending, hreplies, hs, hb, hw, hrep⟩ :=
    hr chunks (by rw [hall])
  rw [hall, hs, encodeAll_append, append_cancel_left_eq] at hb
  cases pending with
  | nil =>
    obtain rfl : buf = [] := hb.symm
    rw [hs, append_nil]
    exact ⟨replies, hreplies, hrep⟩
  | cons next pending =>
    rw [Waiting, ← hb, encodeAll, length_append] at hw
    omega

/-- A value without a reply makes `gets` raise, once its bytes are there. -/
theorem received_raises {frames : Nat} {values : List Value} {value : Value}
    (hmem : value ∈ values) (hnone : value.reply frames = none) :
    received frames [encodeAll values] = none := by
  have hdrain : ∀ calls, drain frames calls (encodeAll values) = none := by
    induction values with
    | nil => cases hmem
    | cons first values ih =>
      intro calls
      cases calls with
      | zero => rfl
      | succ calls =>
        rw [encodeAll, drain]
        cases hfirst : first.reply frames with
        | none =>
          obtain ⟨failure, hparse⟩ := parse_raised hfirst (encodeAll values)
          rw [hparse]
        | some reply =>
          have hrest : value ∈ values := by
            rcases mem_cons.1 hmem with rfl | hrest
            · rw [hnone] at hfirst
              cases hfirst
            · exact hrest
          rw [parse_encode hfirst]
          simp only [drop_left, ih hrest, Option.map_none]
  simp [received, dataReceived, hdrain]

/-- The values are read back from any chunks exactly if each has a reply. -/
theorem values_read_back_iff (frames : Nat) (values : List Value) :
    ReadsBack (frames + 1) values ↔
      ∀ value ∈ values, ∃ reply, value.reply (frames + 1) = some reply := by
  refine ⟨fun hreads value hmem => ?_, readsBack⟩
  obtain ⟨state, _, _, hreceived, -⟩ := hreads [encodeAll values] (by simp)
  refine Option.ne_none_iff_exists'.1 fun hnone => ?_
  rw [received_raises hmem hnone] at hreceived
  cases hreceived

def latinError : Value :=
  .error ⟨[69, 82, 82, 32, 255], by decide⟩

theorem latin_error_raises :
    parse 1 (encode latinError) = .raised .unicodeDecode ∧
      received 1 [encode latinError] = none := by
  have hd : decodeUtf8 [69, 82, 82, 32, 255] = none := by decide +kernel
  have hp : parse 1 (encode latinError) = .raised .unicodeDecode := by
    rw [← append_nil (encode latinError), latinError, encode, parse_headed (by decide) (by decide)]
    simp [parseLine, hd]
  refine ⟨hp, ?_⟩
  simp [received, dataReceived, drain, hp]

end Feed

section Commands

/-- An argument.  In a `str`, a lone surrogate is `none`. -/
inductive Arg where
  | bytes (content : List UInt8)
  | str (text : List (Option Char))
  | int (number : Int)

inductive EncodingError where
  | unicodeEncode
  | value
  | type
  deriving DecidableEq

/-- `str.encode` -/
def encodeText (text : List (Option Char)) : Except EncodingError (List UInt8) :=
  match text.mapM id with
  | some chars => .ok (utf8 chars)
  | none => .error .unicodeEncode

def Arg.content : Arg → Except EncodingError (List UInt8)
  | .bytes content => .ok content
  | .str text => encodeText text
  | .int number => if isShort number then .ok (numeral number) else .error .value

def encodeCommand (args : List Arg) : Except EncodingError (List UInt8) := do
  let contents ← args.mapM Arg.content
  pure (headed 42 (numeral args.length) (contents.flatMap encodeBulk))

/-- `key.encode() if isinstance(key, str) else key`; an `int` is `none`. -/
def Arg.encoded : Arg → Except EncodingError (Option (List UInt8))
  | .bytes content => .ok (some content)
  | .str text => (encodeText text).map some
  | .int _ => .ok none

/-- The bytes whose `len` is taken. -/
def sized : Option (List UInt8) → Except EncodingError (List UInt8)
  | some content => .ok content
  | none => .error .type

inductive Command where
  | execute (args : List Arg)
  | get (key : Arg)
  | set (key value : Arg)

/-- The bytes of a command; `get` and `set` have formats of their own. -/
def Command.encoded : Command → Except EncodingError (List UInt8)
  | .execute args => encodeCommand args
  | .get key => do
    let k ← sized (← key.encoded)
    pure (utf8 "*2\r\n$3\r\nGET\r\n$".toList ++ numeral k.length ++ crlf ++ k ++ crlf)
  | .set key value => do
    let k ← key.encoded
    let v ← value.encoded
    let k ← sized k
    let v ← sized v
    pure (utf8 "*3\r\n$3\r\nSET\r\n$".toList ++ numeral k.length ++ crlf ++ k ++
      utf8 "\r\n$".toList ++ numeral v.length ++ crlf ++ v ++ crlf)

/-- The bytes that an argument stands for. -/
def Arg.byteList : Arg → List UInt8
  | .bytes content => content
  | .str text => utf8 (text.filterMap id)
  | .int number => numeral number

def Command.contents : Command → List (List UInt8)
  | .execute args => args.map Arg.byteList
  | .get key => [utf8 "GET".toList, key.byteList]
  | .set key value => [utf8 "SET".toList, key.byteList, value.byteList]

def Command.value (command : Command) : Value :=
  .array (command.contents.map .bulk)

def Command.reply (command : Command) : Reply :=
  .list (command.contents.map .bytes)

def Arg.Encodable : Arg → Prop
  | .bytes _ => True
  | .str text => none ∉ text
  | .int number => isShort number = true

def Arg.Sized : Arg → Prop
  | .bytes _ => True
  | .str text => none ∉ text
  | .int _ => False

def Command.Encodable : Command → Prop
  | .execute args => ∀ arg ∈ args, arg.Encodable
  | .get key => key.Sized
  | .set key value => key.Sized ∧ value.Sized

theorem encodeAll_bulk (contents : List (List UInt8)) :
    encodeAll (contents.map .bulk) = contents.flatMap encodeBulk := by
  induction contents with
  | nil => rfl
  | cons content rest ih => simp [encodeAll, encode, ih]

theorem encode_get (key : List UInt8) :
    encode (.array [.bulk (utf8 "GET".toList), .bulk key]) =
      utf8 "*2\r\n$3\r\nGET\r\n$".toList ++ numeral key.length ++ crlf ++ key ++ crlf := by
  have hfront : headed 42 (numeral (2 : Nat)) (encodeBulk (utf8 "GET".toList)) ++ [36] =
      utf8 "*2\r\n$3\r\nGET\r\n$".toList := by decide +kernel
  rw [← hfront]
  simp [encode, encodeAll, encodeBulk, headed]

theorem encode_set (key content : List UInt8) :
    encode (.array [.bulk (utf8 "SET".toList), .bulk key, .bulk content]) =
      utf8 "*3\r\n$3\r\nSET\r\n$".toList ++ numeral key.length ++ crlf ++ key ++
        utf8 "\r\n$".toList ++ numeral content.length ++ crlf ++ content ++ crlf := by
  have hfront : headed 42 (numeral (3 : Nat)) (encodeBulk (utf8 "SET".toList)) ++ [36] =
      utf8 "*3\r\n$3\r\nSET\r\n$".toList := by decide +kernel
  have hnext : crlf ++ [36] = utf8 "\r\n$".toList := by decide +kernel
  rw [← hfront, ← hnext]
  simp [encode, encodeAll, encodeBulk, headed]

theorem encodeText_ok_iff (text : List (Option Char)) (content : List UInt8) :
    encodeText text = .ok content ↔ none ∉ text ∧ content = utf8 (text.filterMap id) := by
  have hmap : text.mapM id = if none ∈ text then none else some (text.filterMap id) := by
    induction text with
    | nil => rfl
    | cons char rest ih =>
      rw [mapM_cons, ih]
      cases char with
      | none => simp
      | some char => by_cases hrest : none ∈ rest <;> simp [hrest]
  rw [encodeText, hmap]
  by_cases hnone : none ∈ text <;> simp [hnone, eq_comm]

theorem content_ok_iff (arg : Arg) (content : List UInt8) :
    arg.content = .ok content ↔ arg.Encodable ∧ content = arg.byteList := by
  cases arg with
  | bytes bytes => simp [Arg.content, Arg.Encodable, Arg.byteList, eq_comm]
  | str text => exact encodeText_ok_iff text content
  | int number =>
    cases hshort : isShort number <;>
      simp [Arg.content, Arg.Encodable, Arg.byteList, hshort, eq_comm]

theorem sized_ok_iff (arg : Arg) (content : List UInt8) :
    (∃ encoded, arg.encoded = .ok encoded ∧ sized encoded = .ok content) ↔
      arg.Sized ∧ content = arg.byteList := by
  cases arg with
  | bytes bytes => simp [Arg.encoded, sized, Arg.Sized, Arg.byteList, eq_comm]
  | int number => simp [Arg.encoded, sized, Arg.Sized]
  | str text =>
    rw [Arg.Sized, Arg.byteList, ← encodeText_ok_iff]
    cases htext : encodeText text <;> simp [Arg.encoded, htext, Except.map, sized]

private theorem encodeCommand_ok_iff (args : List Arg) (bytes : List UInt8) :
    encodeCommand args = .ok bytes ↔
      (∀ arg ∈ args, arg.Encodable) ∧ bytes = encode (Command.execute args).value := by
  have hcode : encode (Command.execute args).value = headed 42 (numeral args.length)
      ((args.map Arg.byteList).flatMap encodeBulk) := by
    rw [Command.value, encode, encodeAll_bulk]
    simp [Command.contents]
  rw [encodeCommand, bind_ok_iff, hcode]
  simp only [mapM_ok_iff content_ok_iff]
  constructor
  · rintro ⟨contents, ⟨hfits, rfl⟩, hbytes⟩
    cases hbytes
    exact ⟨hfits, rfl⟩
  · rintro ⟨hfits, rfl⟩
    exact ⟨_, ⟨hfits, rfl⟩, rfl⟩

theorem encoded_ok_iff (command : Command) (bytes : List UInt8) :
    command.encoded = .ok bytes ↔ command.Encodable ∧ bytes = encode command.value := by
  cases command with
  | execute args => exact encodeCommand_ok_iff args bytes
  | get key =>
    have hcode := encode_get key.byteList
    constructor
    · intro hget
      obtain ⟨encoded, hencoded, hrest⟩ := bind_ok_iff.1 hget
      obtain ⟨content, hsized, hbytes⟩ := bind_ok_iff.1 hrest
      obtain ⟨hkey, rfl⟩ := (sized_ok_iff key content).1 ⟨encoded, hencoded, hsized⟩
      cases hbytes
      exact ⟨hkey, hcode.symm⟩
    · rintro ⟨hkey, rfl⟩
      obtain ⟨encoded, hencoded, hsized⟩ := (sized_ok_iff key _).2 ⟨hkey, rfl⟩
      exact bind_ok_iff.2 ⟨encoded, hencoded, bind_ok_iff.2 ⟨_, hsized, congrArg _ hcode.symm⟩⟩
  | set key value =>
    have hcode := encode_set key.byteList value.byteList
    constructor
    · intro hset
      obtain ⟨encodedKey, hkey, hset⟩ := bind_ok_iff.1 hset
      obtain ⟨encodedValue, hvalue, hset⟩ := bind_ok_iff.1 hset
      obtain ⟨keyContent, hkeySized, hset⟩ := bind_ok_iff.1 hset
      obtain ⟨valueContent, hvalueSized, hbytes⟩ := bind_ok_iff.1 hset
      obtain ⟨hfst, rfl⟩ := (sized_ok_iff key keyContent).1 ⟨encodedKey, hkey, hkeySized⟩
      obtain ⟨hsnd, rfl⟩ := (sized_ok_iff value valueContent).1
        ⟨encodedValue, hvalue, hvalueSized⟩
      cases hbytes
      exact ⟨⟨hfst, hsnd⟩, hcode.symm⟩
    · rintro ⟨⟨hfst, hsnd⟩, rfl⟩
      obtain ⟨encodedKey, hkey, hkeySized⟩ := (sized_ok_iff key _).2 ⟨hfst, rfl⟩
      obtain ⟨encodedValue, hvalue, hvalueSized⟩ := (sized_ok_iff value _).2 ⟨hsnd, rfl⟩
      exact bind_ok_iff.2 ⟨encodedKey, hkey, bind_ok_iff.2 ⟨encodedValue, hvalue,
        bind_ok_iff.2 ⟨_, hkeySized, bind_ok_iff.2 ⟨_, hvalueSized, congrArg _ hcode.symm⟩⟩⟩⟩

private theorem mapM_bulk (frames : Nat) (contents : List (List UInt8)) :
    (contents.map Value.bulk).mapM (Value.reply (frames + 1)) = some (contents.map .bytes) := by
  induction contents with
  | nil => rfl
  | cons content rest ih => simp [Value.reply, ih]

private theorem reply_value (frames : Nat) (command : Command) :
    command.value.reply (frames + 2) = some command.reply := by
  rw [Command.value, Value.reply, mapM_bulk]
  rfl

theorem mapM_value (frames : Nat) (commands : List Command) :
    (commands.map Command.value).mapM (Value.reply (frames + 2)) =
      some (commands.map Command.reply) := by
  induction commands with
  | nil => rfl
  | cons command rest ih =>
    rw [map_cons, mapM_cons, reply_value, ih]
    rfl

/-- All commands can be written, and their bytes are read as the arrays of their arguments,
in any chunks. -/
def ReadAsWritten (frames : Nat) (commands : List Command) : Prop :=
  ∃ encodings, commands.mapM Command.encoded = .ok encodings ∧
    ∀ chunks, chunks.flatten = encodings.flatten →
      received (frames + 2) chunks = some (commands.map Command.reply, [])

private theorem encodeAll_values (commands : List Command) :
    encodeAll (commands.map Command.value) =
      (commands.map fun command => encode command.value).flatten := by
  induction commands with
  | nil => rfl
  | cons command rest ih => simp [encodeAll, ih]

/-- The commands are read as they were written exactly if each of them can be encoded. -/
theorem commands_read_back_iff (frames : Nat) (commands : List Command) :
    ReadAsWritten frames commands ↔ ∀ command ∈ commands, command.Encodable := by
  constructor
  · rintro ⟨encodings, hencodings, -⟩
    exact ((mapM_ok_iff encoded_ok_iff).1 hencodings).1
  · intro hencodable
    refine ⟨_, (mapM_ok_iff encoded_ok_iff).2 ⟨hencodable, rfl⟩, fun chunks hchunks => ?_⟩
    have hreplies := mapM_value frames commands
    have hreads := readsBack fun value hmem =>
      Option.ne_none_iff_exists'.1 (ne_none_of_mapM hreplies value hmem)
    obtain ⟨replies, hreceived, hsame⟩ :=
      received_all hreads (hchunks.trans (encodeAll_values commands).symm)
    rw [hreplies] at hsame
    rw [hreceived, Option.some.inj hsame]

/-- `set("counter", 1)` takes the `len` of an integer, `execute` cannot write an integer of
4301 digits, and a lone surrogate has no UTF-8. -/
theorem counter_not_written :
    (Command.set (.str ("counter".toList.map some)) (.int 1)).encoded = .error .type ∧
      (Command.execute [.int (Nat.pow 10 intMaxStrDigits)]).encoded = .error .value ∧
      (Command.get (.str [none])).encoded = .error .unicodeEncode ∧
      ¬ReadAsWritten 0 [.set (.str ("counter".toList.map some)) (.int 1)] := by
  have hlong : ∀ number : Int, isShort number = false →
      (Command.execute [.int number]).encoded = .error .value := by
    intro number hshort
    simp [Command.encoded, encodeCommand, Arg.content, hshort]
  refine ⟨rfl, hlong _ isShort_pow, rfl, ?_⟩
  · rintro ⟨encodings, hencodings, -⟩
    cases hencodings

end Commands

end FastapiTurbo.RespReader
