import FastapiTurbo.Coercion
import FastapiTurbo.Lib.Grouped
import FastapiTurbo.Lib.Utf8

/-! The parser of `multipart/form-data` bodies (`multipart.rs`).  A position in the body is
the rest of the body from there on, a text the list of its characters. -/
namespace FastapiTurbo.Multipart

open Lib List
open Coercion (trim)

abbrev Text := List Char

abbrev Bytes := List UInt8

structure ParsedField where
  name : Text
  filename : Option Text
  contentType : Option Text
  data : Bytes
  headers : List (Text × Text)
  deriving DecidableEq

def crlf : Bytes := [13, 10]

/-- `memmem::find` of the crate `memchr`, which gives the index of the first occurrence. -/
class Memmem where
  find (hay needle : Bytes) : Option Nat
  find_eq : ∀ hay needle, find hay needle = (cutAt needle hay).map fun cut => cut.1.length

variable {line rest : Bytes}

theorem cutAt_crlf_shorter {buf : Bytes} (hcut : cutAt crlf buf = some (line, rest)) :
    rest.length < buf.length := by
  obtain ⟨rfl, -⟩ := cutAt_eq_some_iff.1 hcut
  simp only [crlf, length_append, length_cons]
  omega

def splitCrlf (buf : Bytes) : List Bytes :=
  match _hcut : cutAt crlf buf with
  | some (line, rest) => line :: splitCrlf rest
  | none => if buf.isEmpty then [] else [buf]
termination_by buf.length
decreasing_by exact cutAt_crlf_shorter _hcut

def paramValue : Text → Option Text
  | '"' :: rest => (cutAt ['"'] rest).map Prod.fst
  | rest => some (trim (rest.takeWhile (· ≠ ';')))

/-- `key="value"` or `key=value` in a header value, at the first `key=` in any case. -/
def extractQuotedParam (hval key : Text) : Option Text :=
  let needle := key ++ ['=']
  match cutAt needle (hval.map Char.toLower) with
  | none => none
  | some (before, _) => paramValue (hval.drop (before.length + needle.length))

structure PartHeaders where
  name : Text := []
  filename : Option Text := none
  contentType : Option Text := none
  headers : List (Text × Text) := []

def readHeader (read : PartHeaders) (line : Bytes) : PartHeaders :=
  let lineS := (decodeUtf8 line).getD []
  match cutAt [':'] lineS with
  | none => read
  | some (before, after) =>
    let hname := trim before
    let hval := trim after
    let lower := hname.map Char.toLower
    let headers := read.headers ++ [(hname, hval)]
    if lower = "content-disposition".toList then
      { read with
        name := (extractQuotedParam hval "name".toList).getD []
        filename := extractQuotedParam hval "filename".toList
        headers := headers }
    else if lower = "content-type".toList then
      { read with contentType := some hval, headers := headers }
    else { read with headers := headers }

def PartHeaders.field (read : PartHeaders) (data : Bytes) : ParsedField :=
  ⟨read.name, read.filename, read.contentType, data, read.headers⟩

structure Seen where
  fields : Nat
  files : Nat

def maxFields : Nat := 1000

def maxFiles : Nat := 1000

def Seen.count (seen : Seen) : Option Text → Except String Seen
  | some _ =>
    if maxFiles < seen.files + 1 then
      .error "Too many files. Maximum number of files is 1000."
    else .ok { seen with files := seen.files + 1 }
  | none =>
    if maxFields < seen.fields + 1 then
      .error "Too many fields. Maximum number of fields is 1000."
    else .ok { seen with fields := seen.fields + 1 }

abbrev Fields := Dict Text (List ParsedField)

def Fields.push : Fields → ParsedField → Fields :=
  Dict.pushUnder ParsedField.name

variable {delimiter after : Bytes} {seen seen' : Seen} {field : ParsedField} {result : Fields}

section Parser

variable [Memmem]

/-- `find_bytes`, with the bytes before the first `needle` and those behind it for its
index.  `hay` is the slice from `from` on. -/
def findBytes (hay needle : Bytes) : Option (Bytes × Bytes) :=
  if needle.isEmpty || hay.isEmpty then none
  else (Memmem.find hay needle).map fun index =>
    (hay.take index, hay.drop (index + needle.length))

theorem findBytes_eq_some_iff {hay needle front back : Bytes} :
    findBytes hay needle = some (front, back) ↔ needle ≠ [] ∧
      cutAt needle hay = some (front, back) := by
  have hcut : (Memmem.find hay needle).map (fun index =>
      (hay.take index, hay.drop (index + needle.length))) = cutAt needle hay := by
    rw [Memmem.find_eq]
    cases hc : cutAt needle hay with
    | none => rfl
    | some cut =>
      obtain ⟨rfl, -⟩ := cutAt_eq_some_iff.1 hc
      simp [← drop_drop]
  rw [findBytes, hcut]
  cases needle with
  | nil => simp
  | cons first rest =>
    cases hay with
    | nil => simp [cutAt]
    | cons byte others => simp

/-- One turn of the loop, from behind a `--boundary`: `none` at the end marker, else the
field, the counters and what is behind the next `--boundary`. -/
def parsePart (db : Bytes) (seen : Seen) (rest : Bytes) :
    Except String (Option (ParsedField × Seen × Bytes)) :=
  if rest.length < 2 then .error "truncated multipart body"
  else if rest.take 2 = [45, 45] then .ok none
  else
    let p := rest.dropWhile fun byte => byte == 32 || byte == 9
    if p.take 2 ≠ crlf then .error "expected CRLF after boundary"
    else
      match findBytes (p.drop 2) (crlf ++ crlf) with
      | none => .error "missing header terminator"
      | some (headerBlock, bodyStart) =>
        let read := (splitCrlf headerBlock).foldl readHeader {}
        match seen.count read.filename with
        | .error text => .error text
        | .ok seen =>
          match findBytes bodyStart (crlf ++ db) with
          | none => .error "missing closing boundary for field"
          | some (data, after) => .ok (some (read.field data, seen, after))

private theorem eq_of_findBytes {haystack needle front back : Bytes}
    (hf : findBytes haystack needle = some (front, back)) :
    haystack = front ++ (needle ++ back) ∧ Clear needle front needle := by
  obtain ⟨hhay, hc⟩ := cutAt_eq_some_iff.1 (findBytes_eq_some_iff.1 hf).2
  exact ⟨hhay, clear_needle_append.1 hc⟩

theorem parsePart_eq_some (hp : parsePart delimiter seen rest = .ok (some (field, seen', after))) :
    ∃ headerBlock,
      (splitCrlf headerBlock).foldl readHeader {} = ⟨field.name, field.filename,
        field.contentType, field.headers⟩ ∧
      seen.count field.filename = .ok seen' ∧
      Clear (crlf ++ delimiter) field.data (crlf ++ delimiter) ∧
      after.length < rest.length := by
  unfold parsePart at hp
  split at hp
  · cases hp
  · split at hp
    · cases hp
    · dsimp only at hp
      split at hp
      · cases hp
      · split at hp
        · cases hp
        · rename_i headerBlock bodyStart hh
          split at hp
          · cases hp
          · rename_i counted hc
            split at hp
            · cases hp
            · rename_i data behind hd
              cases hp
              obtain ⟨hheaderEnd, -⟩ := eq_of_findBytes hh
              obtain ⟨hb, hclear⟩ := eq_of_findBytes hd
              refine ⟨headerBlock, rfl, hc, hclear, ?_⟩
              have hle := (rest.dropWhile_suffix fun byte => byte == 32 || byte == 9).length_le
              have hl := congrArg List.length hheaderEnd
              simp only [hb, length_append, length_drop, crlf, length_cons]
                at hl
              omega

theorem parsePart_shorter (hp : parsePart delimiter seen rest = .ok (some (field, seen', after))) :
    after.length < rest.length := by
  obtain ⟨_, _, _, _, hs⟩ := parsePart_eq_some hp
  exact hs

def parseParts (db : Bytes) (result : Fields) (seen : Seen) (rest : Bytes) :
    Except String Fields :=
  match _hpart : parsePart db seen rest with
  | .error text => .error text
  | .ok none => .ok result
  | .ok (some (field, seen, after)) => parseParts db (result.push field) seen after
termination_by rest.length
decreasing_by exact parsePart_shorter _hpart

theorem parseParts_of_error {text : String} (hp : parsePart delimiter seen rest = .error text) :
    parseParts delimiter result seen rest = .error text := by
  rw [parseParts]
  split <;> rename_i hf <;> rw [hp] at hf <;> cases hf
  rfl

theorem parseParts_of_field
    (hp : parsePart delimiter seen rest = .ok (some (field, seen', after))) :
    parseParts delimiter result seen rest =
      parseParts delimiter (result.push field) seen' after := by
  rw [parseParts]
  split <;> rename_i hf <;> rw [hp] at hf <;> cases hf
  rfl

def parseMultipartSync (body : Bytes) (boundary : Text) : Except String Fields :=
  let db := utf8 ("--".toList ++ boundary)
  match findBytes body db with
  | none => .error "boundary not found"
  | some (_, rest) => parseParts db [] ⟨0, 0⟩ rest

end Parser

theorem not_infix_of_mem_splitCrlf (buf : Bytes) : ∀ line ∈ splitCrlf buf, ¬crlf <:+: line := by
  induction hb : buf.length using Nat.strongRecOn generalizing buf with
  | ind bound ih =>
    rw [splitCrlf]
    split
    · rename_i first rest hcut
      intro line hl
      rcases mem_cons.1 hl with rfl | hr
      · obtain ⟨-, hc⟩ := cutAt_eq_some_iff.1 hcut
        exact (clear_iff_not_within (by decide)).1 hc
      · exact ih rest.length (hb ▸ cutAt_crlf_shorter hcut) rest rfl line hr
    · rename_i hcut
      split
      · simp
      · intro line hl
        rw [mem_singleton.1 hl]
        exact cutAt_eq_none_iff.1 hcut

/-- A content type as it can come out of a header line. -/
def HeaderText (text : Text) : Prop :=
  trim text = text ∧ ¬['\r', '\n'] <:+: text

instance HeaderText.decidable (text : Text) : Decidable (HeaderText text) :=
  inferInstanceAs (Decidable (_ ∧ _))

theorem utf8_crlf : utf8 ['\r', '\n'] = crlf := by
  decide

private theorem headerText_of_line (hl : ¬crlf <:+: line) {before after : Text}
    (hcut : cutAt [':'] ((decodeUtf8 line).getD []) = some (before, after)) :
    HeaderText (trim after) := by
  refine ⟨Coercion.trim_trim after, ?_⟩
  intro hw
  cases hd : decodeUtf8 line with
  | none =>
    rw [hd] at hcut
    cases hcut
  | some lineS =>
    rw [hd, Option.getD_some] at hcut
    obtain ⟨hlineS, -⟩ := cutAt_eq_some_iff.1 hcut
    have ha : after <:+: lineS := ⟨before ++ [':'], [], by simp [hlineS]⟩
    have hw := (hw.trans (Coercion.trim_infix after)).trans ha
    rw [← infix_utf8_iff (by simp), utf8_crlf, utf8_of_decodeUtf8 hd] at hw
    exact hl hw

private theorem headerText_readHeader {read : PartHeaders} (hl : ¬crlf <:+: line)
    (hr : ∀ text ∈ read.contentType, HeaderText text) :
    ∀ text ∈ (readHeader read line).contentType, HeaderText text := by
  intro text ht
  unfold readHeader at ht
  dsimp only at ht
  split at ht
  · exact hr text ht
  · rename_i before after hcut
    split at ht
    · exact hr text ht
    · split at ht
      · cases ht
        exact headerText_of_line hl hcut
      · exact hr text ht

theorem headerText_foldl_readHeader {lines : List Bytes} (read : PartHeaders)
    (hl : ∀ line ∈ lines, ¬crlf <:+: line) (hr : ∀ text ∈ read.contentType, HeaderText text) :
    ∀ text ∈ (lines.foldl readHeader read).contentType, HeaderText text := by
  induction lines generalizing read with
  | nil => exact hr
  | cons line rest ih =>
    rw [forall_mem_cons] at hl
    exact ih _ hl.2 (headerText_readHeader hl.1 hr)

/-- What holds of every field that the parser gives, whatever the body. -/
structure WellRead (db : Bytes) (field : ParsedField) : Prop where
  contentType : ∀ text ∈ field.contentType, HeaderText text
  data : Clear (crlf ++ db) field.data (crlf ++ db)

variable [Memmem]

theorem wellRead_of_parsePart
    (hp : parsePart delimiter seen rest = .ok (some (field, seen', after))) :
    WellRead delimiter field := by
  obtain ⟨hb, hh, -, hc, -⟩ := parsePart_eq_some hp
  refine ⟨?_, hc⟩
  have ht := headerText_foldl_readHeader {} (not_infix_of_mem_splitCrlf hb) (by simp)
  rwa [hh] at ht

theorem parseParts_eq_ok {r' : Fields} (hp : parseParts delimiter result seen rest = .ok r') :
    ∃ fields : List ParsedField, r' = fields.foldl Fields.push result ∧
      ∀ field ∈ fields, WellRead delimiter field := by
  induction hb : rest.length using Nat.strongRecOn generalizing rest result seen with
  | ind bound ih =>
    rw [parseParts] at hp
    split at hp
    · cases hp
    · cases hp
      exact ⟨[], rfl, by simp⟩
    · rename_i field seen' after hpart
      obtain ⟨fields, hf, hr⟩ :=
        ih after.length (hb ▸ parsePart_shorter hpart) hp rfl
      refine ⟨field :: fields, hf, ?_⟩
      rw [forall_mem_cons]
      exact ⟨wellRead_of_parsePart hpart, hr⟩

theorem parseMultipartSync_eq_ok {body : Bytes} {boundary : Text}
    (hp : parseMultipartSync body boundary = .ok result) :
    ∃ fields : List ParsedField, result = fields.foldl Fields.push [] ∧
      ∀ field ∈ fields, WellRead (utf8 ("--".toList ++ boundary)) field := by
  unfold parseMultipartSync at hp
  dsimp only at hp
  split at hp
  · cases hp
  · exact parseParts_eq_ok hp

end FastapiTurbo.Multipart
