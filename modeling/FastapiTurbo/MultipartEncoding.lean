import FastapiTurbo.Multipart

/-! The standard encoding of a form, and what the multipart parser makes of each of its
parts. -/
namespace FastapiTurbo.Multipart

open Lib List Option
open Coercion (trim)

def Plain (text : Text) : Prop :=
  ∀ char ∈ text, char ≠ '"' ∧ char ≠ '\r' ∧ char ≠ '\n'

instance Plain.decidable (text : Text) : Decidable (Plain text) :=
  List.decidableBAll _ text

/-- A part of a form and the order of its two parameters. -/
structure Part where
  name : Text
  filename : Option Text
  contentType : Option Text
  data : Bytes
  filenameFirst : Bool
  name_plain : Plain name
  filename_plain : ∀ text ∈ filename, Plain text

structure Content where
  name : Text
  filename : Option Text
  contentType : Option Text
  data : Bytes
  deriving DecidableEq

def Part.content (part : Part) : Content :=
  ⟨part.name, part.filename, part.contentType, part.data⟩

def ParsedField.content (field : ParsedField) : Content :=
  ⟨field.name, field.filename, field.contentType, field.data⟩

def parameter (key value : Text) : Text :=
  "; ".toList ++ key ++ "=\"".toList ++ value ++ ['"']

def Part.disposition (part : Part) : Text :=
  let name := parameter "name".toList part.name
  match part.filename with
  | none => "form-data".toList ++ name
  | some filename =>
    let filename := parameter "filename".toList filename
    "form-data".toList ++ (if part.filenameFirst then filename ++ name else name ++ filename)

def Part.headerLines (part : Part) : List Text :=
  ("Content-Disposition: ".toList ++ part.disposition) ::
    (part.contentType.map ("Content-Type: ".toList ++ ·)).toList

def dashBoundary (boundary : Text) : Bytes :=
  utf8 ("--".toList ++ boundary)

def Part.encode (boundary : Text) (part : Part) : Bytes :=
  dashBoundary boundary ++ crlf ++ part.headerLines.flatMap (fun line => utf8 line ++ crlf) ++
    crlf ++ part.data ++ crlf

def encode (boundary : Text) (parts : List Part) : Bytes :=
  parts.flatMap (Part.encode boundary) ++ (dashBoundary boundary ++ utf8 "--\r\n".toList)

def behindFilename (name : Text) : Option Text :=
  (cutAt "filename=".toList (name.map Char.toLower)).map fun parts =>
    name.drop (parts.1.length + "filename=".toList.length)

/-- The parser finds the file name of a part with the name first: `filename` itself, unless
the name has a `filename=` of its own. -/
def filenameFound (name : Text) (filename : Option Text) : Option Text :=
  match behindFilename name with
  | none => filename
  | some [] => filename.map fun _ => "; filename=".toList
  | some (char :: rest) => some (trim ((char :: rest ++ ['"']).takeWhile (· ≠ ';')))

def Part.found (part : Part) : Text × Option Text :=
  match part.filename, part.filenameFirst with
  | some filename, true => (filename, some filename)
  | filename, _ => (part.name, filenameFound part.name filename)

variable {text : Text}

theorem not_mem_of_plain (hp : Plain text) : '"' ∉ text :=
  fun hmem => (hp '"' hmem).1 rfl

variable {value rest : Text}

theorem cutAt_quote (hp : Plain value) : cutAt ['"'] (value ++ '"' :: rest) = some (value, rest) :=
  cutAt_eq_some_iff.2 ⟨rfl, clear_of_not_mem (not_mem_of_plain hp)⟩

theorem paramValue_quoted (hp : Plain value) :
    paramValue ('"' :: (value ++ '"' :: rest)) = some value := by
  rw [paramValue, cutAt_quote hp]
  rfl

theorem paramValue_bare {char : Char} (hc : char ≠ '"') :
    paramValue (char :: rest) = some (trim ((char :: rest).takeWhile (· ≠ ';'))) := by
  unfold paramValue
  split
  · rename_i behind hs
    cases hs
    exact absurd rfl hc
  · rfl

variable {behind key : Text}

/-- The value is read behind the first `key=`. -/
theorem extractQuotedParam_of_clear {before needle : Text}
    (hn : needle.map Char.toLower = key ++ ['='])
    (hc : Clear (key ++ ['=']) (before.map Char.toLower) (key ++ ['='])) :
    extractQuotedParam (before ++ (needle ++ behind)) key = paramValue behind := by
  have hcut : cutAt (key ++ ['=']) ((before ++ (needle ++ behind)).map Char.toLower) =
      some (before.map Char.toLower, behind.map Char.toLower) := by
    rw [cutAt_eq_some_iff, map_append, map_append, hn]
    exact ⟨rfl, clear_needle_append.2 hc⟩
  have hl : (key ++ ['=']).length = needle.length := by
    rw [← hn, length_map]
  simp only [extractQuotedParam, hcut, hl, length_map]
  rw [← length_append, ← append_assoc, drop_left]

theorem extractQuotedParam_of_not_infix {hval : Text}
    (hw : ¬key ++ ['='] <:+: hval.map Char.toLower) : extractQuotedParam hval key = none := by
  simp only [extractQuotedParam, cutAt_eq_none_iff.2 hw]

def filenameKey : Text := "filename=".toList

theorem filenameKey_eq : filenameKey = 'f' :: ['i', 'l', 'e', 'n', 'a', 'm', 'e', '='] := rfl

variable {name : Text}

theorem behindFilename_eq_none_iff :
    behindFilename name = none ↔ ¬filenameKey <:+: name.map Char.toLower := by
  rw [behindFilename, map_eq_none_iff, cutAt_eq_none_iff]
  rfl

theorem behindFilename_eq_some (hb : behindFilename name = some behind) :
    ∃ before needle, name = before ++ (needle ++ behind) ∧
      needle.map Char.toLower = filenameKey ∧
      Clear filenameKey (before.map Char.toLower) filenameKey := by
  obtain ⟨⟨front, back⟩, hcut, rfl⟩ := map_eq_some_iff.1 hb
  obtain ⟨hn, hc⟩ := cutAt_eq_some_iff.1 hcut
  refine ⟨name.take front.length, (name.drop front.length).take filenameKey.length, ?_, ?_, ?_⟩
  · rw [← drop_drop]
    exact (congrArg _ (take_append_drop _ _)).trans (take_append_drop _ _) |>.symm
  · rw [map_take, map_drop, hn, drop_left]
    exact take_left
  · rw [map_take, hn, take_left]
    exact clear_needle_append.1 hc

/-- Before the name there is no `filename=`. -/
theorem clear_filenameKey_start (back : Text) :
    Clear filenameKey "form-data; name=\"".toList back := by
  have hs : "form-data; name=\"".toList = 'f' :: "orm-data; name=\"".toList := by simp
  rw [hs, clear_cons, filenameKey_eq]
  refine ⟨by simp, clear_of_not_mem (by simp)⟩

theorem clear_filenameKey_name (hb : behindFilename name = none) (back : Text) :
    Clear filenameKey (name.map Char.toLower) ('"' :: back) := by
  rw [behindFilename_eq_none_iff] at hb
  exact (clear_iff_not_within (by decide)).2 hb

theorem extract_filename_of_behind (hb : behindFilename name = some behind) (more : Text) :
    extractQuotedParam ("form-data; name=\"".toList ++ (name ++ more)) "filename".toList =
      paramValue (behind ++ more) := by
  obtain ⟨before, needle, rfl, hn, hc⟩ := behindFilename_eq_some hb
  have hs : "form-data; name=\"".toList ++ (before ++ (needle ++ behind) ++ more) =
      ("form-data; name=\"".toList ++ before) ++ (needle ++ (behind ++ more)) := by
    simp only [append_assoc]
  rw [hs]
  apply extractQuotedParam_of_clear hn
  rw [map_append, clear_append]
  exact ⟨clear_filenameKey_start _, hc⟩

theorem extract_filename_absent (hb : behindFilename name = none) :
    extractQuotedParam ("form-data; name=\"".toList ++ (name ++ ['"'])) "filename".toList =
      none := by
  apply extractQuotedParam_of_not_infix
  rw [← cutAt_eq_none_iff, map_append, map_append]
  have hn : cutAt filenameKey (name.map Char.toLower ++ ['"']) = none := by
    rw [cutAt_append_of_clear (clear_filenameKey_name hb [])]
    rfl
  refine (cutAt_append_of_clear (clear_filenameKey_start _)).trans ?_
  exact map_eq_none_iff.2 hn

variable {filename : Text}

theorem extract_filename_present (hb : behindFilename name = none) (hp : Plain filename) :
    extractQuotedParam ("form-data; name=\"".toList ++ (name ++ '"' ::
      ("; filename=".toList ++ '"' :: (filename ++ ['"'])))) "filename".toList = some filename := by
  have hs : "form-data; name=\"".toList ++ (name ++ '"' ::
        ("; filename=".toList ++ '"' :: (filename ++ ['"']))) =
      ("form-data; name=\"".toList ++ (name ++ "\"; ".toList)) ++
        (filenameKey ++ '"' :: (filename ++ ['"'])) := by
    rw [filenameKey_eq]
    simp
  rw [hs, extractQuotedParam_of_clear (by decide), paramValue_quoted hp]
  rw [map_append, map_append, clear_append, clear_append]
  refine ⟨clear_filenameKey_start _, clear_filenameKey_name hb _, ?_⟩
  exact clear_of_not_mem (by decide)

theorem takeWhile_append_of_not {wanted : Char → Bool} {stop : Char} (hs : wanted stop = false)
    (front back : Text) : (front ++ stop :: back).takeWhile wanted = front.takeWhile wanted := by
  induction front with
  | nil => simp [hs]
  | cons char front ih =>
    rw [cons_append, takeWhile_cons, takeWhile_cons, ih]

theorem plain_of_suffix {front : Text} (hp : Plain (front ++ text)) : Plain text :=
  fun char hmem => hp char (mem_append_right front hmem)

/-- The first `filename=` of the name ends it. -/
theorem paramValue_behind_nil : paramValue ['"'] = none := by
  decide

private theorem paramValue_behind_nil_filename (filename : Text) :
    paramValue ('"' :: ("; filename=".toList ++ '"' :: (filename ++ ['"']))) =
      some "; filename=".toList :=
  paramValue_quoted (by decide)

theorem filename_found (hn : Plain name) {filename : Option Text}
    (hf : ∀ text ∈ filename, Plain text) :
    extractQuotedParam ("form-data; name=\"".toList ++ (name ++ '"' ::
      (filename.elim [] fun text => "; filename=".toList ++ '"' :: (text ++ ['"']))))
      "filename".toList = filenameFound name filename := by
  unfold filenameFound
  split
  · rename_i hb
    cases filename with
    | none => exact extract_filename_absent hb
    | some text => exact extract_filename_present hb (hf text rfl)
  · rename_i hb
    rw [extract_filename_of_behind hb]
    cases filename with
    | none => exact paramValue_behind_nil
    | some text => exact paramValue_behind_nil_filename text
  · rename_i char rest hb
    obtain ⟨before, needle, rfl, -, -⟩ := behindFilename_eq_some hb
    rw [← append_assoc] at hn
    have hc := (plain_of_suffix hn char mem_cons_self).1
    rw [extract_filename_of_behind hb, cons_append, paramValue_bare hc]
    cases filename with
    | none => rfl
    | some text =>
      have hstop : "; filename=".toList = ';' :: " filename=".toList := by simp
      have hs : char :: (rest ++ '"' :: ("; filename=".toList ++ '"' :: (text ++ ['"']))) =
          (char :: rest ++ ['"']) ++ ';' :: (" filename=".toList ++ '"' :: (text ++ ['"'])) := by
        simp
      rw [elim_some, hs, takeWhile_append_of_not (by decide)]

variable {part : Part}

theorem disposition_name_first (ho : part.filename = none ∨ part.filenameFirst = false) :
    part.disposition = "form-data; name=\"".toList ++ (part.name ++ '"' ::
      (part.filename.elim [] fun text => "; filename=".toList ++ '"' :: (text ++ ['"']))) := by
  unfold Part.disposition parameter
  cases hf : part.filename with
  | none => simp
  | some text =>
    have hfirst : part.filenameFirst = false := by simpa [hf] using ho
    simp [hfirst]

theorem disposition_filename_first (hf : part.filename = some filename)
    (hfirst : part.filenameFirst = true) :
    part.disposition = "form-data; ".toList ++ ("filename=".toList ++ '"' ::
      (filename ++ '"' :: ("; name=\"".toList ++ (part.name ++ ['"'])))) := by
  simp [Part.disposition, parameter, hf, hfirst]

theorem found_name_first (ho : part.filename = none ∨ part.filenameFirst = false) :
    part.found = (part.name, filenameFound part.name part.filename) := by
  unfold Part.found
  split
  · rename_i filename hf hfirst
    simp [hf, hfirst] at ho
  · rfl

theorem found_filename_first (hf : part.filename = some filename)
    (hfirst : part.filenameFirst = true) : part.found = (filename, some filename) := by
  rw [Part.found, hf, hfirst]

theorem order_cases (part : Part) :
    (part.filename = none ∨ part.filenameFirst = false) ∨
      ∃ filename, part.filename = some filename ∧ part.filenameFirst = true := by
  cases hf : part.filename with
  | none => exact .inl (.inl rfl)
  | some filename =>
    cases hfirst : part.filenameFirst with
    | false => exact .inl (.inr rfl)
    | true => exact .inr ⟨filename, rfl, rfl⟩

/-- The first `name=` is that of the `filename=` where the file name comes first. -/
theorem extract_name (part : Part) :
    extractQuotedParam part.disposition "name".toList = some part.found.1 := by
  rcases order_cases part with ho | ⟨filename, hf, hfirst⟩
  · have hs : part.disposition = "form-data; ".toList ++ ("name=".toList ++ '"' ::
        (part.name ++ '"' :: (part.filename.elim [] fun text =>
          "; filename=".toList ++ '"' :: (text ++ ['"'])))) := by
      rw [disposition_name_first ho]
      simp
    rw [hs, extractQuotedParam_of_clear (by decide) (by decide),
      paramValue_quoted part.name_plain, found_name_first ho]
  · have hs : part.disposition = "form-data; file".toList ++ ("name=".toList ++ '"' ::
        (filename ++ '"' :: ("; name=\"".toList ++ (part.name ++ ['"'])))) := by
      rw [disposition_filename_first hf hfirst]
      simp
    rw [hs, extractQuotedParam_of_clear (by decide) (by decide),
      paramValue_quoted (part.filename_plain filename hf),
      found_filename_first hf hfirst]

theorem extract_filename (part : Part) :
    extractQuotedParam part.disposition "filename".toList = part.found.2 := by
  rcases order_cases part with ho | ⟨filename, hf, hfirst⟩
  · rw [disposition_name_first ho, filename_found part.name_plain part.filename_plain,
      found_name_first ho]
  · rw [disposition_filename_first hf hfirst,
      extractQuotedParam_of_clear (by decide) (by decide),
      paramValue_quoted (part.filename_plain filename hf),
      found_filename_first hf hfirst]

def Part.field (part : Part) : ParsedField where
  name := part.found.1
  filename := part.found.2
  contentType := part.contentType
  data := part.data
  headers := ("Content-Disposition".toList, part.disposition) ::
    (part.contentType.map fun text => ("Content-Type".toList, text)).toList

theorem exists_disposition_concat (part : Part) : ∃ front, part.disposition = front ++ ['"'] := by
  unfold Part.disposition parameter
  cases part.filename with
  | none => exact ⟨_, (append_assoc _ _ _).symm⟩
  | some filename =>
    cases part.filenameFirst with
    | false =>
      simp only [Bool.false_eq_true, if_false]
      rw [← append_assoc _ _ ['"'], ← append_assoc _ _ ['"']]
      exact ⟨_, rfl⟩
    | true =>
      simp only [if_true]
      rw [← append_assoc _ _ ['"'], ← append_assoc _ _ ['"']]
      exact ⟨_, rfl⟩

theorem trim_disposition (part : Part) : trim part.disposition = part.disposition := by
  apply Coercion.trim_of_ends
  · intro char hc
    rcases order_cases part with ho | ⟨filename, hf, hfirst⟩
    · rw [disposition_name_first ho] at hc
      cases hc
      decide
    · rw [disposition_filename_first hf hfirst] at hc
      cases hc
      decide
  · intro char hc
    obtain ⟨front, hfront⟩ := exists_disposition_concat part
    rw [hfront, getLast?_concat] at hc
    cases hc
    decide

theorem not_mem_disposition (part : Part) : '\r' ∉ part.disposition := by
  have hn : '\r' ∉ part.name := fun hmem => (part.name_plain _ hmem).2.1 rfl
  have hfile : ∀ filename, part.filename = some filename → '\r' ∉ filename :=
    fun filename hf hmem => (part.filename_plain filename hf _ hmem).2.1 rfl
  rcases order_cases part with ho | ⟨filename, hf, hfirst⟩
  · rw [disposition_name_first ho]
    cases hf : part.filename with
    | none => simp [hn]
    | some filename => simp [hn, hfile filename hf]
  · rw [disposition_filename_first hf hfirst]
    simp [hn, hfile filename hf]

theorem cutAt_colon (hkey : ':' ∉ key) : cutAt [':'] (key ++ ':' :: value) = some (key, value) :=
  cutAt_eq_some_iff.2 ⟨rfl, clear_of_not_mem hkey⟩

theorem readHeader_disposition (part : Part) :
    readHeader {} (utf8 ("Content-Disposition: ".toList ++ part.disposition)) =
      ⟨part.found.1, part.found.2, none,
        [("Content-Disposition".toList, part.disposition)]⟩ := by
  have hl : "Content-Disposition: ".toList ++ part.disposition =
      "Content-Disposition".toList ++ ':' :: ' ' :: part.disposition := by simp
  have hkey : trim "Content-Disposition".toList = "Content-Disposition".toList := by decide +kernel
  have hlower : "Content-Disposition".toList.map Char.toLower = "content-disposition".toList := by
    decide +kernel
  have hv : trim (' ' :: part.disposition) = part.disposition := by
    rw [Coercion.trim_cons_of_isWhitespace (by decide), trim_disposition]
  simp only [readHeader, decodeUtf8_utf8, getD_some, hl,
    cutAt_colon (show ':' ∉ "Content-Disposition".toList by decide +kernel), hkey, hlower, hv,
    if_true, extract_name, extract_filename, nil_append]

theorem readHeader_contentType (read : PartHeaders) (ht : HeaderText text) :
    readHeader read (utf8 ("Content-Type: ".toList ++ text)) =
      { read with
        contentType := some text
        headers := read.headers ++ [("Content-Type".toList, text)] } := by
  have hl : "Content-Type: ".toList ++ text =
      "Content-Type".toList ++ ':' :: ' ' :: text := by simp
  have hkey : trim "Content-Type".toList = "Content-Type".toList := by decide +kernel
  have hlower : "Content-Type".toList.map Char.toLower = "content-type".toList := by
    decide +kernel
  have ho : "content-type".toList ≠ "content-disposition".toList := by decide +kernel
  have hv : trim (' ' :: text) = text := by
    rw [Coercion.trim_cons_of_isWhitespace (by decide), ht.1]
  simp only [readHeader, decodeUtf8_utf8, getD_some, hl,
    cutAt_colon (show ':' ∉ "Content-Type".toList by decide +kernel), hkey, hlower, hv,
    if_neg ho, if_true]

def Part.headerBlock (part : Part) : Bytes :=
  utf8 ("Content-Disposition: ".toList ++ part.disposition) ++
    part.contentType.elim [] fun text => crlf ++ utf8 ("Content-Type: ".toList ++ text)

theorem headerLines_eq (part : Part) :
    part.headerLines.flatMap (fun line => utf8 line ++ crlf) = part.headerBlock ++ crlf := by
  unfold Part.headerLines Part.headerBlock
  cases part.contentType <;> simp

variable {line : Bytes}

theorem splitCrlf_of_not_infix (hl : ¬crlf <:+: line) (he : line ≠ []) :
    splitCrlf line = [line] := by
  rw [splitCrlf]
  split
  · rename_i first rest hcut
    rw [cutAt_eq_none_iff.2 hl] at hcut
    cases hcut
  · simp [he]

theorem splitCrlf_append {rest : Bytes} (hl : ¬crlf <:+: line) :
    splitCrlf (line ++ (crlf ++ rest)) = line :: splitCrlf rest := by
  have hcut : cutAt crlf (line ++ (crlf ++ rest)) = some (line, rest) :=
    cutAt_eq_some_iff.2 ⟨rfl, (clear_iff_not_within (by decide)).2 hl⟩
  rw [splitCrlf]
  split
  · rename_i first behind hf
    rw [hcut] at hf
    cases hf
    rfl
  · rename_i hf
    rw [hcut] at hf
    cases hf

private theorem not_infix_utf8 (hr : '\r' ∉ text) : ¬crlf <:+: utf8 text := by
  rw [← utf8_crlf, infix_utf8_iff (by simp)]
  exact fun hw => hr (hw.subset mem_cons_self)

theorem not_infix_disposition (part : Part) :
    ¬crlf <:+: utf8 ("Content-Disposition: ".toList ++ part.disposition) := by
  apply not_infix_utf8
  rw [mem_append, not_or]
  exact ⟨by decide +kernel, not_mem_disposition part⟩

theorem not_infix_contentType (ht : HeaderText text) :
    ¬crlf <:+: utf8 ("Content-Type: ".toList ++ text) := by
  rw [← utf8_crlf, infix_utf8_iff (by simp), infix_append_iff_of_not_mem (by decide +kernel)]
  exact ht.2

theorem utf8_ne_nil {char : Char} : utf8 (char :: rest) ≠ [] := by
  exact fun he => utf8EncodeChar_ne_nil char (append_eq_nil_iff.1 he).1

theorem read_headerBlock (part : Part) (htype : ∀ text ∈ part.contentType, HeaderText text) :
    ((splitCrlf part.headerBlock).foldl readHeader {}).field part.data = part.field := by
  unfold Part.headerBlock Part.field
  have hf := not_infix_disposition part
  cases hc : part.contentType with
  | none =>
    rw [elim_none, append_nil, splitCrlf_of_not_infix hf utf8_ne_nil]
    simp only [foldl_cons, readHeader_disposition]
    rfl
  | some text =>
    have ht := htype text hc
    rw [elim_some, splitCrlf_append hf,
      splitCrlf_of_not_infix (not_infix_contentType ht) utf8_ne_nil]
    simp only [foldl_cons, readHeader_disposition, readHeader_contentType _ ht]
    rfl

private theorem clear_line (hl : ¬crlf <:+: line) (back : Bytes) :
    Clear (crlf ++ crlf) line (crlf ++ back) := by
  have hc : Clear crlf line (crlf ++ back) := (clear_iff_not_within (by decide)).2 hl
  exact hc.longer (prefix_append crlf crlf)

theorem clear_headerBlock (part : Part) (htype : ∀ text ∈ part.contentType, HeaderText text)
    (back : Bytes) : Clear (crlf ++ crlf) part.headerBlock (crlf ++ back) := by
  unfold Part.headerBlock
  have hf := not_infix_disposition part
  cases hc : part.contentType with
  | none =>
    rw [elim_none, append_nil]
    exact clear_line hf back
  | some text =>
    have ht := htype text hc
    rw [elim_some, clear_append, clear_append]
    refine ⟨clear_line hf _, ?_, clear_line (not_infix_contentType ht) back⟩
    -- the second header line does not start with CR
    have hs : utf8 ("Content-Type: ".toList ++ text) =
        67 :: utf8 ("ontent-Type: ".toList ++ text) := by
      rfl
    rw [hs]
    simp [crlf, clear_cons]

def encodeBehind (boundary : Text) : List Part → Bytes
  | [] => utf8 "--\r\n".toList
  | part :: rest =>
    crlf ++ (part.headerBlock ++ (crlf ++ crlf ++ (part.data ++
      (crlf ++ dashBoundary boundary ++ encodeBehind boundary rest))))

theorem encode_eq (boundary : Text) (parts : List Part) :
    encode boundary parts = dashBoundary boundary ++ encodeBehind boundary parts := by
  unfold encode
  induction parts with
  | nil => rfl
  | cons part rest ih =>
    rw [flatMap_cons, append_assoc, ih, Part.encode, headerLines_eq, encodeBehind]
    simp only [append_assoc]

/-- The delimiter is first found behind the data. -/
def Part.Delimited (boundary : Text) (part : Part) : Prop :=
  Clear (crlf ++ dashBoundary boundary) part.data (crlf ++ dashBoundary boundary)

instance Part.Delimited.decidable (boundary : Text) (part : Part) :
    Decidable (part.Delimited boundary) :=
  inferInstanceAs (Decidable (Clear _ _ _))

def Seen.countAll (seen : Seen) : List (Option Text) → Except String Seen
  | [] => .ok seen
  | filename :: rest => (seen.count filename).bind fun seen => seen.countAll rest

variable [Memmem]

theorem findBytes_of_clear {front needle back : Bytes} (hn : needle ≠ [])
    (hc : Clear needle front (needle ++ back)) :
    findBytes (front ++ (needle ++ back)) needle = some (front, back) :=
  findBytes_eq_some_iff.2 ⟨hn, cutAt_eq_some_iff.2 ⟨rfl, hc⟩⟩

private theorem parsePart_eq {delimiter block body data after : Bytes} (seen : Seen)
    (hb : findBytes body (crlf ++ crlf) = some (block, data))
    {content : Bytes} (hdata : findBytes data (crlf ++ delimiter) = some (content, after)) :
    parsePart delimiter seen (crlf ++ body) =
      (seen.count ((splitCrlf block).foldl readHeader {}).filename).map fun seen =>
        some (((splitCrlf block).foldl readHeader {}).field content, seen, after) := by
  have hl : ¬(crlf ++ body).length < 2 := by
    simp [crlf]
  have hs : (crlf ++ body).dropWhile (fun byte => byte == 32 || byte == 9) = crlf ++ body := by
    simp [crlf]
  have hline : (crlf ++ body).take 2 = crlf := by
    simp [crlf]
  have hd : (crlf ++ body).drop 2 = body := by
    simp [crlf]
  simp only [parsePart, hs, hd, hb, hdata, ne_eq]
  cases seen.count ((splitCrlf block).foldl readHeader {}).filename <;> rfl

variable {boundary : Text}

private theorem parsePart_encoded (seen : Seen) (htype : ∀ text ∈ part.contentType, HeaderText text)
    (hdata : part.Delimited boundary) (rest : List Part) :
    parsePart (dashBoundary boundary) seen (encodeBehind boundary (part :: rest)) =
      (seen.count part.found.2).map fun seen =>
        some (part.field, seen, encodeBehind boundary rest) := by
  have hr := read_headerBlock part htype
  have hf : ((splitCrlf part.headerBlock).foldl readHeader {}).filename = part.found.2 :=
    congrArg ParsedField.filename hr
  have hb := findBytes_of_clear (by decide) (clear_headerBlock part htype
    (crlf ++ (part.data ++ (crlf ++ dashBoundary boundary ++ encodeBehind boundary rest))))
  have hc : findBytes (part.data ++ (crlf ++ dashBoundary boundary ++
      encodeBehind boundary rest)) (crlf ++ dashBoundary boundary) =
        some (part.data, encodeBehind boundary rest) :=
    findBytes_of_clear (by simp [crlf]) (clear_needle_append.2 hdata)
  rw [encodeBehind, parsePart_eq seen hb hc, hf, hr]

variable {parts : List Part} (ht : ∀ part ∈ parts, ∀ text ∈ part.contentType, HeaderText text)
  (hdata : ∀ part ∈ parts, part.Delimited boundary)
include ht hdata

private theorem parseParts_encoded (result : Fields) (seen : Seen) :
    parseParts (dashBoundary boundary) result seen (encodeBehind boundary parts) =
      (seen.countAll (parts.map (·.found.2))).map fun _ =>
        (parts.map Part.field).foldl Fields.push result := by
  induction parts generalizing result seen with
  | nil =>
    rw [parseParts]
    rfl
  | cons part rest ih =>
    rw [forall_mem_cons] at ht hdata
    have hp := parsePart_encoded seen ht.1 hdata.1 rest
    rw [map_cons, map_cons, Seen.countAll]
    cases hc : seen.count part.found.2 with
    | error text =>
      rw [hc] at hp
      rw [parseParts_of_error hp]
      rfl
    | ok seen' =>
      rw [hc] at hp
      rw [parseParts_of_field hp, ih ht.2 hdata.2]
      rfl

theorem parseMultipartSync_encode :
    parseMultipartSync (encode boundary parts) boundary =
      ((Seen.mk 0 0).countAll (parts.map (·.found.2))).map fun _ =>
        (parts.map Part.field).foldl Fields.push [] := by
  have hf : findBytes (encode boundary parts) (utf8 ("--".toList ++ boundary)) =
      some ([], encodeBehind boundary parts) := by
    rw [encode_eq]
    exact findBytes_of_clear utf8_ne_nil (clear_nil _ _)
  simp only [parseMultipartSync, hf]
  exact parseParts_encoded ht hdata [] ⟨0, 0⟩

end FastapiTurbo.Multipart
