import FastapiTurbo.Multipart

/-! The parser of `multipart/form-data` bodies with the indices of the source
(`multipart.rs`), each index and slice checked against its range. -/
namespace FastapiTurbo.Multipart

open Lib List
open Coercion (trim)

inductive Halt where
  /-- An index or a slice out of range. -/
  | panic
  | err (text : String)
  deriving DecidableEq

abbrev Checked := Except Halt

section Checks

variable {α β : Type}

def slice (items : List α) (start stop : Nat) : Checked (List α) :=
  if start ≤ stop ∧ stop ≤ items.length then .ok ((items.drop start).take (stop - start))
  else .error .panic

def item (items : List α) (index : Nat) : Checked α :=
  items[index]?.elim (.error .panic) .ok

def find [DecidableEq α] (hay needle : List α) : Option Nat :=
  (cutAt needle hay).map fun cut => cut.1.length

def Yields (run : Checked α) (post : α → Prop) : Prop :=
  match run with
  | .ok value => post value
  | .error halt => halt ≠ .panic

variable {run : Checked α} {post : α → Prop}

theorem Yields.bind (hrun : Yields run post) {next : α → Checked β} {goal : β → Prop}
    (hn : ∀ value, post value → Yields (next value) goal) : Yields (run >>= next) goal := by
  cases run with
  | ok value => exact hn value hrun
  | error halt => exact hrun

theorem yields_err {text : String} : Yields (.error (.err text)) post :=
  nofun

variable {items : List α} {start stop index : Nat}

theorem yields_slice (hs : start ≤ stop) (hstop : stop ≤ items.length) :
    Yields (slice items start stop) fun part => part.length = stop - start := by
  rw [slice, if_pos ⟨hs, hstop⟩, Yields, length_take, length_drop]
  omega

theorem yields_item (hindex : index < items.length) : Yields (item items index) fun _ => True := by
  rw [item, getElem?_eq_getElem hindex]
  trivial

theorem find_le [DecidableEq α] {haystack needle : List α}
    (hf : find haystack needle = some index) :
    index + needle.length ≤ haystack.length := by
  obtain ⟨cut, hcut, rfl⟩ := Option.map_eq_some_iff.1 hf
  obtain ⟨rfl, -⟩ := cutAt_eq_some_iff.1 hcut
  simp only [length_append]
  omega

end Checks

def findFrom [Memmem] (hay needle : Bytes) (start : Nat) : Checked (Option Nat) :=
  if needle.isEmpty || hay.length ≤ start then .ok none
  else do
    let tail ← slice hay start hay.length
    return (Memmem.find tail needle).map (start + ·)

def splitFrom (buf : Bytes) (start i : Nat) (out : List Bytes) : Checked (List Bytes) :=
  if i + 1 < buf.length then do
    if (← item buf i) = 13 ∧ (← item buf (i + 1)) = 10 then
      let line ← slice buf start i
      splitFrom buf (i + 2) (i + 2) (out ++ [line])
    else splitFrom buf start (i + 1) out
  else if start < buf.length then do
    return out ++ [← slice buf start buf.length]
  else return out
termination_by buf.length - i

def quotedParam (hval key : Text) : Checked (Option Text) :=
  let needle := key ++ ['=']
  match find (hval.map Char.toLower) needle with
  | none => return none
  | some idx => do
    match ← slice hval (idx + needle.length) hval.length with
    | '"' :: rest =>
      match find rest ['"'] with
      | none => return none
      | some stop => return some (← slice rest 0 stop)
    | rest => return some (trim (← slice rest 0 ((find rest [';']).getD rest.length)))

def readLine (read : PartHeaders) (line : Bytes) : Checked PartHeaders :=
  let lineS := (decodeUtf8 line).getD []
  match find lineS [':'] with
  | none => return read
  | some colon => do
    let hname := trim (← slice lineS 0 colon)
    let hval := trim (← slice lineS (colon + 1) lineS.length)
    let lower := hname.map Char.toLower
    let headers := read.headers ++ [(hname, hval)]
    if lower = "content-disposition".toList then
      let name ← quotedParam hval "name".toList
      let filename ← quotedParam hval "filename".toList
      return { read with name := name.getD [], filename, headers }
    else if lower = "content-type".toList then
      return { read with contentType := some hval, headers }
    else return { read with headers }

def skipBlanks (body : Bytes) (p : Nat) : Checked Nat :=
  if p < body.length then do
    let byte ← item body p
    if byte = 32 ∨ byte = 9 then skipBlanks body (p + 1) else return p
  else return p
termination_by body.length - p

def Seen.counted (seen : Seen) (filename : Option Text) : Checked Seen :=
  match seen.count filename with
  | .error text => .error (.err text)
  | .ok seen => .ok seen

/-- One turn of the loop at the delimiter that starts at `pos`: `none` at the end marker, else
the field, the counters and the position of the next delimiter. -/
def turn [Memmem] (body db : Bytes) (seen : Seen) (pos : Nat) :
    Checked (Option (ParsedField × Seen × Nat)) :=
  let afterB := pos + db.length
  if body.length < afterB + 2 then .error (.err "truncated multipart body")
  else do
    if (← slice body afterB (afterB + 2)) = [45, 45] then return none
    else
      let p ← skipBlanks body afterB
      if body.length < p + 2 then .error (.err "expected CRLF after boundary")
      else if (← slice body p (p + 2)) ≠ crlf then .error (.err "expected CRLF after boundary")
      else
        match ← findFrom body (crlf ++ crlf) (p + 2) with
        | none => .error (.err "missing header terminator")
        | some headerEnd =>
          let lines ← splitFrom (← slice body (p + 2) headerEnd) 0 0 []
          let read ← lines.foldlM readLine {}
          let seen ← seen.counted read.filename
          match ← findFrom body (crlf ++ db) (headerEnd + 4) with
          | none => .error (.err "missing closing boundary for field")
          | some dataEnd =>
            let data ← slice body (headerEnd + 4) dataEnd
            return some (read.field data, seen, dataEnd + 2)

theorem yields_findFrom [Memmem] (haystack needle : Bytes) (start : Nat) :
    Yields (findFrom haystack needle start) fun found => ∀ index ∈ found,
      start ≤ index ∧ index + needle.length ≤ haystack.length := by
  unfold findFrom
  split
  · exact nofun
  · rename_i hg
    have hs : start ≤ haystack.length := by simp at hg; omega
    refine (yields_slice hs (Nat.le_refl _)).bind fun tail ht => ?_
    intro index hindex
    obtain ⟨found, hf, rfl⟩ := Option.map_eq_some_iff.1 hindex
    rw [Memmem.find_eq] at hf
    have hle := find_le hf
    omega

theorem yields_splitFrom (buf : Bytes) (start index : Nat) (out : List Bytes) (hs : start ≤ index)
    (hi : index ≤ buf.length) : Yields (splitFrom buf start index out) fun _ => True := by
  fun_induction splitFrom buf start index out with
  | case1 start index out hl ihMatch ihOn =>
    refine (yields_item (by omega)).bind fun first _ => ?_
    refine (yields_item hl).bind fun second _ => ?_
    split
    · refine (yields_slice hs hi).bind fun line _ => ?_
      exact ihMatch line (by omega) (by omega)
    · exact ihOn (by omega) (by omega)
  | case2 start index out hend hl =>
    exact (yields_slice (by omega) (Nat.le_refl _)).bind fun _ _ => trivial
  | case3 start index out hend hn => trivial

theorem yields_quotedParam (hval key : Text) : Yields (quotedParam hval key) fun _ => True := by
  unfold quotedParam
  dsimp only
  split
  · trivial
  · rename_i index hf
    have hle := find_le hf
    rw [length_map] at hle
    refine (yields_slice hle (Nat.le_refl _)).bind fun rest _ => ?_
    split
    · split
      · trivial
      · rename_i stop hs
        have hb := find_le hs
        exact (yields_slice (Nat.zero_le _) (by omega)).bind fun _ _ => trivial
    · have hb : (find rest [';']).getD rest.length ≤ rest.length := by
        cases hs : find rest [';'] with
        | none => exact Nat.le_refl _
        | some stop =>
          have hb := find_le hs
          exact Nat.le_of_add_right_le hb
      exact (yields_slice (Nat.zero_le _) hb).bind fun _ _ => trivial

private theorem yields_readLine (read : PartHeaders) (line : Bytes) :
    Yields (readLine read line) fun _ => True := by
  unfold readLine
  dsimp only
  split
  · trivial
  · rename_i colon hf
    have hle := find_le hf
    rw [length_singleton] at hle
    refine (yields_slice (Nat.zero_le _) (by omega)).bind fun before _ => ?_
    refine (yields_slice hle (Nat.le_refl _)).bind fun after _ => ?_
    split
    · refine (yields_quotedParam _ _).bind fun name _ => ?_
      exact (yields_quotedParam _ _).bind fun filename _ => trivial
    · split <;> trivial

theorem yields_foldlM_readLine (lines : List Bytes) (read : PartHeaders) :
    Yields (lines.foldlM readLine read) fun _ => True := by
  induction lines generalizing read with
  | nil => trivial
  | cons line rest ih => exact (yields_readLine read line).bind fun next _ => ih next

theorem yields_skipBlanks {body : Bytes} {start pos : Nat} (hs : start ≤ pos) :
    Yields (skipBlanks body pos) fun bound => start ≤ bound := by
  fun_induction skipBlanks body pos with
  | case1 pos hl ih =>
    refine (yields_item hl).bind fun byte _ => ?_
    split
    · exact ih (Nat.le_succ_of_le hs)
    · exact hs
  | case2 pos hend => exact hs

private theorem yields_counted (seen : Seen) (filename : Option Text) :
    Yields (seen.counted filename) fun seen' => seen.count filename = .ok seen' := by
  unfold Seen.counted
  split
  · exact yields_err
  · assumption

theorem yields_turn [Memmem] (body delimiter : Bytes) (seen : Seen) (pos : Nat) :
    Yields (turn body delimiter seen pos) fun next => ∀ field seen' pos',
      next = some (field, seen', pos') →
      seen.count field.filename = .ok seen' ∧ pos < pos' ∧
        pos' + delimiter.length ≤ body.length := by
  unfold turn
  dsimp only
  split
  · exact yields_err
  refine (yields_slice (by omega) (by omega)).bind fun mark _ => ?_
  split
  · exact nofun
  refine (yields_skipBlanks (Nat.le_refl _)).bind fun p hp => ?_
  split
  · exact yields_err
  refine (yields_slice (by omega) (by omega)).bind fun lineEnd _ => ?_
  split
  · exact yields_err
  refine (yields_findFrom body _ _).bind fun found hf => ?_
  split
  · exact yields_err
  rename_i headerEnd
  obtain ⟨hh, hheaderEnd⟩ := hf headerEnd rfl
  refine (yields_slice hh (Nat.le_of_add_right_le hheaderEnd)).bind fun block _ => ?_
  refine (yields_splitFrom block 0 0 [] (Nat.le_refl 0) (Nat.zero_le _)).bind fun lines _ => ?_
  refine (yields_foldlM_readLine lines {}).bind fun read _ => ?_
  refine (yields_counted seen read.filename).bind fun seen' hc => ?_
  refine (yields_findFrom body _ _).bind fun found hf => ?_
  split
  · exact yields_err
  rename_i dataEnd
  obtain ⟨hd, hdataEnd⟩ := hf dataEnd rfl
  refine (yields_slice hd (Nat.le_of_add_right_le hdataEnd)).bind fun data _ => ?_
  rintro field other pos' ⟨rfl, rfl, rfl⟩
  rw [length_append] at hdataEnd
  have hcr : crlf.length = 2 := rfl
  exact ⟨hc, by omega, by omega⟩

variable {body delimiter : Bytes} {seen seen' : Seen} {pos next : Nat} {field : ParsedField}

theorem turn_next [Memmem] (ht : turn body delimiter seen pos = .ok (some (field, seen', next))) :
    seen.count field.filename = .ok seen' ∧ pos < next ∧ next + delimiter.length ≤ body.length := by
  have hy := yields_turn body delimiter seen pos
  rw [ht] at hy
  exact hy field seen' next rfl

def parseFrom [Memmem] (body db : Bytes) (result : Fields) (seen : Seen) (pos : Nat) :
    Checked Fields :=
  match _hturn : turn body db seen pos with
  | .error halt => .error halt
  | .ok none => .ok result
  | .ok (some (field, seen, next)) => parseFrom body db (result.push field) seen next
termination_by body.length - pos
decreasing_by
  have hnext := turn_next _hturn
  omega

/-- `parse_multipart_sync`, by index. -/
def parseChecked [Memmem] (body : Bytes) (boundary : Text) : Checked Fields := do
  let db := utf8 ("--".toList ++ boundary)
  match ← findFrom body db 0 with
  | none => .error (.err "boundary not found")
  | some pos => parseFrom body db [] ⟨0, 0⟩ pos

private theorem count_eq_ok (hc : seen.count field.filename = .ok seen') :
    (seen'.fields = seen.fields + if field.filename.isNone then 1 else 0) ∧
      (seen'.files = seen.files + if field.filename.isSome then 1 else 0) ∧
      (seen.fields ≤ maxFields → seen'.fields ≤ maxFields) ∧
      (seen.files ≤ maxFiles → seen'.files ≤ maxFiles) := by
  unfold Seen.count at hc
  split at hc <;> split at hc <;> cases hc <;> rename_i hn hmax
  · simp [hn, Nat.not_lt.1 hmax]
  · simp [hn, Nat.not_lt.1 hmax]

private theorem yields_parseFrom [Memmem] (result : Fields) (hf : seen.fields ≤ maxFields)
    (hfiles : seen.files ≤ maxFiles) :
    Yields (parseFrom body delimiter result seen pos) fun final => ∃ fields : List ParsedField,
      final = fields.foldl Fields.push result ∧
      seen.fields + fields.countP (·.filename.isNone) ≤ maxFields ∧
      seen.files + fields.countP (·.filename.isSome) ≤ maxFiles := by
  fun_induction parseFrom body delimiter result seen pos with
  | case1 result seen pos halt ht =>
    have hy := yields_turn body delimiter seen pos
    rw [ht] at hy
    exact hy
  | case2 result seen pos ht => exact ⟨[], rfl, hf, hfiles⟩
  | case3 result seen pos field seen' next ht ih =>
    obtain ⟨hn, hfil, hkeptFields, hk⟩ := count_eq_ok (turn_next ht).1
    have hr := ih (hkeptFields hf) (hk hfiles)
    cases hp : parseFrom body delimiter (result.push field) seen' next with
    | error halt =>
      rw [hp] at hr
      exact hr
    | ok final =>
      rw [hp] at hr
      obtain ⟨fields, hfin, hm, hmoreFields⟩ := hr
      refine ⟨field :: fields, hfin, ?_, ?_⟩
      · rw [countP_cons]
        omega
      · rw [countP_cons]
        omega

/-- The parser ends without an index or a slice out of range; each turn of its loop goes on to
a later delimiter inside the body, and a result is made of at most 1000 parts without and 1000
with a file name. -/
theorem parse_stays_in_bounds [Memmem] (body : Bytes) (boundary : Text) :
    parseChecked body boundary ≠ .error .panic ∧
    (∀ seen pos field seen' next,
      turn body (utf8 ("--".toList ++ boundary)) seen pos = .ok (some (field, seen', next)) →
        pos < next ∧ next + (utf8 ("--".toList ++ boundary)).length ≤ body.length) ∧
    ∀ result, parseChecked body boundary = .ok result → ∃ fields : List ParsedField,
      result = fields.foldl Fields.push [] ∧
      fields.countP (·.filename.isNone) ≤ 1000 ∧ fields.countP (·.filename.isSome) ≤ 1000 := by
  have hp : Yields (parseChecked body boundary) fun result => ∃ fields : List ParsedField,
      result = fields.foldl Fields.push [] ∧
      0 + fields.countP (·.filename.isNone) ≤ 1000 ∧
      0 + fields.countP (·.filename.isSome) ≤ 1000 := by
    refine (yields_findFrom body _ 0).bind fun found _ => ?_
    split
    · exact yields_err
    · exact yields_parseFrom [] (Nat.zero_le _) (Nat.zero_le _)
  simp only [Nat.zero_add] at hp
  refine ⟨?_, fun _ _ _ _ _ ht => (turn_next ht).2, ?_⟩
  · intro hpass
    rw [hpass] at hp
    exact hp rfl
  · intro result hr
    rw [hr] at hp
    exact hp

end FastapiTurbo.Multipart
