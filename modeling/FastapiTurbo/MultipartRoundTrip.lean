import FastapiTurbo.MultipartEncoding
import Mathlib.Order.WithBot

/-! The round trip of a form through the multipart parser: which forms are given back as
they are. -/
namespace FastapiTurbo.Multipart

open Lib List
open Coercion (trim)

/-- The parser gives exactly the parts of the form, those of one name in their order. -/
def ReadsBack [Memmem] (boundary : Text) (parts : List Part) : Prop :=
  ∃ result, parseMultipartSync (encode boundary parts) boundary = .ok result ∧
    ∀ name, (result.get? name).map (List.map ParsedField.content) =
      nonempty ((parts.map Part.content).filter (·.name = name))

/-- The file name of a part that has its name first is found: the name has no `filename=` in
it, or one that happens to lead to the file name. -/
def FilenameKept (name : Text) (filename : Option Text) : Prop :=
  match behindFilename name with
  | none => True
  | some [] => filename = none ∨ filename = some "; filename=".toList
  | some (char :: rest) =>
    ';' ∈ char :: rest ∧ filename = some (trim ((char :: rest).takeWhile (· ≠ ';')))

/-- Neither parameter is taken for the other.  With the file name first that needs both to be
the same. -/
def Part.KeepsNames (part : Part) : Prop :=
  match part.filename, part.filenameFirst with
  | some filename, true => filename = part.name
  | filename, _ => FilenameKept part.name filename

theorem takeWhile_append_of_mem {front : Text} (hmem : ';' ∈ front) (back : Text) :
    (front ++ back).takeWhile (· ≠ ';') = front.takeWhile (· ≠ ';') := by
  obtain ⟨before, after, rfl⟩ := append_of_mem hmem
  rw [append_assoc, cons_append, takeWhile_append_of_not (by decide),
    takeWhile_append_of_not (by decide)]

private theorem quote_mem_trim {text : Text} (hmem : ';' ∉ text) :
    '"' ∈ trim ((text ++ ['"']).takeWhile (· ≠ ';')) := by
  have hall : ∀ char ∈ text, decide (char ≠ ';') = true := by
    intro char hc
    rw [decide_eq_true_eq]
    rintro rfl
    exact hmem hc
  rw [takeWhile_append_of_pos hall]
  exact Coercion.mem_trim (by simp) (by decide)

variable {name : Text}

private theorem filenameFound_eq_iff {filename : Option Text} (hp : ∀ text ∈ filename, Plain text) :
    filenameFound name filename = filename ↔ FilenameKept name filename := by
  rw [filenameFound, FilenameKept]
  rcases hb : behindFilename name with _ | _ | ⟨char, rest⟩
  · simp
  · cases filename with
    | none => simp
    | some text => simp only [Option.map_some, reduceCtorEq, false_or, eq_comm]
  · dsimp only
    by_cases hmem : ';' ∈ char :: rest
    · rw [takeWhile_append_of_mem hmem]
      simp only [hmem, true_and, eq_comm]
    · simp only [hmem, false_and, iff_false]
      intro hs
      exact not_mem_of_plain (hp _ hs.symm) (quote_mem_trim hmem)

theorem found_eq_iff (part : Part) :
    part.found = (part.name, part.filename) ↔ part.KeepsNames := by
  rcases order_cases part with ho | ⟨filename, hf, hfirst⟩
  · have hk : part.KeepsNames ↔ FilenameKept part.name part.filename := by
      unfold Part.KeepsNames
      split
      · rename_i filename hf hfirst
        simp [hf, hfirst] at ho
      · rfl
    rw [found_name_first ho, Prod.mk.injEq, filenameFound_eq_iff part.filename_plain, hk]
    exact and_iff_right rfl
  · rw [found_filename_first hf hfirst, Part.KeepsNames, hf, hfirst]
    simp

def misread (name : Text) : Option Text :=
  match behindFilename name with
  | none => none
  | some [] => some "; filename=".toList
  | some (char :: rest) => some (trim ((char :: rest ++ ['"']).takeWhile (· ≠ ';')))

theorem filenameFound_cases (name : Text) (filename : Option Text) :
    filenameFound name filename = filename ∨
      ∃ wrong, misread name = some wrong ∧ filenameFound name filename = some wrong := by
  rw [misread, filenameFound]
  rcases behindFilename name with _ | _ | ⟨char, rest⟩
  · exact .inl rfl
  · cases filename with
    | none => exact .inl rfl
    | some text => exact .inr ⟨_, rfl, rfl⟩
  · exact .inr ⟨_, rfl, rfl⟩

def rank (name : Text) : Nat :=
  if name = "; filename=".toList then 0 else name.length + 1

private theorem length_trim_le (text : Text) : (trim text).length ≤ text.length :=
  (Coercion.trim_infix text).length_le

theorem rank_misread {filename : Text} (hm : misread name = some filename)
    (hne : filename ≠ name) : rank filename < rank name := by
  rw [misread] at hm
  rcases hb : behindFilename name with _ | _ | ⟨char, rest⟩
  · simp [hb] at hm
  · simp only [hb, Option.some.injEq] at hm
    subst hm
    rw [rank, rank, if_pos rfl, if_neg hne.symm]
    exact Nat.succ_pos _
  · simp only [hb, Option.some.injEq] at hm
    obtain ⟨before, needle, hn, hneedle, -⟩ := behindFilename_eq_some hb
    have ho : name ≠ "; filename=".toList := by
      rintro rfl
      have he : behindFilename "; filename=".toList = some [] := by decide +kernel
      rw [he] at hb
      cases hb
    have hl : filename.length ≤ rest.length + 2 := by
      rw [← hm]
      refine (length_trim_le _).trans ((takeWhile_sublist _).length_le.trans ?_)
      simp
    have hnine : needle.length = 9 := by
      rw [← length_map Char.toLower, hneedle]
      rfl
    have hn : name.length = before.length + (9 + (rest.length + 1)) := by
      rw [hn, length_append, length_append, hnine, length_cons]
    rw [rank, rank, if_neg ho]
    split <;> omega

def level : Text × Option Text → WithTop Nat
  | (_, none) => ⊤
  | (name, some filename) =>
    if filename = name then WithTop.some (2 * rank name + 2)
    else if misread name = some filename then WithTop.some (2 * rank name + 1)
    else ⊤

theorem level_misread_lt {wrong : Text} (hm : misread name = some wrong) {filename : Option Text}
    (hne : filename ≠ some wrong) : level (name, some wrong) < level (name, filename) := by
  have hw : level (name, some wrong) =
      WithTop.some (if wrong = name then 2 * rank name + 2 else 2 * rank name + 1) := by
    rw [level, if_pos hm]
    split <;> rfl
  cases filename with
  | none =>
    rw [hw]
    exact WithTop.coe_lt_top _
  | some text =>
    have ho : text ≠ wrong := fun hs => hne (congrArg some hs)
    have hl : ¬misread name = some text := by
      rw [hm, Option.some.injEq]
      exact ho.symm
    by_cases hs : text = name
    · subst hs
      rw [hw, if_neg ho.symm, level, if_pos rfl]
      exact WithTop.coe_lt_coe.2 (Nat.lt_succ_self _)
    · rw [hw, level, if_neg hs, if_neg hl]
      exact WithTop.coe_lt_top _

theorem level_found (part : Part) :
    part.found = (part.name, part.filename) ∨
      level part.found < level (part.name, part.filename) := by
  rcases order_cases part with ho | ⟨filename, hf, hfirst⟩
  · rw [found_name_first ho]
    rcases filenameFound_cases part.name part.filename with hs | ⟨wrong, hm, hfound⟩
    · exact .inl (congrArg _ hs)
    · rw [hfound]
      by_cases hs : part.filename = some wrong
      · exact .inl (congrArg _ hs.symm)
      · exact .inr (level_misread_lt hm hs)
  · rw [found_filename_first hf hfirst, hf]
    by_cases hs : filename = part.name
    · rw [hs]
      exact .inl rfl
    · refine .inr ?_
      rw [level, if_pos rfl, level, if_neg hs]
      split
      · rename_i hm
        have hr := rank_misread hm hs
        exact WithTop.coe_lt_coe.2 (by omega)
      · exact WithTop.coe_lt_top _

theorem countAll_eq_ok {filenames : List (Option Text)} {seen : Seen}
    (hf : seen.fields + filenames.countP Option.isNone ≤ maxFields)
    (hfiles : seen.files + filenames.countP Option.isSome ≤ maxFiles) :
    ∃ seen', seen.countAll filenames = .ok seen' := by
  induction filenames generalizing seen with
  | nil => exact ⟨seen, rfl⟩
  | cons filename rest ih =>
    cases filename with
    | none =>
      simp only [countP_cons, Option.isNone_none, Option.isSome_none, if_true,
        Bool.false_eq_true, if_false] at hf hfiles
      rw [Seen.countAll, Seen.count, if_neg (by omega)]
      exact ih (by dsimp only; omega) hfiles
    | some text =>
      simp only [countP_cons, Option.isNone_some, Option.isSome_some, if_true,
        Bool.false_eq_true, if_false] at hf hfiles
      rw [Seen.countAll, Seen.count, if_neg (by omega)]
      exact ih hf (by dsimp only; omega)

theorem content_field_eq_iff (part : Part) :
    part.field.content = part.content ↔ part.found = (part.name, part.filename) := by
  simp [ParsedField.content, Part.content, Part.field, Prod.ext_iff]

private theorem filter_content_name (fields : List ParsedField) (name : Text) :
    (fields.filter (·.name = name)).map ParsedField.content =
      (fields.map ParsedField.content).filter (·.name = name) := by
  rw [filter_map]
  rfl

theorem groups_iff (fields : List ParsedField) (parts : List Part) :
    (∀ name, ((fields.foldl Fields.push []).get? name).map (List.map ParsedField.content) =
      nonempty ((parts.map Part.content).filter (·.name = name))) ↔
      ∀ name, (fields.map ParsedField.content).filter (·.name = name) =
        (parts.map Part.content).filter (·.name = name) := by
  refine forall_congr' fun name => ?_
  rw [Fields.push, Dict.get?_grouped, map_nonempty, filter_content_name]
  exact ⟨nonempty_inj, congrArg _⟩

section RoundTrip

variable [Memmem] {boundary : Text} {parts : List Part} {part : Part}

section

variable (hreads : ReadsBack boundary parts) (hpart : part ∈ parts)
include hreads hpart

theorem ReadsBack.wellRead :
    ∃ field, field.content = part.content ∧ WellRead (dashBoundary boundary) field := by
  obtain ⟨result, hp, hr⟩ := hreads
  obtain ⟨fields, rfl, hread⟩ := parseMultipartSync_eq_ok hp
  have hg := (groups_iff fields parts).1 hr part.name
  have hmem : part.content ∈ (parts.map Part.content).filter (·.name = part.name) :=
    mem_filter.2 ⟨mem_map_of_mem hpart, decide_eq_true rfl⟩
  rw [← hg] at hmem
  obtain ⟨field, hf, hc⟩ := mem_map.1 (mem_filter.1 hmem).1
  exact ⟨field, hc, hread field hf⟩

theorem ReadsBack.contentType : ∀ text ∈ part.contentType, HeaderText text := by
  obtain ⟨field, hc, hr⟩ := hreads.wellRead hpart
  have ht : field.contentType = part.contentType := congrArg Content.contentType hc
  rw [← ht]
  exact hr.contentType

theorem ReadsBack.delimited : part.Delimited boundary := by
  obtain ⟨field, hc, hr⟩ := hreads.wellRead hpart
  have hd : field.data = part.data := congrArg Content.data hc
  rw [Part.Delimited, ← hd]
  exact hr.data

end

theorem ReadsBack.keepsNames (hreads : ReadsBack boundary parts) :
    ∀ part ∈ parts, part.KeepsNames := by
  have hp := parseMultipartSync_encode (fun part hpart => hreads.contentType hpart)
    (fun part hpart => hreads.delimited hpart)
  obtain ⟨result, hok, hr⟩ := hreads
  rw [hok] at hp
  cases hc : (Seen.mk 0 0).countAll (parts.map (·.found.2)) with
  | error text =>
    rw [hc] at hp
    cases hp
  | ok seen =>
    rw [hc] at hp
    cases hp
    rw [groups_iff, map_map] at hr
    have hs := eq_of_perm_of_lt (fun content : Content => level (content.name, content.filename))
      (perm_of_groups Content.name hr) fun part _ => ?_
    · intro part hpart
      rw [← found_eq_iff, ← content_field_eq_iff]
      exact hs part hpart
    · rcases level_found part with hf | hl
      · exact .inl ((content_field_eq_iff part).2 hf)
      · exact .inr hl

private theorem readsBack_of (hf : parts.countP (·.filename.isNone) ≤ maxFields)
    (hfiles : parts.countP (·.filename.isSome) ≤ maxFiles)
    (ht : ∀ part ∈ parts, ∀ text ∈ part.contentType, HeaderText text)
    (hd : ∀ part ∈ parts, part.Delimited boundary) (hn : ∀ part ∈ parts, part.KeepsNames) :
    ReadsBack boundary parts := by
  have hfilenames : parts.map (·.found.2) = parts.map (·.filename) := by
    apply map_congr_left
    intro part hp
    rw [(found_eq_iff part).2 (hn part hp)]
  have hc : (parts.map Part.field).map ParsedField.content = parts.map Part.content := by
    rw [map_map]
    apply map_congr_left
    intro part hp
    exact (content_field_eq_iff part).2 ((found_eq_iff part).2 (hn part hp))
  obtain ⟨seen, hcount⟩ : ∃ seen, (Seen.mk 0 0).countAll (parts.map (·.filename)) = .ok seen := by
    apply countAll_eq_ok
    · rw [countP_map, Nat.zero_add]
      exact hf
    · rw [countP_map, Nat.zero_add]
      exact hfiles
  refine ⟨(parts.map Part.field).foldl Fields.push [], ?_, ?_⟩
  · rw [parseMultipartSync_encode ht hd, hfilenames, hcount]
    rfl
  · rw [groups_iff, hc]
    exact fun name => rfl

/-- A form with at most a thousand fields and a thousand files is read back exactly when its
content types can stand in a header line, no data reaches the delimiter before its end and no
part has its name and its file name mixed up. -/
theorem readsBack_iff (boundary : Text) (parts : List Part)
    (hfields : parts.countP (·.filename.isNone) ≤ 1000)
    (hfiles : parts.countP (·.filename.isSome) ≤ 1000) :
    ReadsBack boundary parts ↔
      ∀ part ∈ parts, (∀ text ∈ part.contentType, HeaderText text) ∧ part.Delimited boundary ∧
        part.KeepsNames := by
  constructor
  · intro hreads part hpart
    exact ⟨hreads.contentType hpart, hreads.delimited hpart, hreads.keepsNames part hpart⟩
  · intro hp
    exact readsBack_of hfields hfiles (fun part hpart => (hp part hpart).1)
      (fun part hpart => (hp part hpart).2.1) (fun part hpart => (hp part hpart).2.2)

end RoundTrip

instance firstOccurrence : Memmem where
  find hay needle := (cutAt needle hay).map fun cut => cut.1.length
  find_eq _ _ := rfl

def uploadPart (filenameFirst : Bool) : Part where
  name := "file".toList
  filename := some "a.txt".toList
  contentType := some "text/plain".toList
  data := [104, 105]
  filenameFirst := filenameFirst
  name_plain := by decide +kernel
  filename_plain := by
    intro text htext
    cases htext
    decide +kernel

theorem keepsNames_uploadPart : (uploadPart false).KeepsNames := by
  have hb : behindFilename "file".toList = none := by decide +kernel
  change FilenameKept "file".toList (some "a.txt".toList)
  rw [FilenameKept, hb]
  trivial

theorem headerText_uploadPart (filenameFirst : Bool) :
    ∀ text ∈ (uploadPart filenameFirst).contentType, HeaderText text := by
  intro text ht
  cases ht
  decide +kernel

theorem delimited_uploadPart (filenameFirst : Bool) :
    (uploadPart filenameFirst).Delimited "X".toList := by
  cases filenameFirst <;> decide +kernel

theorem upload_read_back :
    [uploadPart false].countP (·.filename.isNone) ≤ 1000 ∧
      [uploadPart false].countP (·.filename.isSome) ≤ 1000 ∧
      ReadsBack "X".toList [uploadPart false] := by
  have hf : [uploadPart false].countP (·.filename.isNone) ≤ 1000 := by decide
  have hfiles : [uploadPart false].countP (·.filename.isSome) ≤ 1000 := by decide
  refine ⟨hf, hfiles, (readsBack_iff "X".toList [uploadPart false] hf hfiles).2 ?_⟩
  rw [forall_mem_singleton]
  exact ⟨headerText_uploadPart false, delimited_uploadPart false, keepsNames_uploadPart⟩

/-- With the file name first the upload comes out under the file name. -/
theorem filename_first_upload_renamed :
    parseMultipartSync (encode "X".toList [uploadPart true]) "X".toList =
        .ok [("a.txt".toList, [(uploadPart true).field])] ∧
      (uploadPart true).field.name = "a.txt".toList ∧
      ¬ReadsBack "X".toList [uploadPart true] := by
  refine ⟨?_, rfl, ?_⟩
  · rw [parseMultipartSync_encode]
    · rfl
    · rw [forall_mem_singleton]
      exact headerText_uploadPart true
    · rw [forall_mem_singleton]
      exact delimited_uploadPart true
  · intro hreads
    have hk := hreads.keepsNames (uploadPart true) mem_cons_self
    revert hk
    simp [Part.KeepsNames, uploadPart]

end FastapiTurbo.Multipart
