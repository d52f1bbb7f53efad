import FastapiTurbo.Lib.File
import FastapiTurbo.Lib.Utf8
import FastapiTurbo.ResponseHeaders

/-! The body of a response with several ranges (`file_response_with_range` in `responses.rs`):
the frames that the producer task sends while the receiver keeps consuming.  The task opens
the file that was examined before; of its reads only the end of the file is an error here. -/
namespace FastapiTurbo.RangeBody

open Lib ResponseHeaders List Option

inductive Frame where
  | data (bytes : List UInt8)
  | failed
  deriving DecidableEq

def chunk : Nat := 64 * 1024

/-- `as usize`, which has 64 bits on the platforms that are built for. -/
def asUsize (value : Nat) : Nat :=
  value % 18446744073709551616

def readExact (file : File UInt8) (want : Nat) : Option (List UInt8 × File UInt8) :=
  if (file.peek (some want)).length = want then
    some (file.peek (some want), file.advance (some want))
  else none

def sendChunks : Nat → Nat → File UInt8 → Option (List Frame × Option (File UInt8))
  | 0, _, _ => none
  | fuel + 1, remaining, file =>
    if remaining = 0 then some ([], some file)
    else
      let want := Nat.min (asUsize remaining) chunk
      match readExact file want with
      | none => some ([.failed], none)
      | some (slice, file) =>
        (sendChunks fuel (remaining - want) file).map fun (frames, file) =>
          (.data slice :: frames, file)

def sendParts (fuel : Nat) (closing : List UInt8) :
    List ((Nat × Nat) × List UInt8) → File UInt8 → Option (List Frame)
  | [], _ => some [.data closing]
  | ((start, finish), pre) :: parts, file =>
    match sendChunks fuel (rangeLength start finish) (file.seek start) with
    | none => none
    | some (frames, none) => some (.data pre :: frames)
    | some (frames, some file) =>
      (sendParts fuel closing parts file).map fun others => .data pre :: frames ++ others

def preambles (boundary ct : String) (total : Nat) (ranges : List (Nat × Nat)) :
    List (List UInt8) :=
  ranges.mapIdx fun index range => utf8 (preamble boundary ct total index range).toList

def closing (boundary : String) : List UInt8 :=
  utf8 ("\r\n--" ++ boundary ++ "--").toList

def produce (fuel : Nat) (content : List UInt8) (boundary ct : String)
    (ranges : List (Nat × Nat)) : Option (List Frame) :=
  sendParts fuel (closing boundary)
    (ranges.zip (preambles boundary ct content.length ranges)) (File.ofItems content)

def bodyOf : List Frame → Option (List UInt8)
  | [] => some []
  | .data bytes :: frames => (bodyOf frames).map (bytes ++ ·)
  | .failed :: _ => none

theorem bodyOf_append {front back : List Frame} {first second : List UInt8}
    (hf : bodyOf front = some first)
    (hb : bodyOf back = some second) : bodyOf (front ++ back) = some (first ++ second) := by
  induction front generalizing first with
  | nil =>
    cases hf
    exact hb
  | cons frame front ih =>
    cases frame with
    | failed => cases hf
    | data bytes =>
      obtain ⟨rest, hr, rfl⟩ := map_eq_some_iff.1 hf
      rw [cons_append, bodyOf, ih hr, map_some, append_assoc]

def slice (content : List UInt8) (range : Nat × Nat) : List UInt8 :=
  (content.drop range.1).take (range.2 - range.1 + 1)

private theorem readExact_eq {file : File UInt8} {want : Nat}
    (hw : file.position + want ≤ file.buffer.length) :
    readExact file want =
      some ((file.buffer.drop file.position).take want, file.advance (some want)) := by
  refine if_pos ?_
  simp only [File.peek, Option.elim, length_take, length_drop]
  omega

theorem sendChunks_eq {fuel remaining : Nat} {file : File UInt8} (hf : remaining < fuel)
    (hr : remaining < 18446744073709551616)
    (hfile : file.position + remaining ≤ file.buffer.length) :
    ∃ frames after, sendChunks fuel remaining file = some (frames, some after) ∧
      after.buffer = file.buffer ∧
      bodyOf frames = some ((file.buffer.drop file.position).take remaining) := by
  -- Each round takes at least one byte off what remains, which is below the fuel.
  induction fuel generalizing remaining file with
  | zero => omega
  | succ fuel ih =>
    by_cases hz : remaining = 0
    · refine ⟨[], file, by rw [sendChunks, if_pos hz], rfl, ?_⟩
      rw [hz, take_zero, bodyOf]
    · have hw : Nat.min (asUsize remaining) chunk = Nat.min remaining chunk := by
        rw [asUsize, Nat.mod_eq_of_lt hr]
      have hle : Nat.min remaining chunk ≤ remaining := Nat.min_le_left _ _
      have hpos : 0 < Nat.min remaining chunk :=
        Nat.lt_min.2 ⟨Nat.pos_of_ne_zero hz, by decide⟩
      generalize Nat.min remaining chunk = want at hw hle hpos
      have hread := @readExact_eq file want (by omega)
      have hp : (file.advance (some want)).position = file.position + want := by
        simp only [File.advance, File.peek, Option.elim, length_take, length_drop]
        omega
      obtain ⟨frames, after, hs, hbuffer, hb⟩ := @ih (remaining - want)
        (file.advance (some want)) (by omega) (by omega) (by
          rw [hp]
          show file.position + want + (remaining - want) ≤ file.buffer.length
          omega)
      refine ⟨.data ((file.buffer.drop file.position).take want) :: frames, after, ?_, hbuffer, ?_⟩
      · rw [sendChunks, if_neg hz]
        simp only [hw, hread, hs, map_some]
      · have hsplit : remaining = want + (remaining - want) := by omega
        rw [hp] at hb
        rw [bodyOf, hb, map_some, hsplit, take_add, drop_drop]
        simp [File.advance]

/-- A range within the file. -/
def Valid (content : List UInt8) (range : Nat × Nat) : Prop :=
  range.1 ≤ range.2 ∧ range.2 < content.length

theorem rangeLength_of_valid {content : List UInt8} {range : Nat × Nat}
    (hv : Valid content range) (hs : content.length < 18446744073709551616) :
    rangeLength range.1 range.2 = range.2 - range.1 + 1 := by
  obtain ⟨ho, hw⟩ := hv
  unfold rangeLength
  omega

theorem sendParts_eq {fuel : Nat} {content closing : List UInt8} (hfuel : content.length < fuel)
    (hs : content.length < 18446744073709551616) (parts : List ((Nat × Nat) × List UInt8))
    (hparts : ∀ part ∈ parts, Valid content part.1) {file : File UInt8}
    (hf : file.buffer = content) :
    ∃ frames, sendParts fuel closing parts file = some frames ∧
      bodyOf frames =
        some (parts.flatMap (fun part => part.2 ++ slice content part.1) ++ closing) := by
  induction parts generalizing file with
  | nil =>
    refine ⟨[.data closing], rfl, ?_⟩
    rw [bodyOf, bodyOf, map_some, append_nil]
    rfl
  | cons part parts ih =>
    obtain ⟨⟨start, finish⟩, preamble⟩ := part
    obtain ⟨hv, ho⟩ := forall_mem_cons.1 hparts
    have hl := rangeLength_of_valid hv hs
    obtain ⟨hordered, hw⟩ := hv
    dsimp only at hordered hw hl
    have hp : (file.seek start).position = start := by
      simp only [File.seek, hf]
      omega
    have hb : (file.seek start).buffer = content := hf
    obtain ⟨frames, after, hc, ha, hbody⟩ := @sendChunks_eq fuel
      (rangeLength start finish) (file.seek start) (by omega) (by omega) (by
        rw [hp, hb]
        omega)
    rw [hb] at ha
    rw [hb, hp, hl] at hbody
    obtain ⟨others, hsend, hr⟩ := ih ho ha
    refine ⟨.data preamble :: frames ++ others, ?_, ?_⟩
    · rw [sendParts, hc]
      simp only [hsend, map_some]
    · rw [cons_append, bodyOf, bodyOf_append hbody hr, map_some,
        flatMap_cons, append_assoc, append_assoc]
      rfl

/-- The body as it is meant: for each range its preamble and its bytes, and the closing
delimiter. -/
def multipartBody (content : List UInt8) (boundary ct : String) (ranges : List (Nat × Nat)) :
    List UInt8 :=
  (ranges.mapIdx fun index range =>
      utf8 (preamble boundary ct content.length index range).toList ++ slice content range).flatten
    ++ closing boundary

theorem length_utf8_toList (text : String) : (utf8 text.toList).length = text.utf8ByteSize := by
  have hb := toByteArray_ofList_eq text.toList
  rw [String.ofList_toList] at hb
  rw [← String.size_toByteArray, hb]
  rfl

theorem foldl_add_eq (lengths : List Nat) (start : Nat) :
    lengths.foldl (· + ·) start = start + lengths.foldl (· + ·) 0 := by
  induction lengths generalizing start with
  | nil => rfl
  | cons length rest ih =>
    rw [foldl_cons, foldl_cons, ih, ih (0 + length)]
    omega

theorem length_flatten_eq (parts : List (List UInt8)) :
    (parts.map List.length).foldl (· + ·) 0 = parts.flatten.length := by
  induction parts with
  | nil => rfl
  | cons part rest ih =>
    rw [map_cons, foldl_cons, foldl_add_eq, ih, flatten_cons, length_append]
    omega

theorem foldl_wrapped (lengths : List Nat) (start : Nat) :
    lengths.foldl (fun bodyLen length => (bodyLen + length) % 18446744073709551616) start %
        18446744073709551616 =
      lengths.foldl (· + ·) start % 18446744073709551616 := by
  induction lengths generalizing start with
  | nil => rfl
  | cons length rest ih =>
    rw [foldl_cons, foldl_cons, ih, foldl_add_eq, foldl_add_eq rest (start + length),
      Nat.mod_add_mod]

theorem zip_preambles (content : List UInt8) (boundary contentType : String)
    (ranges : List (Nat × Nat)) :
    (ranges.zip (preambles boundary contentType content.length ranges)).flatMap
        (fun part => part.2 ++ slice content part.1) =
      (ranges.mapIdx fun index range =>
        utf8 (preamble boundary contentType content.length index range).toList ++
          slice content range).flatten := by
  rw [flatMap_def]
  congr 1
  apply ext_getElem
  · simp [preambles]
  · intro index hl hr
    simp [preambles]

theorem length_slice {content : List UInt8} {range : Nat × Nat} (hv : Valid content range) :
    (slice content range).length = range.2 - range.1 + 1 := by
  obtain ⟨ho, hw⟩ := hv
  simp only [slice, length_take, length_drop]
  omega

/-- The declared length is that of the body on a `u64`. -/
theorem multipartLength_eq {content : List UInt8} (boundary contentType : String)
    {ranges : List (Nat × Nat)} (hranges : ∀ range ∈ ranges, Valid content range)
    (hsize : content.length < 18446744073709551616) :
    multipartLength boundary contentType content.length ranges =
      (multipartBody content boundary contentType ranges).length % 18446744073709551616 := by
  have hlengths : (ranges.mapIdx fun index range =>
        utf8 (preamble boundary contentType content.length index range).toList ++
          slice content range).map List.length =
      ranges.mapIdx fun index range =>
        (preamble boundary contentType content.length index range).utf8ByteSize +
          rangeLength range.1 range.2 := by
    apply ext_getElem
    · simp
    · intro index _ hindex
      have hin : index < ranges.length := by simpa using hindex
      have hvalid := hranges ranges[index] (getElem_mem hin)
      simp only [getElem_map, getElem_mapIdx, length_append, length_utf8_toList,
        length_slice hvalid, rangeLength_of_valid hvalid hsize]
  rw [multipartBody, length_append, ← length_flatten_eq, hlengths, closing,
    length_utf8_toList, multipartLength, Nat.add_mod, foldl_wrapped, ← Nat.add_mod]

/-- The producer sends the preamble and the bytes of each range and the closing delimiter,
as many bytes as the response declares unless their number does not fit a `u64`. -/
theorem multipart_body_produced {content : List UInt8} (boundary contentType : String)
    {ranges : List (Nat × Nat)} {fuel : Nat}
    (hranges : ∀ range ∈ ranges, range.1 ≤ range.2 ∧ range.2 < content.length)
    (hsize : content.length < 18446744073709551616) (hfuel : content.length < fuel) :
    ∃ frames, produce fuel content boundary contentType ranges = some frames ∧
      bodyOf frames = some (multipartBody content boundary contentType ranges) ∧
      ((multipartBody content boundary contentType ranges).length =
          multipartLength boundary contentType content.length ranges ↔
        (multipartBody content boundary contentType ranges).length < 18446744073709551616) := by
  have hparts : ∀ part ∈ ranges.zip (preambles boundary contentType content.length ranges),
      Valid content part.1 :=
    fun part hmem => hranges part.1 (of_mem_zip hmem).1
  obtain ⟨frames, hsend, hbody⟩ := @sendParts_eq fuel content (closing boundary) hfuel hsize _
    hparts (File.ofItems content) rfl
  refine ⟨frames, hsend, ?_, ?_⟩
  · rw [hbody, zip_preambles, multipartBody]
  · rw [multipartLength_eq boundary contentType hranges hsize]
    omega

theorem two_ranges_produced :
    (∀ range ∈ [(0, 1), (3, 3)], range.1 ≤ range.2 ∧ range.2 < [104, 101, 108, 108].length) ∧
      ∃ frames, produce 5 [104, 101, 108, 108] "b" "text/plain" [(0, 1), (3, 3)] = some frames ∧
        bodyOf frames = some (multipartBody [104, 101, 108, 108] "b" "text/plain"
          [(0, 1), (3, 3)]) ∧
        ((multipartBody [104, 101, 108, 108] "b" "text/plain" [(0, 1), (3, 3)]).length =
            multipartLength "b" "text/plain" 4 [(0, 1), (3, 3)] ↔
          (multipartBody [104, 101, 108, 108] "b" "text/plain" [(0, 1), (3, 3)]).length <
            18446744073709551616) :=
  ⟨by decide, multipart_body_produced "b" "text/plain" (by decide) (by decide) (by decide)⟩

theorem exists_length_eq (size : Nat) : ∃ content : List UInt8, content.length = size :=
  ⟨replicate size 0, length_replicate⟩

/-- Two ranges of a file as large as a `u64` allows, which leave one byte out. -/
def oversizedRanges : List (Nat × Nat) :=
  [(0, 9223372036854775808), (9223372036854775810, 18446744073709551614)]

theorem oversized_body_misdeclared :
    ∃ content : List UInt8, (∀ range ∈ oversizedRanges, Valid content range) ∧
      multipartLength "b" "text/plain" content.length oversizedRanges ≠
        (multipartBody content "b" "text/plain" oversizedRanges).length := by
  obtain ⟨content, hsize⟩ := exists_length_eq 18446744073709551615
  have hfirst : Valid content (0, 9223372036854775808) := by
    rw [Valid, hsize]
    decide
  have hsecond : Valid content (9223372036854775810, 18446744073709551614) := by
    rw [Valid, hsize]
    decide
  have hranges : ∀ range ∈ oversizedRanges, Valid content range := by
    simp [oversizedRanges, hfirst, hsecond]
  have hclosing : (closing "b").length = 7 := by decide
  refine ⟨content, hranges, ?_⟩
  rw [multipartLength_eq "b" "text/plain" hranges (by omega)]
  refine Nat.ne_of_lt (Nat.lt_of_lt_of_le (Nat.mod_lt _ (by decide)) ?_)
  simp only [multipartBody, oversizedRanges, mapIdx_cons, mapIdx_nil, flatten_cons, flatten_nil,
    length_append, length_nil, hclosing, length_slice hfirst, length_slice hsecond]
  omega

end FastapiTurbo.RangeBody
