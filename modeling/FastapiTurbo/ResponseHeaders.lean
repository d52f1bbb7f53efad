import Mathlib.Data.List.Infix
import Mathlib.Data.List.Nodup
import FastapiTurbo.Lib.Multimap
import FastapiTurbo.Lib.Utf8

/-! The headers of a returned response on their way into the HTTP response
(`responses.rs`, `streaming.rs`).  A Starlette response has its headers in `raw_headers`;
its `headers` is a view of the same list, which decodes it as Latin-1. -/
namespace FastapiTurbo.ResponseHeaders

open Lib

def isTokenChar (char : Char) : Bool :=
  char.isAlphanum || "!#$%&'*+-.^_`|~".toList.contains char

def isToken (name : String) : Bool :=
  !name.toList.isEmpty && name.toList.all isTokenChar

def isVisible (code : Nat) : Bool :=
  code == 9 || (32 ≤ code && code < 127)

def isField (code : Nat) : Bool :=
  code == 9 || (32 ≤ code && code != 127)

/-- A pair of `raw_headers` that is a valid header. -/
structure HeaderPair where
  name : String
  value : List UInt8
  name_token : isToken name = true
  value_field : value.all (fun byte => isField byte.toNat) = true

def lowercase (name : String) : String :=
  String.ofList (name.toList.map Char.toLower)

/-- The crate `http`: `HeaderName::try_from`, and the bytes of `HeaderValue::from_str`. -/
structure HttpCrate where
  headerName : String → Option String
  headerValue : String → Option (List UInt8)

/-- What is known of the crate: a name is taken in lower case, and a value of visible ASCII
for its bytes.  Its documentation permits no other characters, its code forbids the control
characters alone; either way a text with others is taken if any such text is. -/
structure HttpCrate.Documented (http : HttpCrate) : Prop where
  name_token : ∀ name, isToken name = true → http.headerName name = some (lowercase name)
  value_visible : ∀ text : String, (∀ char ∈ text.toList, isVisible char.toNat = true) →
    http.headerValue text = some (utf8 text.toList)
  value_alike : ∀ one other : String, (∀ char ∈ one.toList, isField char.toNat = true) →
    (∀ char ∈ other.toList, isField char.toNat = true) →
    ¬(∀ char ∈ one.toList, isVisible char.toNat = true) →
    ¬(∀ char ∈ other.toList, isVisible char.toNat = true) →
    (http.headerValue one).isSome = (http.headerValue other).isSome

namespace HeaderPair

def key (pair : HeaderPair) : String :=
  lowercase pair.name

/-- A pair as `extract_header_pair` reads it from the list. -/
def listText (pair : HeaderPair) : String :=
  String.ofList (decodeLossy pair.value)

def viewText (pair : HeaderPair) : String :=
  String.ofList (latin1 pair.value)

def Visible (pair : HeaderPair) : Prop :=
  ∀ byte ∈ pair.value, isVisible byte.toNat = true

end HeaderPair

section Http

variable (http : HttpCrate)

def HeaderPair.listed (pair : HeaderPair) : Option (List UInt8) :=
  http.headerValue pair.listText

def HeaderPair.viewed (pair : HeaderPair) : Option (List UInt8) :=
  http.headerValue pair.viewText

def sendable (pairs : List (String × String)) : Multimap String (List UInt8) :=
  pairs.filterMap fun pair =>
    match http.headerName pair.1, http.headerValue pair.2 with
    | some name, some value => some (name, value)
    | _, _ => none

end Http

/-- The exact class of the response object, as far as it is looked at. -/
inductive ResponseClass where
  | json
  | plainText
  | html
  | base
  | streaming
  | file
  | other
  deriving DecidableEq

structure PyResponse where
  cls : ResponseClass
  statusCode : Nat
  rawHeaders : List HeaderPair
  /-- `path`, where it is a `str`. -/
  path : Option String
  /-- `body_iterator` is there and not `None`. -/
  bodyIterator : Bool
  mediaType : Option String

namespace PyResponse

def raw (response : PyResponse) : List (String × String) :=
  response.rawHeaders.map fun pair => (pair.name, pair.listText)

def items (response : PyResponse) : List (String × String) :=
  response.rawHeaders.map fun pair => (pair.name, pair.viewText)

end PyResponse

structure Response where
  status : Nat
  headers : Multimap String (List UInt8)

def statusOf (code : Nat) : Nat :=
  if 65536 ≤ code then 200 else if 100 ≤ code ∧ code < 1000 then code else 500

def isNoBody (status : Nat) : Bool :=
  status < 200 || status == 204 || status == 304

def responseObjectToResponse (http : HttpCrate) (response : PyResponse) : Response :=
  let status := statusOf response.statusCode
  let headers := Multimap.merge (fun _ => .append) [] (sendable http response.raw)
  let hmap := Multimap.merge (fun _ => .append) [] headers
  ⟨status, if isNoBody status then hmap.remove "content-length" else hmap⟩

def createStreamingResponse (http : HttpCrate) (response : PyResponse) : Response :=
  ⟨statusOf response.statusCode,
    Multimap.merge (fun _ => .insert) [] (sendable http response.items)⟩

def extractResponseHeaders (response : PyResponse) : List (String × String) :=
  response.items ++ response.raw

def entityHeaders : List String :=
  ["content-type", "content-length", "accept-ranges", "content-range", "last-modified", "etag"]

def fileJoining (name : String) : Joining :=
  if name ∈ entityHeaders then .skip else if name = "set-cookie" then .append else .insert

def applyExtraFileHeaders (http : HttpCrate) (headers : Multimap String (List UInt8))
    (extra : List (String × String)) : Multimap String (List UInt8) :=
  headers.merge fileJoining (sendable http extra)

inductive RangeOutcome where
  | single (start finish : Nat)
  | multi (ranges : List (Nat × Nat))
  | unsatisfiable
  | malformed (reason : String)
  deriving DecidableEq

inductive Stat where
  | notFound
  | failed (error : String)
  | notAFile
  | file (len : Nat) (lastModified etag : String)
  deriving DecidableEq

/-- What the file conversion finds outside: the file, the error of opening, seeking or
reading it, and the boundary of a multipart body. -/
structure Disk where
  stat : Stat
  readError : Option String
  boundary : String

structure RangeHeaders where
  range : Option String
  ifRange : Option String

def contentType (mediaType : Option String) : String :=
  let ct := mediaType.getD "application/octet-stream"
  let textual := "text/".toList.isPrefixOf ct.toList || ct = "application/javascript" ||
    ct = "application/json"
  if textual ∧ ¬"charset=".toList <:+: ct.toList.map Char.toLower then
    ct ++ "; charset=utf-8"
  else ct

def effectiveRange (headers : RangeHeaders) (lastModified etag : String) : Option String :=
  match headers.ifRange with
  | some validator =>
    if validator ≠ lastModified ∧ validator ≠ etag then none else headers.range
  | none => headers.range

def preamble (boundary ct : String) (total index : Nat) (range : Nat × Nat) : String :=
  (if index = 0 then "" else "\r\n") ++ "--" ++ boundary ++ "\r\nContent-Type: " ++ ct ++
    "\r\nContent-Range: bytes " ++ toString range.1 ++ "-" ++ toString range.2 ++ "/" ++
    toString total ++ "\r\n\r\n"

/-- `end - start + 1` on `u64`, which wraps around in a release build. -/
def rangeLength (start finish : Nat) : Nat :=
  (finish + 18446744073709551616 - start + 1) % 18446744073709551616

/-- `body_len`, a `u64` like the lengths that are added to it. -/
def multipartLength (boundary ct : String) (total : Nat) (ranges : List (Nat × Nat)) : Nat :=
  ((ranges.mapIdx fun index range =>
      (preamble boundary ct total index range).utf8ByteSize +
        rangeLength range.1 range.2).foldl
        (fun bodyLen length => (bodyLen + length) % 18446744073709551616) 0 +
    ("\r\n--" ++ boundary ++ "--").utf8ByteSize) % 18446744073709551616

def entry (name text : String) : String × List UInt8 :=
  (name, utf8 text.toList)

def textResponse (status : Nat) : Response :=
  ⟨status, [entry "content-type" "text/plain; charset=utf-8"]⟩

section File

variable (http : HttpCrate) (parseByteRanges : String → Nat → RangeOutcome) (disk : Disk)
  (mediaType : Option String) (extra : List (String × String)) (requested : RangeHeaders)

def wholeOrSingle (ct lastModified etag : String) (total : Nat) (range : Option (Nat × Nat)) :
    Response :=
  if disk.readError.isSome then textResponse 500
  else
    let (status, contentRange, length) :=
      match range with
      | some (start, finish) =>
        (206, [entry "content-range" s!"bytes {start}-{finish}/{total}"],
          rangeLength start finish)
      | none => (200, [], total)
    let entity :=
      [entry "content-type" ct, entry "content-length" (toString length),
        entry "accept-ranges" "bytes", entry "last-modified" lastModified,
        entry "etag" etag] ++ contentRange
    ⟨status, applyExtraFileHeaders http entity extra⟩

def fileResponseWithRange : Response :=
  match disk.stat with
  | .notFound => textResponse 404
  | .failed _ | .notAFile => textResponse 500
  | .file total lastModified etag =>
    let ct := contentType mediaType
    match (effectiveRange requested lastModified etag).map (parseByteRanges · total) with
    | some .unsatisfiable =>
      ⟨416, [entry "content-range" s!"bytes */{total}", entry "content-length" "0",
        entry "content-type" "text/plain; charset=utf-8"]⟩
    | some (.malformed reason) =>
      ⟨400, [entry "content-type" "text/plain; charset=utf-8",
        entry "content-length" (toString reason.utf8ByteSize)]⟩
    | some (.multi [range]) =>
      wholeOrSingle http disk extra ct lastModified etag total (some range)
    | some (.multi ranges) =>
      let entity :=
        [entry "content-type" ("multipart/byteranges; boundary=" ++ disk.boundary),
          entry "content-length" (toString (multipartLength disk.boundary ct total ranges)),
          entry "accept-ranges" "bytes", entry "last-modified" lastModified, entry "etag" etag]
      ⟨206, applyExtraFileHeaders http entity extra⟩
    | some (.single start finish) =>
      wholeOrSingle http disk extra ct lastModified etag total (some (start, finish))
    | none => wholeOrSingle http disk extra ct lastModified etag total none

end File

inductive Conversion where
  | plain
  | streaming
  | file
  deriving DecidableEq

def conversion (response : PyResponse) : Conversion :=
  match response.cls with
  | .json | .plainText | .html | .base => .plain
  | .streaming => .streaming
  | .file | .other =>
    if response.path.isSome then .file
    else if response.bodyIterator then .streaming
    else .plain

def pyToResponseWithRequest (http : HttpCrate) (parseByteRanges : String → Nat → RangeOutcome)
    (disk : Disk) (requested : RangeHeaders) (response : PyResponse) : Response :=
  match conversion response with
  | .plain => responseObjectToResponse http response
  | .streaming => createStreamingResponse http response
  | .file =>
    fileResponseWithRange http parseByteRanges disk response.mediaType
      (extractResponseHeaders response) requested

def under (raw : List HeaderPair) (name : String) : List HeaderPair :=
  raw.filter fun pair => pair.key = name

def computedHeaders (response : PyResponse) : List String :=
  match conversion response with
  | .plain => if isNoBody (statusOf response.statusCode) then ["content-length"] else []
  | .streaming => []
  | .file => entityHeaders

/-- Every pair arrives as often as it was given, in the order of those with its name. -/
def Carries (response : PyResponse) (headers : Multimap String (List UInt8)) : Prop :=
  ∀ name, name ∉ computedHeaders response →
    headers.getAll name = (under response.rawHeaders name).map HeaderPair.value

variable {http : HttpCrate}

theorem getAll_sendable (hvisible : http.Documented) (text : HeaderPair → String)
    (raw : List HeaderPair) (name : String) :
    (sendable http (raw.map fun pair => (pair.name, text pair))).getAll name =
      (under raw name).filterMap fun pair => http.headerValue (text pair) := by
  induction raw with
  | nil => rfl
  | cons pair rest ih =>
    have hname : http.headerName pair.name = some pair.key :=
      hvisible.name_token pair.name pair.name_token
    have hunder : under (pair :: rest) name =
        if pair.key = name then pair :: under rest name else under rest name := by
      by_cases hkey : pair.key = name <;> simp [under, hkey]
    cases hvalue : http.headerValue (text pair) with
    | none =>
      have hhead : sendable http ((pair :: rest).map fun pair => (pair.name, text pair)) =
          sendable http (rest.map fun pair => (pair.name, text pair)) := by
        simp [sendable, hvalue]
      rw [hhead, ih, hunder]
      split <;> simp [hvalue]
    | some value =>
      have hhead : sendable http ((pair :: rest).map fun pair => (pair.name, text pair)) =
          (pair.key, value) ::
            sendable http (rest.map fun pair => (pair.name, text pair)) := by
        simp [sendable, hname, hvalue]
      rw [hhead, Multimap.getAll_cons, ih, hunder]
      split <;> simp [hvalue]

theorem filterMap_eq_iff (sent : HeaderPair → Option (List UInt8)) (pairs : List HeaderPair) :
    pairs.filterMap sent = pairs.map HeaderPair.value ↔
      ∀ pair ∈ pairs, sent pair = some pair.value := by
  induction pairs with
  | nil => simp
  | cons pair rest ih =>
    rw [List.forall_mem_cons, List.map_cons]
    cases hsent : sent pair with
    | none =>
      refine iff_of_false (fun hsame => ?_) (by simp)
      have hle := List.length_filterMap_le sent rest
      have hlength := congrArg List.length hsame
      rw [List.filterMap_cons_none hsent, List.length_cons, List.length_map] at hlength
      omega
    | some value =>
      rw [List.filterMap_cons_some hsent, List.cons.injEq, ih, Option.some.injEq]

/-- `insert` keeps the last of the values. -/
theorem inserted_eq_iff (sent : HeaderPair → Option (List UInt8)) (pairs : List HeaderPair) :
    Multimap.joined .insert [] (pairs.filterMap sent) = pairs.map HeaderPair.value ↔
      pairs.length ≤ 1 ∧ ∀ pair ∈ pairs, sent pair = some pair.value := by
  match pairs with
  | [] => simp [Multimap.joined]
  | [pair] => cases hvisible : sent pair <;> simp [Multimap.joined, hvisible]
  | one :: other :: rest =>
    refine iff_of_false (fun hsame => ?_) (by simp)
    have hlength := congrArg List.length hsame
    simp only [Multimap.joined] at hlength
    cases hlast : ((one :: other :: rest).filterMap sent).getLast? <;> simp [hlast] at hlength

theorem under_length_le_one_iff (raw : List HeaderPair) :
    (∀ name, (under raw name).length ≤ 1) ↔ (raw.map HeaderPair.key).Nodup := by
  rw [List.nodup_iff_count_le_one]
  refine forall_congr' fun name => ?_
  rw [List.count_eq_countP, List.countP_map, List.countP_eq_length_filter, under]
  simp [Function.comp_def, beq_eq_decide]

/-- Every name is there once, and every value is sent as it is. -/
def Single (sent : HeaderPair → Option (List UInt8)) (pairs : List HeaderPair) : Prop :=
  (pairs.map HeaderPair.key).Nodup ∧ ∀ pair ∈ pairs, sent pair = some pair.value

theorem single_iff (sent : HeaderPair → Option (List UInt8)) (pairs : List HeaderPair) :
    (∀ name, (under pairs name).length ≤ 1 ∧
        ∀ pair ∈ under pairs name, sent pair = some pair.value) ↔ Single sent pairs := by
  rw [forall_and, under_length_le_one_iff]
  refine and_congr_right fun _ => ⟨fun hall pair hp => ?_, fun hall name pair hp => ?_⟩
  · exact hall pair.key pair (List.mem_filter.2 ⟨hp, decide_eq_true rfl⟩)
  · exact hall pair (List.mem_filter.1 hp).1

theorem getAll_responseObject (hhttp : http.Documented) {response : PyResponse}
    (hplain : conversion response = .plain) {name : String}
    (hname : name ∉ computedHeaders response) :
    (responseObjectToResponse http response).headers.getAll name =
      (under response.rawHeaders name).filterMap (HeaderPair.listed http) := by
  have hmerged : (Multimap.merge (fun _ => .append) []
      (Multimap.merge (fun _ => .append) [] (sendable http response.raw))).getAll name =
      (under response.rawHeaders name).filterMap (HeaderPair.listed http) := by
    rw [Multimap.getAll_merge, Multimap.getAll_merge, PyResponse.raw, getAll_sendable hhttp]
    rfl
  rw [← hmerged]
  simp only [computedHeaders, hplain] at hname
  simp only [responseObjectToResponse]
  split
  · next hnobody =>
    rw [if_pos hnobody, List.mem_singleton] at hname
    rw [Multimap.getAll_remove, if_neg hname]
  · rfl

theorem getAll_createStreaming (hhttp : http.Documented) (response : PyResponse) (name : String) :
    (createStreamingResponse http response).headers.getAll name =
      Multimap.joined .insert []
        ((under response.rawHeaders name).filterMap (HeaderPair.viewed http)) := by
  rw [createStreamingResponse, Multimap.getAll_merge, PyResponse.items, getAll_sendable hhttp]
  rfl

theorem forall_under_iff {raw : List HeaderPair} {names : List String} {hh : HeaderPair → Prop} :
    (∀ name, name ∉ names → ∀ pair ∈ under raw name, hh pair) ↔
      ∀ pair ∈ raw, pair.key ∉ names → hh pair := by
  constructor
  · intro hall pair hp hkey
    exact hall pair.key hkey pair (List.mem_filter.2 ⟨hp, decide_eq_true rfl⟩)
  · intro hall name hn pair hp
    obtain ⟨hraw, hkey⟩ := List.mem_filter.1 hp
    exact hall pair hraw (of_decide_eq_true hkey ▸ hn)

theorem plain_carries_iff (hhttp : http.Documented) {response : PyResponse}
    (hplain : conversion response = .plain) :
    Carries response (responseObjectToResponse http response).headers ↔
      ∀ pair ∈ response.rawHeaders, pair.key ∉ computedHeaders response →
        pair.listed http = some pair.value := by
  rw [← forall_under_iff]
  refine forall_congr' fun name => forall_congr' fun hname => ?_
  rw [getAll_responseObject hhttp hplain hname, filterMap_eq_iff]

theorem streaming_carries_iff (hhttp : http.Documented) {response : PyResponse}
    (hstreaming : conversion response = .streaming) :
    Carries response (createStreamingResponse http response).headers ↔
      Single (HeaderPair.viewed http) response.rawHeaders := by
  rw [← single_iff]
  simp only [Carries, computedHeaders, hstreaming, getAll_createStreaming hhttp, inserted_eq_iff,
    List.not_mem_nil, not_false_eq_true, true_implies]

def extraHeaders (raw : List HeaderPair) : List HeaderPair :=
  raw.filter fun pair => pair.key ∉ entityHeaders

theorem under_filter (raw : List HeaderPair) (names : List String) (name : String) :
    under (raw.filter fun pair => pair.key ∉ names) name =
      if name ∈ names then [] else under raw name := by
  unfold under
  rw [List.filter_filter]
  split
  · next hn =>
    refine List.filter_eq_nil_iff.2 fun pair _ hb => ?_
    simp only [Bool.and_eq_true, decide_eq_true_eq] at hb
    exact hb.2 (hb.1 ▸ hn)
  · next hn =>
    refine List.filter_congr fun pair _ => ?_
    by_cases hkey : pair.key = name <;> simp [hkey, hn]

theorem under_extraHeaders (raw : List HeaderPair) (name : String) :
    under (extraHeaders raw) name = if name ∈ entityHeaders then [] else under raw name :=
  under_filter raw entityHeaders name

theorem isField_wide {code : Nat} (hwide : 128 ≤ code) : isField code = true := by
  simp only [isField, Bool.or_eq_true, Bool.and_eq_true, decide_eq_true_eq, bne_iff_ne]
  exact .inr ⟨by omega, by omega⟩

theorem ascii_of_visible {code : Nat} (hvisible : isVisible code = true) : code < 128 := by
  simp only [isVisible, Bool.or_eq_true, Bool.and_eq_true, decide_eq_true_eq, beq_iff_eq]
    at hvisible
  omega

namespace HeaderPair

variable (pair : HeaderPair)

theorem field_of_mem {byte : UInt8} (hbyte : byte ∈ pair.value) : isField byte.toNat = true :=
  List.all_eq_true.1 pair.value_field byte hbyte

theorem listText_field : ∀ char ∈ pair.listText.toList, isField char.toNat = true := by
  rw [listText, String.toList_ofList]
  exact all_decodeLossyFrom (fun code => isField code = true) (fun _ => isField_wide) 0
    pair.value fun _ => pair.field_of_mem

theorem mem_viewText {char : Char} (hchar : char ∈ pair.viewText.toList) :
    ∃ byte ∈ pair.value, char.toNat = byte.toNat := by
  rw [viewText, String.toList_ofList] at hchar
  obtain ⟨byte, hbyte, rfl⟩ := List.mem_map.1 hchar
  exact ⟨byte, hbyte, toNat_ofNat_byte byte⟩

theorem viewText_field : ∀ char ∈ pair.viewText.toList, isField char.toNat = true := by
  intro char hchar
  obtain ⟨byte, hbyte, hcode⟩ := pair.mem_viewText hchar
  rw [hcode]
  exact pair.field_of_mem hbyte

theorem viewText_visible_iff :
    (∀ char ∈ pair.viewText.toList, isVisible char.toNat = true) ↔ pair.Visible := by
  constructor
  · intro htext byte hbyte
    have hchar := htext (Char.ofNat byte.toNat) (by
      rw [viewText, String.toList_ofList]
      exact List.mem_map_of_mem hbyte)
    rwa [toNat_ofNat_byte] at hchar
  · intro hvisible char hchar
    obtain ⟨byte, hbyte, hcode⟩ := pair.mem_viewText hchar
    rw [hcode]
    exact hvisible byte hbyte

theorem texts_eq (hvisible : pair.Visible) : pair.listText = pair.viewText := by
  rw [listText, viewText,
    decodeLossy_ascii fun byte hbyte => ascii_of_visible (hvisible byte hbyte)]

theorem listText_visible_iff :
    (∀ char ∈ pair.listText.toList, isVisible char.toNat = true) ↔ pair.Visible := by
  constructor
  · intro htext
    have hascii : ∀ byte ∈ pair.value, byte.toNat < 128 := by
      refine ascii_of_decodeLossy fun char hchar => ascii_of_visible (htext char ?_)
      rwa [listText, String.toList_ofList]
    rw [listText, decodeLossy_ascii hascii] at htext
    exact pair.viewText_visible_iff.1 htext
  · intro hvisible
    rw [pair.texts_eq hvisible]
    exact pair.viewText_visible_iff.2 hvisible

theorem viewed_of_visible (hhttp : http.Documented) (hvisible : pair.Visible) :
    pair.viewed http = some pair.value := by
  rw [viewed, hhttp.value_visible _ (pair.viewText_visible_iff.2 hvisible), viewText,
    String.toList_ofList, utf8_latin1 fun byte hbyte => ascii_of_visible (hvisible byte hbyte)]

theorem listed_of_visible (hhttp : http.Documented) (hvisible : pair.Visible) :
    pair.listed http = some pair.value := by
  rw [listed, pair.texts_eq hvisible]
  exact pair.viewed_of_visible hhttp hvisible

/-- Either both readings of a value are sent or neither is. -/
theorem isSome_viewed (hhttp : http.Documented) :
    (pair.viewed http).isSome = (pair.listed http).isSome := by
  by_cases hvisible : pair.Visible
  · rw [pair.viewed_of_visible hhttp hvisible, pair.listed_of_visible hhttp hvisible]
  · exact hhttp.value_alike _ _ pair.viewText_field pair.listText_field
      (mt pair.viewText_visible_iff.1 hvisible) (mt pair.listText_visible_iff.1 hvisible)

end HeaderPair

theorem length_viewed (hhttp : http.Documented) (pairs : List HeaderPair) :
    (pairs.filterMap (HeaderPair.viewed http)).length =
      (pairs.filterMap (HeaderPair.listed http)).length := by
  rw [List.length_filterMap_eq_countP, List.length_filterMap_eq_countP]
  exact List.countP_congr fun pair _ => by rw [pair.isSome_viewed hhttp]

/-- If a value is refused, only those of visible ASCII are sent. -/
theorem visible_of_listed (hhttp : http.Documented) {refused pair : HeaderPair}
    (hrefused : refused.listed http = none) (hpair : (pair.listed http).isSome = true) :
    pair.Visible := by
  by_contra hvisible
  have hother : ¬refused.Visible := by
    intro hsent
    rw [refused.listed_of_visible hhttp hsent] at hrefused
    cases hrefused
  have halike := hhttp.value_alike _ _ refused.listText_field pair.listText_field
    (mt refused.listText_visible_iff.1 hother) (mt pair.listText_visible_iff.1 hvisible)
  rw [← HeaderPair.listed, ← HeaderPair.listed, hrefused, hpair] at halike
  cases halike

/-- A cookie is appended for both of its readings. -/
theorem doubled_eq_iff (hhttp : http.Documented) (pairs : List HeaderPair) :
    pairs.filterMap (HeaderPair.viewed http) ++ pairs.filterMap (HeaderPair.listed http) =
        pairs.map HeaderPair.value ↔ pairs = [] := by
  refine ⟨fun hsame => ?_, fun hnil => hnil ▸ rfl⟩
  have hall : ∀ pair ∈ pairs, (pair.listed http).isSome = true := by
    intro refused hmem
    by_contra hnone
    rw [Bool.not_eq_true, Option.isSome_eq_false_iff, Option.isNone_iff_eq_none] at hnone
    -- The value of a refused pair would be among those of visible pairs.
    have hvalue : refused.value ∈ pairs.map HeaderPair.value := List.mem_map_of_mem hmem
    rw [← hsame, List.mem_append, List.mem_filterMap, List.mem_filterMap] at hvalue
    have hsent : ∃ pair : HeaderPair, pair.Visible ∧ pair.value = refused.value := by
      rcases hvalue with ⟨pair, -, hviewed⟩ | ⟨pair, -, hlisted⟩
      · have hvisible : pair.Visible := visible_of_listed hhttp hnone (by
          rw [← pair.isSome_viewed hhttp, hviewed]
          rfl)
        rw [pair.viewed_of_visible hhttp hvisible] at hviewed
        exact ⟨pair, hvisible, Option.some.inj hviewed⟩
      · have hvisible : pair.Visible := visible_of_listed hhttp hnone (by
          rw [hlisted]
          rfl)
        rw [pair.listed_of_visible hhttp hvisible] at hlisted
        exact ⟨pair, hvisible, Option.some.inj hlisted⟩
    obtain ⟨pair, hvisible, hsame⟩ := hsent
    have hrefused : refused.Visible := by
      unfold HeaderPair.Visible at hvisible ⊢
      rwa [← hsame]
    rw [refused.listed_of_visible hhttp hrefused] at hnone
    cases hnone
  have hlength := congrArg List.length hsame
  rw [List.length_append, List.length_map, length_viewed hhttp,
    List.length_filterMap_eq_countP, List.countP_eq_length.2 hall] at hlength
  exact List.length_eq_zero_iff.1 (by omega)

theorem joined_insert_twice (hhttp : http.Documented) (pairs : List HeaderPair) :
    Multimap.joined .insert [] (pairs.filterMap (HeaderPair.viewed http) ++
        pairs.filterMap (HeaderPair.listed http)) =
      Multimap.joined .insert [] (pairs.filterMap (HeaderPair.listed http)) := by
  rw [Multimap.joined, Multimap.joined, List.getLast?_append]
  have hlength := length_viewed hhttp pairs
  cases hlisted : pairs.filterMap (HeaderPair.listed http) with
  | nil =>
    rw [hlisted, List.length_nil, List.length_eq_zero_iff] at hlength
    rw [hlength]
    rfl
  | cons value rest => rw [List.getLast?_cons, Option.some_or]

theorem getAll_entity {entity : Multimap String (List UInt8)}
    (he : ∀ pair ∈ entity, pair.1 ∈ entityHeaders) {name : String}
    (hn : name ∉ entityHeaders) : entity.getAll name = [] := by
  refine Multimap.getAll_eq_nil fun hmem => ?_
  obtain ⟨pair, hp, rfl⟩ := List.mem_map.1 hmem
  exact hn (he pair hp)

theorem getAll_applyExtraFileHeaders (hhttp : http.Documented) (response : PyResponse)
    {entity : Multimap String (List UInt8)} (he : ∀ pair ∈ entity, pair.1 ∈ entityHeaders)
    {name : String} (hn : name ∉ entityHeaders) :
    (applyExtraFileHeaders http entity (extractResponseHeaders response)).getAll name =
      Multimap.joined (if name = "set-cookie" then .append else .insert) []
        ((under response.rawHeaders name).filterMap (HeaderPair.viewed http) ++
          (under response.rawHeaders name).filterMap (HeaderPair.listed http)) := by
  have hboth : sendable http (extractResponseHeaders response) =
      sendable http response.items ++ sendable http response.raw :=
    List.filterMap_append
  rw [applyExtraFileHeaders, Multimap.getAll_merge, getAll_entity he hn, hboth,
    Multimap.getAll_concat, PyResponse.items, PyResponse.raw, getAll_sendable hhttp,
    getAll_sendable hhttp, fileJoining, if_neg hn]
  rfl

/-- The file conversion passes each other header on once, but for a cookie, which it
repeats. -/
def FileSafe (http : HttpCrate) (raw : List HeaderPair) : Prop :=
  Single (HeaderPair.listed http) (extraHeaders raw) ∧
    ∀ pair ∈ extraHeaders raw, pair.key ≠ "set-cookie"

theorem fileSafe_iff (raw : List HeaderPair) :
    FileSafe http raw ↔ ∀ name, name ∉ entityHeaders →
      if name = "set-cookie" then under raw name = []
      else (under raw name).length ≤ 1 ∧
        ∀ pair ∈ under raw name, pair.listed http = some pair.value := by
  unfold FileSafe
  rw [← single_iff]
  constructor
  · rintro ⟨hs, hc⟩ name hn
    have hu := under_extraHeaders raw name
    rw [if_neg hn] at hu
    split
    · next hset =>
      rw [← hu]
      refine List.filter_eq_nil_iff.2 fun pair hp hkey => hc pair hp ?_
      exact (of_decide_eq_true hkey).trans hset
    · rw [← hu]
      exact hs name
  · intro hall
    refine ⟨fun name => ?_, fun pair hp hkey => ?_⟩
    · rw [under_extraHeaders]
      split
      · simp
      · next hn =>
        have hat := hall name hn
        split at hat
        · simp [hat]
        · exact hat
    · have hnone := hall "set-cookie" (by decide)
      have hmem : pair ∈ under raw "set-cookie" :=
        List.mem_filter.2 ⟨(List.mem_filter.1 hp).1, decide_eq_true hkey⟩
      rw [hnone] at hmem
      cases hmem

section Files

variable (http : HttpCrate) (parseByteRanges : String → Nat → RangeOutcome) (disk : Disk)
  (requested : RangeHeaders)

def served : Bool :=
  match disk.stat with
  | .file total lastModified etag =>
    match (effectiveRange requested lastModified etag).map (parseByteRanges · total) with
    | some .unsatisfiable | some (.malformed _) => false
    | some (.multi ranges) => ranges.length != 1 || disk.readError.isNone
    | some (.single _ _) | none => disk.readError.isNone
  | _ => false

/-- The headers of a file response: those of the entity, and the other ones merged into
them if the file is served. -/
def FileHeaders (ok : Bool) (extra : List (String × String))
    (headers : Multimap String (List UInt8)) : Prop :=
  ∃ entity : Multimap String (List UInt8), (∀ pair ∈ entity, pair.1 ∈ entityHeaders) ∧
    headers = if ok then applyExtraFileHeaders http entity extra else entity

theorem fileHeaders_textResponse (status : Nat) (extra : List (String × String)) :
    FileHeaders http false extra (textResponse status).headers :=
  ⟨_, by simp [textResponse, entry, entityHeaders], rfl⟩

theorem fileHeaders_wholeOrSingle (extra : List (String × String)) (ct lastModified etag : String)
    (total : Nat) (range : Option (Nat × Nat)) :
    FileHeaders http disk.readError.isNone extra
      (wholeOrSingle http disk extra ct lastModified etag total range).headers := by
  unfold wholeOrSingle
  cases disk.readError with
  | some error => exact fileHeaders_textResponse http 500 extra
  | none => cases range <;> exact ⟨_, by simp [entry, entityHeaders], rfl⟩

theorem fileHeaders_fileResponse (mediaType : Option String) (extra : List (String × String)) :
    FileHeaders http (served parseByteRanges disk requested) extra
      (fileResponseWithRange http parseByteRanges disk mediaType extra requested).headers := by
  unfold fileResponseWithRange served
  cases disk.stat with
  | notFound | failed error | notAFile => exact fileHeaders_textResponse http _ extra
  | file total lastModified etag =>
    dsimp only
    generalize (effectiveRange requested lastModified etag).map (parseByteRanges · total) = outcome
    match outcome with
    | none => exact fileHeaders_wholeOrSingle http disk extra _ _ _ _ none
    | some (.single start finish) | some (.multi [range]) =>
      exact fileHeaders_wholeOrSingle http disk extra _ _ _ _ _
    | some .unsatisfiable | some (.malformed reason) | some (.multi [])
    | some (.multi (_ :: _ :: _)) => exact ⟨_, by simp [entry, entityHeaders], rfl⟩

variable {http}

theorem file_carries_iff (hhttp : http.Documented) {response : PyResponse}
    (hf : conversion response = .file) :
    Carries response (fileResponseWithRange http parseByteRanges disk response.mediaType
        (extractResponseHeaders response) requested).headers ↔
      if served parseByteRanges disk requested then FileSafe http response.rawHeaders
      else extraHeaders response.rawHeaders = [] := by
  obtain ⟨entity, he, hh⟩ := fileHeaders_fileResponse http parseByteRanges disk requested
    response.mediaType (extractResponseHeaders response)
  rw [hh]
  simp only [Carries, computedHeaders, hf]
  cases served parseByteRanges disk requested with
  | true =>
    simp only [if_true]
    rw [fileSafe_iff]
    refine forall_congr' fun name => forall_congr' fun hn => ?_
    rw [getAll_applyExtraFileHeaders hhttp response he hn]
    split
    · exact doubled_eq_iff hhttp _
    · rw [joined_insert_twice hhttp, inserted_eq_iff]
  | false =>
    simp only [Bool.false_eq_true, if_false]
    constructor
    · intro hc
      refine List.filter_eq_nil_iff.2 fun pair hp hkey => ?_
      have hn : pair.key ∉ entityHeaders := of_decide_eq_true hkey
      have hnone := hc pair.key hn
      rw [getAll_entity he hn, eq_comm, List.map_eq_nil_iff, under, List.filter_eq_nil_iff] at hnone
      exact hnone pair hp (decide_eq_true rfl)
    · intro hextra name hn
      have hu := under_extraHeaders response.rawHeaders name
      rw [if_neg hn, hextra] at hu
      rw [getAll_entity he hn, ← hu]
      rfl

variable (http)

/-- What a response has to be like for all of its headers to arrive. -/
def Whole (response : PyResponse) : Prop :=
  match conversion response with
  | .plain =>
    ∀ pair ∈ response.rawHeaders, pair.key ∉ computedHeaders response →
      pair.listed http = some pair.value
  | .streaming => Single (HeaderPair.viewed http) response.rawHeaders
  | .file =>
    if served parseByteRanges disk requested then FileSafe http response.rawHeaders
    else extraHeaders response.rawHeaders = []

variable {http}

theorem headers_carried_iff (hconversion : http.Documented) (response : PyResponse) :
    Carries response
        (pyToResponseWithRequest http parseByteRanges disk requested response).headers ↔
      Whole http parseByteRanges disk requested response := by
  unfold pyToResponseWithRequest Whole
  cases hc : conversion response with
  | plain => exact plain_carries_iff hconversion hc
  | streaming => exact streaming_carries_iff hconversion hc
  | file => exact file_carries_iff parseByteRanges disk requested hconversion hc

end Files

def cookie (text : String)
    (hfield : (utf8 text.toList).all (fun byte => isField byte.toNat) = true) : HeaderPair :=
  ⟨"set-cookie", utf8 text.toList, by decide, hfield⟩

def twoCookies (cls : ResponseClass) : PyResponse where
  cls := cls
  statusCode := 200
  rawHeaders := [cookie "a=1" (by decide), cookie "b=2" (by decide)]
  path := if cls = .file then some "/srv/report.csv" else none
  bodyIterator := cls = .streaming
  mediaType := none

def plainFile : Disk :=
  ⟨.file 4 "Mon, 01 Jan 2024 00:00:00 GMT" "\"0\"", none, "b"⟩

def httpCrate : HttpCrate where
  headerName name := if isToken name then some (lowercase name) else none
  headerValue text :=
    if text.toList.all fun char => isField char.toNat then some (utf8 text.toList) else none

theorem httpCrate_documented : httpCrate.Documented where
  name_token name htoken := if_pos htoken
  value_visible text hvisible := by
    refine if_pos (List.all_eq_true.2 fun char hchar => ?_)
    have hcode := hvisible char hchar
    simp only [isVisible, isField, Bool.or_eq_true, Bool.and_eq_true, decide_eq_true_eq,
      beq_iff_eq, bne_iff_ne] at hcode ⊢
    omega
  value_alike one other hone hother _ _ := by
    have htaken : ∀ text : String, (∀ char ∈ text.toList, isField char.toNat = true) →
        (httpCrate.headerValue text).isSome = true := by
      intro text hfield
      simpa [httpCrate] using hfield
    rw [htaken one hone, htaken other hother]

theorem two_cookies_carried :
    Carries (twoCookies .json) (pyToResponseWithRequest httpCrate (fun _ _ => .unsatisfiable)
      plainFile ⟨none, none⟩ (twoCookies .json)).headers := by
  refine (headers_carried_iff _ _ _ httpCrate_documented _).2 fun pair hmem _ => ?_
  revert pair
  decide

/-- A streaming response loses the first of them, and a file response repeats both. -/
theorem cookies_lost_and_repeated :
    ((pyToResponseWithRequest httpCrate (fun _ _ => .unsatisfiable) plainFile ⟨none, none⟩
        (twoCookies .json)).headers.getAll "set-cookie" =
          [utf8 "a=1".toList, utf8 "b=2".toList] ∧
      (pyToResponseWithRequest httpCrate (fun _ _ => .unsatisfiable) plainFile ⟨none, none⟩
        (twoCookies .streaming)).headers.getAll "set-cookie" = [utf8 "b=2".toList]) ∧
      (pyToResponseWithRequest httpCrate (fun _ _ => .unsatisfiable) plainFile ⟨none, none⟩
        (twoCookies .file)).headers.getAll "set-cookie" =
          [utf8 "a=1".toList, utf8 "b=2".toList, utf8 "a=1".toList, utf8 "b=2".toList] := by
  decide

end FastapiTurbo.ResponseHeaders
