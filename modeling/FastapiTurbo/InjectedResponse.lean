import FastapiTurbo.ResponseHeaders

/-! The `Response` that a handler or a dependency is given to set a status and headers on
(`apply_injected_response` in `router.rs`), and the response it is merged into. -/
namespace FastapiTurbo.InjectedResponse

open Lib ResponseHeaders List

/-- The injected `Response`.  It begins without a status, and its `headers` is a view of
`raw_headers` and no dict. -/
structure Shell where
  statusCode : Option Nat
  rawHeaders : List HeaderPair

def validStatus (code : Nat) : Bool :=
  100 ≤ code && code < 1000

def overridden (statusCode : Option Nat) (status : Nat) : Nat :=
  match statusCode with
  | some code => if validStatus code then code else status
  | none => status

def applyInjectedResponse (http : HttpCrate) (shell : Option Shell) (response : Response) :
    Response :=
  match shell with
  | none => response
  | some shell =>
    let status := overridden shell.statusCode response.status
    let headers := response.headers.merge (fun _ => .append)
      (sendable http (shell.rawHeaders.map fun pair => (pair.name, pair.listText)))
    ⟨status, if isNoBody status then headers.remove "content-length" else headers⟩

/-- What `py_to_response_with_request` sees in a value that is no `Response`. -/
inductive Kind where
  /-- A dict, a list, a tuple or `None`, or a model or dataclass that is dumped to one. -/
  | container
  /-- A set, a number, a string or an object with a `__dict__`. -/
  | scalar
  /-- Anything else, which is sent as its `str`. -/
  | text
  /-- An object with a `status_code`. -/
  | responseLike (response : PyResponse)

inductive Result (α : Type) where
  | response (response : PyResponse)
  | value (value : α)

/-- A route of the adapter: its status, the `validate` and `serialize` of its response
field, and the constructor of a custom response class. -/
structure Route (ε α : Type) where
  statusCode : Option Nat
  responseField : Option (α → Except ε α)
  responseClass : Option (α → Option Nat → PyResponse)

variable {ε α : Type}

def serializeViaField (route : Route ε α) (value : α) : Except ε α :=
  match route.responseField with
  | some serialize => serialize value
  | none => .ok value

def finish (route : Route ε α) : Result α → Except ε (Result α)
  | .response response => .ok (.response response)
  | .value value => do
      let value ← serializeViaField route value
      match route.responseClass with
      | some customRc => pure (.response (customRc value route.statusCode))
      | none => pure (.value value)

def routeDefaultStatus (statusCode : Option Nat) : Nat :=
  match statusCode with
  | some code => if validStatus code then code else 200
  | none => 200

section Convert

variable (http : HttpCrate) (parseByteRanges : String → Nat → RangeOutcome) (disk : Disk)
  (requested : RangeHeaders)

/-- `py_to_response_with_request` on a value.  A status without a body strips a container
at once where no shell can still change it. -/
def valueToResponse (statusCode : Option Nat) (hasShell : Bool) (kind : Kind) : Response :=
  let status := routeDefaultStatus statusCode
  match kind with
  | .container =>
    if isNoBody status && !hasShell then ⟨status, []⟩
    else ⟨status, [entry "content-type" "application/json"]⟩
  | .scalar => ⟨status, [entry "content-type" "application/json"]⟩
  | .text => ⟨status, [entry "content-type" "text/plain"]⟩
  | .responseLike response => pyToResponseWithRequest http parseByteRanges disk requested response

def converted (kindOf : α → Kind) (statusCode : Option Nat) (shell : Option Shell) :
    Result α → Response
  | .response response => pyToResponseWithRequest http parseByteRanges disk requested response
  | .value value =>
    valueToResponse http parseByteRanges disk requested statusCode shell.isSome (kindOf value)

def respond (kindOf : α → Kind) (route : Route ε α) (shell : Option Shell) (result : Result α) :
    Except ε Response := do
  let finished ← finish route result
  pure (applyInjectedResponse http shell
    (converted http parseByteRanges disk requested kindOf route.statusCode shell finished))

end Convert

def shellStatus (shell : Option Shell) : Option Nat :=
  shell.bind Shell.statusCode

def shellHeaders (shell : Option Shell) : List HeaderPair :=
  shell.elim [] Shell.rawHeaders

def stripped (status : Nat) : List String :=
  if isNoBody status then ["content-length"] else []

/-- The headers are those of the response before the merge, followed by some more. -/
def Follows (base sent : Response) (more : List HeaderPair) : Prop :=
  ∀ name, name ∉ stripped sent.status →
    sent.headers.getAll name =
      base.headers.getAll name ++ (under more name).map HeaderPair.value

section Merge

variable {http : HttpCrate} (shell : Option Shell) (base : Response)

theorem status_apply :
    (applyInjectedResponse http shell base).status =
      overridden (shellStatus shell) base.status := by
  cases shell with
  | none => rfl
  | some shell => rfl

theorem getAll_apply (hhttp : http.Documented) {name : String}
    (hname : name ∉ stripped (applyInjectedResponse http shell base).status) :
    (applyInjectedResponse http shell base).headers.getAll name =
      base.headers.getAll name ++
        (under (shellHeaders shell) name).filterMap (HeaderPair.listed http) := by
  cases shell with
  | none => exact (append_nil _).symm
  | some shell =>
    have hmerged : (base.headers.merge (fun _ => .append)
        (sendable http (shell.rawHeaders.map fun pair => (pair.name, pair.listText)))).getAll name =
          base.headers.getAll name ++
            (under shell.rawHeaders name).filterMap (HeaderPair.listed http) := by
      rw [Multimap.getAll_merge, getAll_sendable hhttp]
      rfl
    refine Eq.trans ?_ hmerged
    simp only [applyInjectedResponse] at hname ⊢
    generalize overridden shell.statusCode base.status = status at hname ⊢
    split
    · next hnobody =>
      rw [stripped, if_pos hnobody, mem_singleton] at hname
      rw [Multimap.getAll_remove, if_neg hname]
    · rfl

theorem follows_shell_iff (hhttp : http.Documented) :
    Follows base (applyInjectedResponse http shell base) (shellHeaders shell) ↔
      ∀ pair ∈ shellHeaders shell,
        pair.key ∉ stripped (applyInjectedResponse http shell base).status →
          pair.listed http = some pair.value := by
  rw [← forall_under_iff]
  refine forall_congr' fun name => forall_congr' fun hname => ?_
  rw [getAll_apply shell base hhttp hname, append_cancel_left_eq, filterMap_eq_iff]

theorem follows_nil_iff (hhttp : http.Documented) :
    Follows base (applyInjectedResponse http shell base) [] ↔
      ∀ pair ∈ shellHeaders shell,
        pair.key ∉ stripped (applyInjectedResponse http shell base).status →
          pair.listed http = none := by
  rw [← forall_under_iff]
  refine forall_congr' fun name => forall_congr' fun hname => ?_
  have hnone : (under [] name).map HeaderPair.value = [] := rfl
  rw [getAll_apply shell base hhttp hname, hnone]
  simp

end Merge

section Object

variable (http : HttpCrate) (parseByteRanges : String → Nat → RangeOutcome) (disk : Disk)
  (requested : RangeHeaders)

def fileStatus : Nat :=
  match disk.stat with
  | .notFound => 404
  | .failed _ | .notAFile => 500
  | .file total lastModified etag =>
    match (effectiveRange requested lastModified etag).map (parseByteRanges · total) with
    | some .unsatisfiable => 416
    | some (.malformed _) => 400
    | some (.multi ranges) => if ranges.length = 1 ∧ disk.readError.isSome then 500 else 206
    | some (.single _ _) => if disk.readError.isSome then 500 else 206
    | none => if disk.readError.isSome then 500 else 200

def wholeFile : Bool :=
  match disk.stat with
  | .file _ lastModified etag =>
    (effectiveRange requested lastModified etag).isNone && disk.readError.isNone
  | _ => false

def objectStatus (response : PyResponse) : Nat :=
  match conversion response with
  | .file => fileStatus parseByteRanges disk requested
  | _ => statusOf response.statusCode

/-- The status is the object's, but for a file of which a part or an error is sent. -/
def KeepsStatus (response : PyResponse) (status : Nat) : Prop :=
  (conversion response = .file → wholeFile disk requested = true) → status = response.statusCode

def OwnHeaders (response : PyResponse) (base : Response) (status : Nat) : Prop :=
  ∀ name, name ∉ computedHeaders response → name ∉ stripped status →
    base.headers.getAll name = (under response.rawHeaders name).map HeaderPair.value

/-- What an object's status must be to be sent: a file response always has 200. -/
def StatusKept (response : PyResponse) : Prop :=
  match conversion response with
  | .file => wholeFile disk requested = true → response.statusCode = 200
  | _ => validStatus response.statusCode = true

def compared (response : PyResponse) (status : Nat) : PyResponse :=
  { response with rawHeaders := response.rawHeaders.filter fun pair => pair.key ∉ stripped status }

theorem status_wholeOrSingle (extra : List (String × String)) (ct lastModified etag : String)
    (total : Nat) (range : Option (Nat × Nat)) :
    (wholeOrSingle http disk extra ct lastModified etag total range).status =
      if disk.readError.isSome then 500 else if range.isSome then 206 else 200 := by
  unfold wholeOrSingle
  cases disk.readError with
  | some error => rfl
  | none => cases range <;> rfl

private theorem status_fileResponse (mediaType : Option String) (extra : List (String × String)) :
    (fileResponseWithRange http parseByteRanges disk mediaType extra requested).status =
      fileStatus parseByteRanges disk requested := by
  unfold fileResponseWithRange fileStatus
  cases disk.stat with
  | notFound | failed error | notAFile => rfl
  | file total lastModified etag =>
    dsimp only
    generalize (effectiveRange requested lastModified etag).map (parseByteRanges · total) = outcome
    match outcome with
    | none => exact status_wholeOrSingle http disk extra _ _ _ _ none
    | some (.single start finish) => exact status_wholeOrSingle http disk extra _ _ _ _ _
    | some .unsatisfiable | some (.malformed reason) => rfl
    | some (.multi [range]) => simp [status_wholeOrSingle]
    | some (.multi []) => rfl
    | some (.multi (_ :: _ :: _)) => simp

theorem status_pyToResponse (response : PyResponse) :
    (pyToResponseWithRequest http parseByteRanges disk requested response).status =
      objectStatus parseByteRanges disk requested response := by
  unfold pyToResponseWithRequest objectStatus
  cases conversion response with
  | plain | streaming => rfl
  | file => exact status_fileResponse http parseByteRanges disk requested _ _

theorem validStatus_statusOf (code : Nat) : validStatus (statusOf code) = true := by
  unfold statusOf validStatus
  split
  · rfl
  · split <;> simp_all

private theorem validStatus_fileStatus :
    validStatus (fileStatus parseByteRanges disk requested) = true := by
  unfold fileStatus
  repeat' split
  all_goals rfl

theorem validStatus_objectStatus (response : PyResponse) :
    validStatus (objectStatus parseByteRanges disk requested response) = true := by
  unfold objectStatus
  split
  · exact validStatus_fileStatus parseByteRanges disk requested
  · exact validStatus_statusOf _

theorem statusOf_eq_iff (code : Nat) : statusOf code = code ↔ validStatus code = true := by
  constructor
  · intro hs
    rw [← hs]
    exact validStatus_statusOf code
  · intro hv
    simp only [validStatus, Bool.and_eq_true, decide_eq_true_eq] at hv
    rw [statusOf, if_neg (by omega), if_pos hv]

private theorem fileStatus_of_whole (hw : wholeFile disk requested = true) :
    fileStatus parseByteRanges disk requested = 200 := by
  unfold wholeFile at hw
  unfold fileStatus
  split at hw
  · next hs =>
    simp only [Bool.and_eq_true, Option.isNone_iff_eq_none] at hw
    rw [hs]
    simp [hw.1, hw.2]
  · cases hw

theorem keepsStatus_iff (response : PyResponse) :
    KeepsStatus disk requested response (objectStatus parseByteRanges disk requested response) ↔
      StatusKept disk requested response := by
  unfold KeepsStatus objectStatus StatusKept
  cases conversion response with
  | plain | streaming => simpa using statusOf_eq_iff response.statusCode
  | file =>
    simp only [true_implies]
    refine forall_congr' fun hw => ?_
    rw [fileStatus_of_whole parseByteRanges disk requested hw, eq_comm]

theorem mem_entityHeaders_of_stripped {status : Nat} {name : String}
    (hn : name ∈ stripped status) : name ∈ entityHeaders := by
  unfold stripped at hn
  split at hn
  · rw [mem_singleton.1 hn]
    decide
  · cases hn

private theorem extraHeaders_compared (response : PyResponse) (status : Nat) :
    extraHeaders (compared response status).rawHeaders = extraHeaders response.rawHeaders := by
  unfold extraHeaders compared
  rw [filter_filter]
  refine filter_congr fun pair _ => ?_
  by_cases hkey : pair.key ∈ entityHeaders
  · simp [hkey]
  · have hk : pair.key ∉ stripped status :=
      fun hs => hkey (mem_entityHeaders_of_stripped hs)
    simp [hk]

theorem ownHeaders_iff (hconversion : http.Documented) (response : PyResponse) (status : Nat) :
    OwnHeaders response
      (pyToResponseWithRequest http parseByteRanges disk requested response) status ↔
      Whole http parseByteRanges disk requested (compared response status) := by
  have hsame : conversion (compared response status) = conversion response := rfl
  unfold OwnHeaders pyToResponseWithRequest Whole
  rw [hsame]
  cases hc : conversion response with
  | plain =>
    have hs : (∀ name, name ∉ computedHeaders response ++ stripped status →
        (responseObjectToResponse http response).headers.getAll name =
          (under response.rawHeaders name).map HeaderPair.value) ↔
        ∀ pair ∈ response.rawHeaders, pair.key ∉ computedHeaders response ++ stripped status →
          pair.listed http = some pair.value := by
      rw [← forall_under_iff]
      refine forall_congr' fun name => forall_congr' fun hn => ?_
      rw [getAll_responseObject hconversion hc fun hmem => hn (mem_append_left _ hmem),
        filterMap_eq_iff]
    simp only [mem_append, not_or, and_imp] at hs
    rw [hs]
    constructor
    · intro hall pair hp hkey
      obtain ⟨hraw, hk⟩ := mem_filter.1 hp
      exact hall pair hraw hkey (of_decide_eq_true hk)
    · intro hall pair hp hkey hk
      exact hall pair (mem_filter.2 ⟨hp, decide_eq_true hk⟩) hkey
  | streaming =>
    have hnone : computedHeaders response = [] := by simp [computedHeaders, hc]
    rw [← single_iff, hnone]
    refine forall_congr' fun name => ?_
    rw [getAll_createStreaming hconversion, inserted_eq_iff]
    have hu : under (compared response status).rawHeaders name =
        if name ∈ stripped status then [] else under response.rawHeaders name :=
      under_filter response.rawHeaders (stripped status) name
    rw [hu]
    by_cases hn : name ∈ stripped status
    · simp [hn]
    · simp [hn]
  | file =>
    have hf := file_carries_iff parseByteRanges disk requested hconversion hc
    simp only [Carries] at hf
    have he := extraHeaders_compared response status
    simp only [FileSafe, he] at hf ⊢
    rw [← hf, computedHeaders, hc]
    refine forall_congr' fun name => forall_congr' fun hn => ?_
    exact ⟨fun ho => ho fun hstripped => hn (mem_entityHeaders_of_stripped hstripped),
      fun ho _ => ho⟩

end Object

section Expected

variable (http : HttpCrate) (parseByteRanges : String → Nat → RangeOutcome) (disk : Disk)
  (requested : RangeHeaders)

structure Unaffected (response : PyResponse) (sent : Response) : Prop where
  status : sent.status =
    (pyToResponseWithRequest http parseByteRanges disk requested response).status
  headers : Follows (pyToResponseWithRequest http parseByteRanges disk requested response) sent []
  own_status : KeepsStatus disk requested response sent.status
  own_headers : OwnHeaders response
    (pyToResponseWithRequest http parseByteRanges disk requested response) sent.status

/-- A response that the response class of the route made is sent with the shell. -/
structure Merged (shell : Option Shell) (response : PyResponse) (sent : Response) : Prop where
  status : match shellStatus shell with
    | some code => sent.status = code
    | none => KeepsStatus disk requested response sent.status
  headers : Follows (pyToResponseWithRequest http parseByteRanges disk requested response) sent
    (shellHeaders shell)
  own_headers : OwnHeaders response
    (pyToResponseWithRequest http parseByteRanges disk requested response) sent.status

/-- A value is sent with the status of the shell or else of the route, and the headers of
the shell behind those it is rendered with. -/
structure Rendered (statusCode : Option Nat) (shell : Option Shell) (base sent : Response) :
    Prop where
  status : sent.status = (shellStatus shell).getD (statusCode.getD 200)
  headers : Follows base sent (shellHeaders shell)

/-- What is to be sent for the result of a handler, given what it was finished to. -/
def Expected (kindOf : α → Kind) (statusCode : Option Nat) (shell : Option Shell)
    (result finished : Result α) (sent : Response) : Prop :=
  match result, finished with
  | .response response, _ => Unaffected http parseByteRanges disk requested response sent
  | .value _, .response response => Merged http parseByteRanges disk requested shell response sent
  | .value _, .value value =>
    Rendered statusCode shell
      (valueToResponse http parseByteRanges disk requested statusCode shell.isSome (kindOf value))
      sent

/-- The shell has nothing that could be sent, or only the status of the response. -/
structure Silent (http : HttpCrate) (shell : Option Shell) (status : Nat) : Prop where
  same_status : ∀ code, shellStatus shell = some code → validStatus code = true → code = status
  headers : ∀ pair ∈ shellHeaders shell, pair.key ∉ stripped status → pair.listed http = none

structure Sendable (http : HttpCrate) (shell : Option Shell) (status : Nat) : Prop where
  valid_status : ∀ code, shellStatus shell = some code → validStatus code = true
  headers : ∀ pair ∈ shellHeaders shell, pair.key ∉ stripped status →
    pair.listed http = some pair.value

def Fits (statusCode : Option Nat) (shell : Option Shell) : Result α → Result α → Prop
  | .response response, _ =>
    let status := objectStatus parseByteRanges disk requested response
    StatusKept disk requested response ∧
      Whole http parseByteRanges disk requested (compared response status) ∧
      Silent http shell status
  | .value _, .response response =>
    let status := (shellStatus shell).getD (objectStatus parseByteRanges disk requested response)
    (shellStatus shell = none → StatusKept disk requested response) ∧
      Whole http parseByteRanges disk requested (compared response status) ∧
      Sendable http shell status
  | .value _, .value _ =>
    let status := (shellStatus shell).getD (statusCode.getD 200)
    (shellStatus shell = none → validStatus (statusCode.getD 200) = true) ∧
      Sendable http shell status

theorem unaffected_iff (hhttp : http.Documented) (shell : Option Shell) (response : PyResponse) :
    Unaffected http parseByteRanges disk requested response (applyInjectedResponse http shell
        (pyToResponseWithRequest http parseByteRanges disk requested response)) ↔
      StatusKept disk requested response ∧
        Whole http parseByteRanges disk requested
          (compared response (objectStatus parseByteRanges disk requested response)) ∧
        Silent http shell (objectStatus parseByteRanges disk requested response) := by
  have hb := status_pyToResponse http parseByteRanges disk requested response
  have hstatus := @status_apply http shell
    (pyToResponseWithRequest http parseByteRanges disk requested response)
  rw [hb] at hstatus
  constructor
  · rintro ⟨hs, hh, hown, hw⟩
    rw [hb] at hs
    rw [follows_nil_iff _ _ hhttp, hs] at hh
    rw [hs] at hown hw
    refine ⟨(keepsStatus_iff parseByteRanges disk requested response).1 hown,
      (ownHeaders_iff http parseByteRanges disk requested hhttp response _).1 hw, ?_, hh⟩
    intro code hc hv
    rw [hc, hs, overridden, if_pos hv] at hstatus
    exact hstatus.symm
  · rintro ⟨hk, hw, hc, hhidden⟩
    have hs : (applyInjectedResponse http shell
        (pyToResponseWithRequest http parseByteRanges disk requested response)).status =
          objectStatus parseByteRanges disk requested response := by
      rw [hstatus]
      unfold overridden
      split
      · next code hset =>
        split
        · next hv => exact hc code hset hv
        · rfl
      · rfl
    refine ⟨hs.trans hb.symm, ?_, ?_, ?_⟩
    · rw [follows_nil_iff _ _ hhttp, hs]
      exact hhidden
    · rw [hs]
      exact (keepsStatus_iff parseByteRanges disk requested response).2 hk
    · rw [hs]
      exact (ownHeaders_iff http parseByteRanges disk requested hhttp response _).2 hw

theorem status_of_sendable {shell : Option Shell} (base : Response)
    (hv : ∀ code, shellStatus shell = some code → validStatus code = true) :
    (applyInjectedResponse http shell base).status = (shellStatus shell).getD base.status := by
  rw [status_apply]
  cases hset : shellStatus shell with
  | none => rfl
  | some code =>
    rw [overridden, if_pos (hv code hset)]
    rfl

theorem validStatus_of_sent {shell : Option Shell} {base : Response}
    (hb : validStatus base.status = true) {code : Nat} (hset : shellStatus shell = some code)
    (hs : (applyInjectedResponse http shell base).status = code) : validStatus code = true := by
  rw [status_apply, hset, overridden] at hs
  split at hs
  · next hv => exact hv
  · rw [← hs]
    exact hb

theorem merged_iff (hhttp : http.Documented) (shell : Option Shell) (response : PyResponse) :
    Merged http parseByteRanges disk requested shell response (applyInjectedResponse http shell
        (pyToResponseWithRequest http parseByteRanges disk requested response)) ↔
      (shellStatus shell = none → StatusKept disk requested response) ∧
        Whole http parseByteRanges disk requested (compared response
          ((shellStatus shell).getD (objectStatus parseByteRanges disk requested response))) ∧
        Sendable http shell
          ((shellStatus shell).getD (objectStatus parseByteRanges disk requested response)) := by
  have hb := status_pyToResponse http parseByteRanges disk requested response
  constructor
  · rintro ⟨hstatus, hh, hw⟩
    have hv : ∀ code, shellStatus shell = some code → validStatus code = true := by
      intro code hset
      rw [hset] at hstatus
      refine validStatus_of_sent http ?_ hset hstatus
      rw [hb]
      exact validStatus_objectStatus parseByteRanges disk requested response
    have hs := status_of_sendable http
      (pyToResponseWithRequest http parseByteRanges disk requested response) hv
    rw [hb] at hs
    rw [follows_shell_iff _ _ hhttp, hs] at hh
    rw [hs, ownHeaders_iff _ _ _ _ hhttp] at hw
    refine ⟨fun hset => ?_, hw, hv, hh⟩
    rw [hs, hset] at hstatus
    exact (keepsStatus_iff parseByteRanges disk requested response).1 hstatus
  · rintro ⟨hk, hw, hv, hshown⟩
    have hs := status_of_sendable http
      (pyToResponseWithRequest http parseByteRanges disk requested response) hv
    rw [hb] at hs
    refine ⟨?_, ?_, ?_⟩
    · rw [hs]
      cases hset : shellStatus shell with
      | none => exact (keepsStatus_iff parseByteRanges disk requested response).2 (hk hset)
      | some code => rfl
    · rw [follows_shell_iff _ _ hhttp, hs]
      exact hshown
    · rw [hs, ownHeaders_iff _ _ _ _ hhttp]
      exact hw

section

variable (statusCode : Option Nat)

theorem routeDefaultStatus_eq_iff :
    routeDefaultStatus statusCode = statusCode.getD 200 ↔
      validStatus (statusCode.getD 200) = true := by
  cases statusCode with
  | none => exact iff_of_true rfl rfl
  | some code =>
    rw [routeDefaultStatus, Option.getD_some]
    constructor
    · intro hs
      by_cases hv : validStatus code = true
      · exact hv
      · rw [if_neg hv] at hs
        rw [← hs]
        rfl
    · intro hv
      rw [if_pos hv]

theorem validStatus_routeDefault : validStatus (routeDefaultStatus statusCode) = true := by
  unfold routeDefaultStatus
  split
  · split
    · assumption
    · rfl
  · rfl

theorem status_valueToResponse (hasShell : Bool) {kind : Kind}
    (hk : ∀ response, kind ≠ .responseLike response) :
    (valueToResponse http parseByteRanges disk requested statusCode hasShell kind).status =
      routeDefaultStatus statusCode := by
  cases kind with
  | container =>
    unfold valueToResponse
    dsimp only
    split <;> rfl
  | scalar | text => rfl
  | responseLike response => exact absurd rfl (hk response)

theorem rendered_iff (hhttp : http.Documented) (shell : Option Shell) {base : Response}
    (hb : base.status = routeDefaultStatus statusCode) :
    Rendered statusCode shell base (applyInjectedResponse http shell base) ↔
      (shellStatus shell = none → validStatus (statusCode.getD 200) = true) ∧
        Sendable http shell ((shellStatus shell).getD (statusCode.getD 200)) := by
  constructor
  · rintro ⟨hs, hh⟩
    have hv : ∀ code, shellStatus shell = some code → validStatus code = true := by
      intro code hset
      rw [hset] at hs
      refine validStatus_of_sent http ?_ hset hs
      rw [hb]
      exact validStatus_routeDefault statusCode
    rw [follows_shell_iff _ _ hhttp, hs] at hh
    refine ⟨fun hset => ?_, hv, hh⟩
    rw [status_of_sendable http base hv, hb, hset] at hs
    exact (routeDefaultStatus_eq_iff statusCode).1 hs
  · rintro ⟨hd, hv, hshown⟩
    have hsame : (applyInjectedResponse http shell base).status =
        (shellStatus shell).getD (statusCode.getD 200) := by
      rw [status_of_sendable http base hv, hb]
      cases hset : shellStatus shell with
      | none => exact (routeDefaultStatus_eq_iff statusCode).2 (hd hset)
      | some code => rfl
    refine ⟨hsame, ?_⟩
    rw [follows_shell_iff _ _ hhttp, hsame]
    exact hshown

end

private theorem finish_response {route : Route ε α} {response : PyResponse} {finished : Result α}
    (hf : finish route (.response response) = .ok finished) : finished = .response response := by
  cases hf
  rfl

end Expected

/-- `response.status_code = 201` and `response.headers["x-trace"] = "1"`. -/
def created : Shell :=
  ⟨some 201, [⟨"x-trace", utf8 "1".toList, by decide, by decide⟩]⟩

def accepted : PyResponse where
  cls := .json
  statusCode := 202
  rawHeaders := [⟨"content-type", utf8 "application/json".toList, by decide, by decide⟩]
  path := none
  bodyIterator := false
  mediaType := none

def plainRoute : Route Empty Unit :=
  ⟨none, none, none⟩

end FastapiTurbo.InjectedResponse
