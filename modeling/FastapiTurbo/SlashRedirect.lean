import FastapiTurbo.OptionsAllow

/-! The redirect between a path and the one with or without its last slash
(`slashes_redirect_middleware_with_paths`, `server.rs`), whose matcher takes segments one
by one, beside `options_path_matches`, which knows catch-all segments. -/
namespace FastapiTurbo.SlashRedirect

open RouterTable OptionsAllow List

structure Request where
  path : Path
  query : Option (List Char)
  host : Option (List Char)
  forwardedProto : Option (List Char)
  scheme : Option (List Char)

def segmentFits (part segment : Path) : Bool :=
  if isMarker part then !segment.isEmpty else part = segment

def templateMatches (template concrete : Path) : Bool :=
  let templateSegments := template.splitOn '/'
  let concreteSegments := concrete.splitOn '/'
  templateSegments.length = concreteSegments.length &&
    (templateSegments.zip concreteSegments).all fun pair => segmentFits pair.1 pair.2

def makesKnown (template path : Path) : Bool :=
  template = path || (template.contains '{' && templateMatches template path)

def matchesAny (declared : List Path) (path : Path) : Bool :=
  declared.any (makesKnown · path)

def alternate (path : Path) : Path :=
  if path.getLast? = some '/' then path.dropLast else path ++ ['/']

def Request.isHttps (request : Request) : Bool :=
  let https (text : Option (List Char)) := text.any (·.map Char.toLower = "https".toList)
  https request.forwardedProto || https request.scheme

def Request.location (request : Request) : List Char :=
  let pathAndQuery := alternate request.path ++
    match request.query with
    | some query => '?' :: query
    | none => []
  match request.host with
  | some host =>
    (if request.isHttps then "https" else "http").toList ++ "://".toList ++ host ++ pathAndQuery
  | none => pathAndQuery

/-- The location of the redirect; `none` where the request is handed on. -/
def slashesRedirect (staticPrefixes declared : List Path) (request : Request) :
    Option (List Char) :=
  if request.path.length ≤ 1 then none
  else if staticPrefixes.any (·.isPrefixOf request.path) then none
  else if declared.isEmpty then none
  else if matchesAny declared request.path || !matchesAny declared (alternate request.path) then
    none
  else some request.location

def HasCatchall (template : Path) : Prop :=
  ∃ part ∈ template.splitOn '/', isCatchall part = true

variable {staticPrefixes declared : List Path} {request : Request} {location : List Char}

theorem slashesRedirect_eq_some
    (hr : slashesRedirect staticPrefixes declared request = some location) :
    matchesAny declared request.path = false ∧
      matchesAny declared (alternate request.path) = true ∧ location = request.location := by
  unfold slashesRedirect at hr
  grind

theorem slashesRedirect_of_known (staticPrefixes : List Path)
    (hk : matchesAny declared request.path = true) :
    slashesRedirect staticPrefixes declared request = none := by
  simp [slashesRedirect, hk]

/-- Without catch-all segments the loop compares segment by segment. -/
theorem segmentsMatch_eq {template : List Path}
    (hp : ∀ part ∈ template, isCatchall part = false) (concrete : List Path) :
    segmentsMatch template concrete = (template.length = concrete.length &&
      (template.zip concrete).all fun pair => segmentFits pair.1 pair.2) := by
  induction template generalizing concrete with
  | nil => cases concrete <;> simp [segmentsMatch]
  | cons part template ih =>
    rw [forall_mem_cons] at hp
    cases concrete with
    | nil => simp [segmentsMatch, hp.1]
    | cons segment rest =>
      rw [segmentsMatch, hp.1, ih hp.2]
      simp [segmentFits, Bool.and_left_comm]

theorem isMarker_mem {part : Path} (hm : isMarker part = true) : '{' ∈ part := by
  rw [isMarker, Bool.and_eq_true, decide_eq_true_eq] at hm
  exact mem_of_mem_head? hm.1

private theorem mem_intercalate (separator : Path) {parts : List Path} {part : Path} {char : Char}
    (hp : part ∈ parts) (hc : char ∈ part) : char ∈ separator.intercalate parts := by
  induction parts with
  | nil => cases hp
  | cons first rest ih =>
    cases rest with
    | nil => simpa [mem_singleton.1 hp] using hc
    | cons second rest =>
      rw [intercalate_cons_cons, mem_append, mem_append]
      rcases mem_cons.1 hp with rfl | hr
      · exact .inl (.inl hc)
      · exact .inr (ih hr)

theorem eq_of_templateMatches {template path : Path} (hliteral : '{' ∉ template)
    (hm : templateMatches template path = true) : template = path := by
  rw [templateMatches, Bool.and_eq_true, decide_eq_true_eq, all_eq_true] at hm
  have hs : template.splitOn '/' = path.splitOn '/' := by
    refine ext_getElem hm.1 fun index hl hr => ?_
    have hf := hm.2 _ (mem_iff_getElem.2 ⟨index, by simp [hl, hr], rfl⟩)
    rw [getElem_zip, segmentFits, if_neg, decide_eq_true_eq] at hf
    · exact hf
    · intro hmatches
      have hmem := mem_intercalate ['/'] (getElem_mem hl) (isMarker_mem hmatches)
      rw [intercalate_splitOn] at hmem
      exact hliteral hmem
  have hj := congrArg (List.intercalate ['/']) hs
  rwa [intercalate_splitOn, intercalate_splitOn] at hj

private theorem segmentFits_self (part : Path) : segmentFits part part = true := by
  unfold segmentFits
  split
  next hm => simpa using ne_nil_of_mem (isMarker_mem hm)
  next => simp

private theorem templateMatches_self (path : Path) : templateMatches path path = true := by
  rw [templateMatches, Bool.and_eq_true, all_eq_true]
  refine ⟨by simp, fun pair hp => ?_⟩
  obtain ⟨index, hi, rfl⟩ := mem_iff_getElem.1 hp
  rw [getElem_zip]
  exact segmentFits_self _

/-- Without catch-all segments the matchers agree. -/
theorem makesKnown_eq {template : Path} (hp : ¬ HasCatchall template) (path : Path) :
    makesKnown template path = optionsPathMatches template path := by
  have hpa : ∀ part ∈ template.splitOn '/', isCatchall part = false := by
    simpa [HasCatchall] using hp
  have ho : optionsPathMatches template path = templateMatches template path :=
    segmentsMatch_eq hpa _
  rw [ho, Bool.eq_iff_iff, makesKnown, Bool.or_eq_true, Bool.and_eq_true, decide_eq_true_eq]
  constructor
  · rintro (rfl | ⟨-, hm⟩)
    · exact templateMatches_self template
    · exact hm
  · intro hm
    by_cases hl : '{' ∈ template
    · exact .inr ⟨by simpa using hl, hm⟩
    · exact .inl (eq_of_templateMatches hl hm)

/-- A redirect is to a path that is declared, from one that is not, and to none that is
redirected itself, exactly if no declared path with a catch-all segment matches the path
of the request, and none of them makes the target known that no declared path matches. -/
theorem redirect_sound_iff
    (hredirect : slashesRedirect staticPrefixes declared request = some location) :
    ((∀ template ∈ declared, optionsPathMatches template request.path = false) ∧
      (∃ template ∈ declared, optionsPathMatches template (alternate request.path) = true) ∧
      slashesRedirect staticPrefixes declared
        { request with path := alternate request.path } = none) ↔
      ∀ template ∈ declared, HasCatchall template →
        optionsPathMatches template request.path = false ∧
        (makesKnown template (alternate request.path) = true →
          ∃ other ∈ declared, optionsPathMatches other (alternate request.path) = true) := by
  obtain ⟨hu, hk, -⟩ := slashesRedirect_eq_some hredirect
  constructor
  · rintro ⟨hn, hs, -⟩ template hmem -
    exact ⟨hn template hmem, fun _ => hs⟩
  · intro hc
    refine ⟨fun template hmem => ?_, ?_, slashesRedirect_of_known staticPrefixes hk⟩
    · by_cases hp : HasCatchall template
      · exact (hc template hmem hp).1
      · rw [← makesKnown_eq hp]
        exact Bool.eq_false_iff.2 (any_eq_false.1 hu template hmem)
    · obtain ⟨template, hmem, hm⟩ := any_eq_true.1 hk
      by_cases hp : HasCatchall template
      · exact (hc template hmem hp).2 hm
      · exact ⟨template, hmem, makesKnown_eq hp _ ▸ hm⟩

def getPath (path : Path) : Request := ⟨path, none, none, none, none⟩

theorem item_redirect_sound :
    slashesRedirect [] ["/items/{id}/".toList] (getPath "/items/1".toList) =
        some "/items/1/".toList ∧
      (∀ template ∈ ["/items/{id}/".toList],
        optionsPathMatches template "/items/1".toList = false) ∧
      (∃ template ∈ ["/items/{id}/".toList],
        optionsPathMatches template "/items/1/".toList = true) ∧
      slashesRedirect [] ["/items/{id}/".toList] (getPath "/items/1/".toList) = none := by
  have hr : slashesRedirect [] ["/items/{id}/".toList] (getPath "/items/1".toList) =
      some "/items/1/".toList := by decide
  refine ⟨hr, (redirect_sound_iff hr).2 ?_⟩
  rintro template hmem ⟨part, hp, hc⟩
  rw [mem_singleton.1 hmem] at hp
  exact absurd hc ((by decide : ∀ part ∈ "/items/{id}/".toList.splitOn '/',
    ¬ isCatchall part = true) part hp)

/-- A path that the catch-all of `/files/{p:path}` matches is redirected all the same; and
`/files/{p:path}/` redirects to a path that it does not match. -/
theorem catchall_path_redirected :
    (slashesRedirect [] ["/files/{p:path}".toList, "/files/a/b/".toList]
        (getPath "/files/a/b".toList) = some "/files/a/b/".toList ∧
      optionsPathMatches "/files/{p:path}".toList "/files/a/b".toList = true) ∧
    slashesRedirect [] ["/files/{p:path}/".toList] (getPath "/files/a".toList) =
        some "/files/a/".toList ∧
      optionsPathMatches "/files/{p:path}/".toList "/files/a/".toList = false := by
  decide

end FastapiTurbo.SlashRedirect
