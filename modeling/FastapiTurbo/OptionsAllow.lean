import FastapiTurbo.RouterAnswers

/-! The `Allow` header of an `OPTIONS` request that is no preflight (`server.rs`) beside
the one of a 405 from `build_router`: two lists of the same routes, and two matchers. -/
namespace FastapiTurbo.OptionsAllow

open Lib RouterTable RouterConflicts List
  RouterDispatch RouterAnswers

variable {σ : Type}

def isMarker (part : Path) : Bool :=
  part.head? = some '{' && part.getLast? = some '}'

def isCatchall (part : Path) : Bool :=
  ("\x7b*".toList.isPrefixOf part && part.getLast? = some '}') ||
    (isMarker part && part.tails.any (":path".toList.isPrefixOf ·))

def segmentsMatch : List Path → List Path → Bool
  | [], concrete => concrete.isEmpty
  | part :: template, concrete =>
    if isCatchall part then template.isEmpty && !concrete.all List.isEmpty
    else
      match concrete with
      | [] => false
      | segment :: rest =>
        (if isMarker part then !segment.isEmpty else part = segment) &&
          segmentsMatch template rest

def optionsPathMatches (template concrete : Path) : Bool :=
  segmentsMatch (template.splitOn '/') (concrete.splitOn '/')

def addMethods (existing : List Method) (methods : List Method) : List Method :=
  methods.foldl addNew existing

def addTemplate (route : RouteInfo σ) : List (Path × List Method) → List (Path × List Method)
  | [] => [(route.path, route.methods)]
  | entry :: rest =>
    if entry.1 = route.path then (entry.1, addMethods entry.2 route.methods) :: rest
    else entry :: addTemplate route rest

def allowMethodsInOrder (routes : List (RouteInfo σ)) : List (Path × List Method) :=
  routes.foldl (fun order route => addTemplate route order) []

def declaredOptionsPaths (routes : List (RouteInfo σ)) : List Path :=
  (routes.filter fun route => route.methods.contains .options).map RouteInfo.path

def methodName : Method → List Char
  | .get => "GET".toList
  | .post => "POST".toList
  | .put => "PUT".toList
  | .delete => "DELETE".toList
  | .patch => "PATCH".toList
  | .head => "HEAD".toList
  | .options => "OPTIONS".toList
  | .trace => "TRACE".toList
  | .other name => name.toList

def allowText (methods : List Method) : List Char :=
  List.intercalate ", ".toList (methods.map methodName)

/-- The methods of the `Allow` header with which
`non_preflight_options_middleware_with_paths` answers an `OPTIONS` request; `none` where
it hands the request on. -/
def nonPreflightOptions (routes : List (RouteInfo σ)) (hasOrigin hasRequestMethod : Bool)
    (path : Path) : Option (List Method) :=
  if hasOrigin && hasRequestMethod then none
  else if (declaredOptionsPaths routes).any (optionsPathMatches · path) then none
  else
    match (allowMethodsInOrder routes).find? fun entry => optionsPathMatches entry.1 path with
    | some entry => if (allowText entry.2).isEmpty then none else some entry.2
    | none => none

def firstMatching (routes : List (RouteInfo σ)) (path : Path) : Option (RouteInfo σ) :=
  routes.find? fun route => optionsPathMatches route.path path

/-- The method is declared by some route of the template. -/
def DeclaredAt (routes : List (RouteInfo σ)) (template : Path) (method : Method) : Prop :=
  ∃ route ∈ routes, route.path = template ∧ method ∈ route.methods

/-- The methods of the first route alone whose template covers the registered path;
where there is none, those that were registered there. -/
def coveringMethods (routes : List (RouteInfo σ)) (top : AxumPath) : List Method :=
  match routes.find? fun route => patternMatches (segments route.path) (segments top.1) with
  | some covering => covering.methods
  | none => takenMethods top (httpRoutes routes)

section Order

theorem mem_addMethods (existing methods : List Method) (method : Method) :
    method ∈ addMethods existing methods ↔ method ∈ existing ∨ method ∈ methods := by
  induction methods generalizing existing with
  | nil => simp [addMethods]
  | cons first rest ih =>
    rw [addMethods, foldl_cons, ← addMethods, ih, mem_addNew, mem_cons, or_assoc, @eq_comm _ first]

theorem addTemplate_templates (route : RouteInfo σ) (order : List (Path × List Method)) :
    (addTemplate route order).map Prod.fst =
      if route.path ∈ order.map Prod.fst then order.map Prod.fst
      else order.map Prod.fst ++ [route.path] := by
  induction order with
  | nil => rfl
  | cons entry rest ih =>
    rw [addTemplate]
    by_cases hs : entry.1 = route.path
    · simp [hs]
    · simp only [if_neg hs, map_cons, ih]
      by_cases hmem : route.path ∈ rest.map Prod.fst
      · rw [if_pos hmem, if_pos (mem_cons_of_mem _ hmem)]
      · have hnew : route.path ∉ entry.1 :: rest.map Prod.fst := by
          simpa [Ne.symm hs] using hmem
        rw [if_neg hmem, if_neg hnew, cons_append]

/-- What `allow_methods_in_order` is once the routes have been added: the templates in the
order of their first route, each with what its routes declare. -/
structure OrderHolds (routes : List (RouteInfo σ)) (order : List (Path × List Method)) :
    Prop where
  nodup : (order.map Prod.fst).Nodup
  first : ∀ accepts : Path → Bool,
    (order.map Prod.fst).find? accepts = (routes.map RouteInfo.path).find? accepts
  methods : ∀ entry ∈ order, ∀ method, method ∈ entry.2 ↔ DeclaredAt routes entry.1 method

theorem declaredAt_concat (routes : List (RouteInfo σ)) (route : RouteInfo σ) (template : Path)
    (method : Method) :
    DeclaredAt (routes ++ [route]) template method ↔
      DeclaredAt routes template method ∨ route.path = template ∧ method ∈ route.methods := by
  simp [DeclaredAt, or_and_right, exists_or]

variable {routes : List (RouteInfo σ)} {order : List (Path × List Method)}

theorem OrderHolds.mem_templates (hh : OrderHolds routes order) (template : Path) :
    template ∈ order.map Prod.fst ↔ ∃ route ∈ routes, route.path = template := by
  have hf := congrArg Option.isSome (hh.first fun other => other = template)
  rw [Bool.eq_iff_iff, find?_isSome, find?_isSome] at hf
  simpa using hf

private theorem mem_addTemplate {route : RouteInfo σ} (hn : (order.map Prod.fst).Nodup)
    {entry : Path × List Method} (he : entry ∈ addTemplate route order) :
    (entry ∈ order ∧ entry.1 ≠ route.path) ∨
      (∃ old ∈ order, old.1 = route.path ∧ entry = (route.path, addMethods old.2 route.methods)) ∨
      route.path ∉ order.map Prod.fst ∧ entry = (route.path, route.methods) := by
  induction order with
  | nil => exact .inr (.inr ⟨by simp, by simpa [addTemplate] using he⟩)
  | cons a rest ih =>
    rw [map_cons, nodup_cons] at hn
    rw [addTemplate] at he
    split at he
    next hs =>
      rcases mem_cons.1 he with rfl | hr
      · exact .inr (.inl ⟨a, mem_cons_self, hs, by rw [hs]⟩)
      · refine .inl ⟨mem_cons_of_mem _ hr, fun hp => hn.1 ?_⟩
        rw [hs, ← hp]
        exact mem_map_of_mem hr
    next ho =>
      rcases mem_cons.1 he with rfl | hr
      · exact .inl ⟨mem_cons_self, ho⟩
      · rcases ih hn.2 hr with ⟨hold, hp⟩ | ⟨old, hold, hp, hs⟩ | ⟨hnew, hs⟩
        · exact .inl ⟨mem_cons_of_mem _ hold, hp⟩
        · exact .inr (.inl ⟨old, mem_cons_of_mem _ hold, hp, hs⟩)
        · refine .inr (.inr ⟨?_, hs⟩)
          simpa [Ne.symm ho] using hnew

theorem OrderHolds.addTemplate (hh : OrderHolds routes order) (route : RouteInfo σ) :
    OrderHolds (routes ++ [route]) (addTemplate route order) where
  nodup := by
    rw [addTemplate_templates]
    split
    next => exact hh.nodup
    next hnew =>
      rw [← concat_eq_append]
      exact List.Nodup.concat hnew hh.nodup
  first := fun accepts => by
    rw [addTemplate_templates, map_append, find?_append, ← hh.first]
    split
    next hmem =>
      -- An accepted template of an earlier route is found before this one.
      cases ha : accepts route.path with
      | false => simp [ha]
      | true =>
        have hs : ((order.map Prod.fst).find? accepts).isSome = true :=
          find?_isSome.2 ⟨route.path, hmem, ha⟩
        rw [Option.or_of_isSome hs]
    next => rw [find?_append, map_singleton]
  methods := by
    intro entry he method
    rw [declaredAt_concat]
    rcases mem_addTemplate hh.nodup he with
      ⟨hold, hp⟩ | ⟨old, hold, hp, rfl⟩ | ⟨hnew, rfl⟩
    · simp [hh.methods entry hold, Ne.symm hp]
    · rw [mem_addMethods, hh.methods old hold, hp]
      simp
    · have hn : ¬DeclaredAt routes route.path method := by
        rintro ⟨other, ho, hsame, _⟩
        exact hnew ((hh.mem_templates route.path).2 ⟨other, ho, hsame⟩)
      simp [hn]

private theorem allowMethodsInOrder_holds (routes : List (RouteInfo σ)) :
    OrderHolds routes (allowMethodsInOrder routes) := by
  induction routes using List.reverseRecOn with
  | nil => exact ⟨nodup_nil, fun _ => rfl, by simp [allowMethodsInOrder]⟩
  | append_singleton routes route ih =>
    rw [allowMethodsInOrder, foldl_concat]
    exact ih.addTemplate route

theorem mem_nonPreflightOptions {hasOrigin hasRequestMethod : Bool} {path : Path}
    {offered : List Method}
    (ho : nonPreflightOptions routes hasOrigin hasRequestMethod path = some offered) :
    ∃ a, firstMatching routes path = some a ∧
      ∀ method, method ∈ offered ↔ DeclaredAt routes a.path method := by
  have hh := allowMethodsInOrder_holds routes
  have hf := hh.first fun template => optionsPathMatches template path
  rw [find?_map, find?_map] at hf
  unfold nonPreflightOptions at ho
  split at ho
  · simp at ho
  · split at ho
    · simp at ho
    · split at ho
      next entry he =>
        split at ho
        · simp at ho
        · cases ho
          have hm : (firstMatching routes path).map RouteInfo.path = some entry.1 :=
            hf.symm.trans (congrArg (Option.map Prod.fst) he)
          obtain ⟨a, hmatching, hp⟩ := Option.map_eq_some_iff.1 hm
          refine ⟨a, hmatching, fun method => ?_⟩
          rw [hp]
          exact hh.methods entry (mem_of_find?_eq_some he) method
      next => simp at ho

end Order

section Refused

variable {routes : List (RouteInfo σ)}

theorem allow_of_notAllowed {entry : PathEntry σ} (he : entry ∈ (accumulate routes).byPath)
    {order : List (Path × List Method)} {socket : Option σ} {method : Method}
    {refused : List Method}
    (hc : (finishEntry order socket entry).call method = .notAllowed refused) :
    refused = allowHeader order entry := by
  by_cases hm : method ∈ entry.declared ∧ method.supported = true
  · exfalso
    have hh : ∃ state,
        httpState (.endpoint ((finishEntry order socket entry).call method)) = some state := by
      cases socket with
      | none =>
        obtain ⟨chosen, _, hs⟩ :=
          httpState_alone he (.inl rfl) hm.1 hm.2 order
        exact ⟨chosen.state, hs⟩
      | some socket =>
        cases hs : entry.getState with
        | none =>
          obtain ⟨chosen, _, hchosen⟩ :=
            httpState_alone he (.inr hs) hm.1 hm.2 order
          exact ⟨chosen.state, hchosen⟩
        | some state => exact ⟨state, httpState_shared hs hm.1 hm.2 order⟩
    obtain ⟨state, hs⟩ := hh
    rw [hc] at hs
    simp [httpState] at hs
  · rw [call_undeclared he order socket hm] at hc
    exact (Endpoint.notAllowed.inj hc).symm

private theorem mem_allowHeader {entry : PathEntry σ} (he : entry ∈ (accumulate routes).byPath)
    (method : Method) :
    method ∈ allowHeader (declaredOrder routes) entry ↔
      method ∈ coveringMethods routes entry.path := by
  rw [allowHeader, mem_eraseDups, firstPatternMatch, declaredOrder, find?_map,
    Option.map_map, (holds_httpRoutes he).declared]
  change method ∈ ((routes.find? fun route =>
    patternMatches (segments route.path) (segments entry.path.1)).map RouteInfo.methods).getD _ ↔ _
  unfold coveringMethods
  cases routes.find? fun route =>
      patternMatches (segments route.path) (segments entry.path.1) with
  | none => rfl
  | some covering => rfl

private theorem mem_refused {method : Method} {path : Path} {refused : List Method}
    (hr : answer routes method path = .endpoint (.notAllowed refused)) :
    NamesAgree routes ∧ ∃ top, MostSpecific routes path top ∧
      ∀ other, other ∈ refused ↔ other ∈ coveringMethods routes top := by
  rcases answer_cases routes path with hn | ⟨ha, top, service, htop, hs, hanswer⟩
  · rw [hn] at hr
    simp at hr
  · rw [hanswer] at hr
    cases hs with
    | socket => simp [serviceAnswer] at hr
    | @methods entry he =>
      have hallow := allow_of_notAllowed he (Answer.endpoint.inj hr)
      refine ⟨ha, entry.path, htop, fun other => ?_⟩
      rw [hallow]
      exact mem_allowHeader he other

end Refused

/-- The header of an `OPTIONS` answer names the methods of a 405 exactly if the template
that the middleware finds first has declared what the route that `build_router` finds
first for the most specific path declares alone. -/
theorem options_allow_iff {routes : List (RouteInfo σ)} {hasOrigin hasRequestMethod : Bool}
    {path : Path} {method : Method} {offered refused : List Method}
    (hoptions : nonPreflightOptions routes hasOrigin hasRequestMethod path = some offered)
    (hrefused : answer routes method path = .endpoint (.notAllowed refused)) :
    (∀ other, other ∈ offered ↔ other ∈ refused) ↔
      ∃ first top, firstMatching routes path = some first ∧ MostSpecific routes path top ∧
        ∀ other, DeclaredAt routes first.path other ↔ other ∈ coveringMethods routes top := by
  obtain ⟨first, hf, ho⟩ := mem_nonPreflightOptions hoptions
  obtain ⟨ha, top, htop, hc⟩ := mem_refused hrefused
  constructor
  · intro hs
    refine ⟨first, top, hf, htop, fun other => ?_⟩
    rw [← ho, ← hc]
    exact hs other
  · rintro ⟨first', top', hfirst', htop', hd⟩ other
    cases Option.some.inj (hf.symm.trans hfirst')
    cases htop.unique ha htop'
    rw [ho, hc]
    exact hd other

def specialItem : RouteInfo Nat :=
  { createUser with path := "/items/special".toList, wellFormed := by decide }

theorem special_item_offered :
    nonPreflightOptions [getItem, specialItem] false false "/items/special".toList =
        some [.get] ∧
      answer [getItem, specialItem] .delete "/items/special".toList =
        .endpoint (.notAllowed [.get]) ∧
      ∃ first top, firstMatching [getItem, specialItem] "/items/special".toList = some first ∧
        MostSpecific [getItem, specialItem] "/items/special".toList top ∧
        ∀ other, DeclaredAt [getItem, specialItem] first.path other ↔
          other ∈ coveringMethods [getItem, specialItem] top := by
  have ho : nonPreflightOptions [getItem, specialItem] false false
      "/items/special".toList = some [.get] := by
    decide +kernel
  have hr : answer [getItem, specialItem] .delete "/items/special".toList =
      .endpoint (.notAllowed [.get]) := by
    decide +kernel
  exact ⟨ho, hr, (options_allow_iff ho hr).1 fun _ => Iff.rfl⟩

/-- Two routes of one path: the 405 names the methods of the first alone. -/
theorem second_route_not_offered :
    nonPreflightOptions [listUsers, createUser] false false "/users".toList =
        some [.get, .post] ∧
      answer [listUsers, createUser] .delete "/users".toList =
        .endpoint (.notAllowed [.get]) := by
  decide +kernel

end FastapiTurbo.OptionsAllow
