import FastapiTurbo.Lib.Dict
import FastapiTurbo.Lib.Radix

/-! `build_router` (`router.rs`): the paths are converted to axum's, the routes of one
path are merged into a method router, and the paths are inserted into a radix, those
of WebSocket routes into one of their own that is merged later. -/
namespace FastapiTurbo.RouterTable

open Lib List

abbrev Path := List Char

abbrev Pattern := PathPattern Char Path

def braced (param : Path) : Path :=
  if ":path".toList.isSuffixOf param then
    '{' :: '*' :: param.take (param.length - 5) ++ ['}']
  else '{' :: param.takeWhile (· ≠ ':') ++ ['}']

/-- The loop of `convert_path`; inside braces, with the characters read there. -/
def convertFrom : Option Path → Path → Path
  | none, [] => []
  | none, char :: rest =>
    if char = '{' then convertFrom (some []) rest else char :: convertFrom none rest
  | some param, [] => braced param
  | some param, char :: rest =>
    if char = '}' then braced param ++ convertFrom none rest
    else convertFrom (some (param ++ [char])) rest

def convertPath (path : Path) : Path :=
  convertFrom none path

inductive Reading where
  | text
  | name (sofar : Path)
  | closing

def closeParam (name rest : Path) (tail : Option Pattern) : Option Pattern :=
  match name with
  | [] => none
  | first :: others =>
    if first = '*' then
      if others ≠ [] ∧ rest = [] then some (.catchAll others) else none
    else if rest = [] ∨ rest.head? = some '/' then tail.map (.param name)
    else none

/-- A path as the radix reads it: `{name}` up to the end of a segment, `{*name}` at
the end of the path, and doubled braces for a brace. -/
def parseFrom : Reading → Path → Option Pattern
  | .text, [] => some .nil
  | .text, char :: rest =>
    if char = '{' then parseFrom (.name []) rest
    else if char = '}' then parseFrom .closing rest
    else (parseFrom .text rest).map (.lit char)
  | .name _, [] => none
  | .name sofar, char :: rest =>
    if char = '}' then closeParam sofar rest (parseFrom .text rest)
    else if char = '{' then
      if sofar = [] then (parseFrom .text rest).map (.lit '{') else none
    else if char = '/' then none
    else parseFrom (.name (sofar ++ [char])) rest
  | .closing, [] => none
  | .closing, char :: rest =>
    if char = '}' then (parseFrom .text rest).map (.lit '}') else none

def parsePath (path : Path) : Option Pattern :=
  if path.head? = some '/' then parseFrom .text path else none

abbrev AxumPath := {path : Path // (parsePath path).isSome = true}

def AxumPath.pattern (path : AxumPath) : Pattern :=
  (parsePath path.1).get path.2

def AxumPath.shape (path : AxumPath) : PathPattern Char Unit :=
  path.pattern.shape

private theorem parse_head {rest : Path} {tail : Pattern} (hp : parseFrom .text rest = some tail)
    (hr : rest = [] ∨ rest.head? = some '/') :
    tail = .nil ∨ ∃ after, tail = .lit '/' after := by
  cases rest with
  | nil => exact .inl (by simpa [parseFrom, eq_comm] using hp)
  | cons char rest =>
    have hc : char = '/' := by simpa using hr
    subst hc
    obtain ⟨after, -, ha⟩ := Option.map_eq_some_iff.1
      (show (parseFrom .text rest).map (PathPattern.lit '/') = some tail from hp)
    exact .inr ⟨after, ha.symm⟩

private theorem closeParam_separated {name rest : Path} {pattern : Pattern}
    (hc : closeParam name rest (parseFrom .text rest) = some pattern)
    (ht : ∀ tail, parseFrom .text rest = some tail → tail.Separated '/') :
    pattern.Separated '/' := by
  unfold closeParam at hc
  split at hc
  · simp at hc
  · split at hc
    · split at hc
      · rw [← Option.some.inj hc]
        trivial
      · simp at hc
    · split at hc
      next hr =>
        obtain ⟨tail, hp, rfl⟩ := Option.map_eq_some_iff.1 hc
        exact ⟨parse_head hp hr, ht tail hp⟩
      next => simp at hc

private theorem parseFrom_separated (reading : Reading) (path : Path) (pattern : Pattern)
    (hp : parseFrom reading path = some pattern) : pattern.Separated '/' := by
  induction path generalizing reading pattern with
  | nil =>
    cases reading <;> simp [parseFrom] at hp
    rw [← hp]
    trivial
  | cons char rest ih =>
    have hlit (literal : Char)
        (hr : (parseFrom .text rest).map (PathPattern.lit literal) = some pattern) :
        pattern.Separated '/' := by
      obtain ⟨tail, ht, rfl⟩ := Option.map_eq_some_iff.1 hr
      exact ih .text tail ht
    cases reading with
    | text =>
      simp only [parseFrom] at hp
      split at hp
      · exact ih _ _ hp
      · split at hp
        · exact ih _ _ hp
        · exact hlit char hp
    | name sofar =>
      simp only [parseFrom] at hp
      split at hp
      · exact closeParam_separated hp (ih .text)
      · split at hp
        · split at hp
          · exact hlit '{' hp
          · simp at hp
        · split at hp
          · simp at hp
          · exact ih _ _ hp
    | closing =>
      simp only [parseFrom] at hp
      split at hp
      · exact hlit '}' hp
      · simp at hp

theorem AxumPath.separated (path : AxumPath) : path.pattern.Separated '/' := by
  have hp : parsePath path.1 = some path.pattern := (Option.some_get path.2).symm
  unfold parsePath at hp
  split at hp
  · exact parseFrom_separated .text path.1 path.pattern hp
  · simp at hp

inductive Method where
  | get
  | post
  | put
  | delete
  | patch
  | head
  | options
  | trace
  | other (name : String)
  deriving DecidableEq

def Method.supported : Method → Bool
  | .other _ => false
  | _ => true

/-- A `RouteInfo` whose path is well formed.  Its methods come from a set.  `state` is
what the handler of the route is compiled to. -/
structure RouteInfo (σ : Type) where
  path : Path
  methods : List Method
  isWebsocket : Bool
  state : σ
  wellFormed : (parsePath (convertPath path)).isSome = true
  distinct : methods.Nodup

inductive Endpoint (σ : Type) where
  | http (state : σ)
  /-- The GET dispatcher of a path that a WebSocket route shares. -/
  | upgrade (socket state : σ)
  | socket (state : σ)
  | notAllowed (allow : List Method)
  deriving DecidableEq

section Build

variable {σ : Type}

def RouteInfo.axumPath (route : RouteInfo σ) : AxumPath :=
  ⟨convertPath route.path, route.wellFormed⟩

structure PathEntry (σ : Type) where
  path : AxumPath
  methodRouter : Dict Method (Endpoint σ)
  declared : List Method
  getState : Option σ

def RouteInfo.methodRouter (route : RouteInfo σ) : Dict Method (Endpoint σ) :=
  (route.methods.filter Method.supported).map fun method => (method, .http route.state)

def RouteInfo.getState (route : RouteInfo σ) : Option σ :=
  if route.methods.contains .get then some route.state else none

/-- Another route of the path: it is merged if all its methods are new.  If only some
of them are, the route is skipped with a warning. -/
def PathEntry.add (entry : PathEntry σ) (route : RouteInfo σ) : PathEntry σ :=
  let dup := route.methods.filter fun method => entry.declared.contains method
  if dup.length = route.methods.length then entry
  else if dup = [] then
    { entry with
      methodRouter := entry.methodRouter ++ route.methodRouter
      declared := entry.declared ++ route.methods
      getState := entry.getState.or route.getState }
  else entry

def addRoute (route : RouteInfo σ) : List (PathEntry σ) → List (PathEntry σ)
  | [] => [⟨route.axumPath, route.methodRouter, route.methods, route.getState⟩]
  | entry :: rest =>
    if entry.path = route.axumPath then entry.add route :: rest
    else entry :: addRoute route rest

structure Accum (σ : Type) where
  byPath : List (PathEntry σ)
  wsByPath : Dict AxumPath σ

/-- A round of the loop over the routes.  A route without a supported method has no
method router. -/
def Accum.register (accum : Accum σ) (route : RouteInfo σ) : Accum σ :=
  if route.isWebsocket then
    { accum with wsByPath := accum.wsByPath.set route.axumPath route.state }
  else if route.methodRouter.isEmpty then accum
  else { accum with byPath := addRoute route accum.byPath }

def accumulate (routes : List (RouteInfo σ)) : Accum σ :=
  routes.foldl Accum.register ⟨[], []⟩

end Build

section Allow

def trimSlashes (path : Path) : Path :=
  (((path.dropWhile (· = '/')).reverse).dropWhile (· = '/')).reverse

def segments (path : Path) : List Path :=
  (trimSlashes path).splitOn '/'

/-- `pattern_matches_axum_path`: a parameter takes any segment, be it a marker of the
candidate itself. -/
def patternMatches : List Path → List Path → Bool
  | [], [] => true
  | part :: pattern, segment :: candidate =>
    if part.head? = some '{' && part.getLast? = some '}' then
      let inner := part.tail.dropLast
      if ":path".toList.isSuffixOf inner || inner.head? = some '*' then true
      else patternMatches pattern candidate
    else part = segment && patternMatches pattern candidate
  | _, _ => false

def firstPatternMatch (order : List (Path × List Method)) (candidate : Path) :
    Option (List Method) :=
  (order.find? fun entry => patternMatches (segments entry.1) (segments candidate)).map Prod.snd

end Allow

section Finish

variable {σ : Type}

structure MethodRouter (σ : Type) where
  endpoints : Dict Method (Endpoint σ)
  allow : List Method

/-- A method router called; axum hands a `HEAD` to `GET` unless it has a handler. -/
def MethodRouter.call (router : MethodRouter σ) (method : Method) : Endpoint σ :=
  match router.endpoints.get? method with
  | some endpoint => endpoint
  | none =>
    if method = .head then (router.endpoints.get? .get).getD (.notAllowed router.allow)
    else .notAllowed router.allow

/-- The method router of a path shared with a WebSocket route, which is built anew
around the state of its `GET`. -/
def sharedRouter (declared : List Method) (socket state : σ) : Dict Method (Endpoint σ) :=
  ((declared.filter fun method => method ≠ .get && method.supported).map
    fun method => (method, .http state)) ++ [(.get, .upgrade socket state)]

def allowHeader (order : List (Path × List Method)) (entry : PathEntry σ) : List Method :=
  ((firstPatternMatch order entry.path.1).getD entry.declared).eraseDups

/-- `HEAD` and `OPTIONS` are answered with a 405 unless they are declared. -/
def refusals (declared allow : List Method) : Dict Method (Endpoint σ) :=
  (if declared.contains .get && !declared.contains .head then [(.head, .notAllowed allow)]
    else []) ++
  if declared.contains .options then [] else [(.options, .notAllowed allow)]

def finishEntry (order : List (Path × List Method)) (socket : Option σ) (entry : PathEntry σ) :
    MethodRouter σ :=
  let allow := allowHeader order entry
  let endpoints :=
    match socket, entry.getState with
    | some socket, some state => sharedRouter entry.declared socket state
    | _, _ => entry.methodRouter
  ⟨endpoints ++ refusals entry.declared allow, allow⟩

/-- The loop over `by_path`; the WebSocket route of a path is removed whether or not
the path has a `GET` to share. -/
def finishAll (order : List (Path × List Method)) :
    List (PathEntry σ) → Dict AxumPath σ → List (AxumPath × MethodRouter σ) × Dict AxumPath σ
  | [], wsByPath => ([], wsByPath)
  | entry :: rest, wsByPath =>
    let finished := finishAll order rest (wsByPath.erase entry.path)
    ((entry.path, finishEntry order (wsByPath.get? entry.path) entry) :: finished.1, finished.2)

structure Routers (σ : Type) where
  http : List (AxumPath × MethodRouter σ)
  ws : Dict AxumPath σ

def buildRouter (routes : List (RouteInfo σ)) : Routers σ :=
  let accum := accumulate routes
  let finished := finishAll (routes.map fun route => (route.path, route.methods))
    accum.byPath accum.wsByPath
  ⟨finished.1, finished.2⟩

inductive Service (σ : Type) where
  | methods (router : MethodRouter σ)
  | socket (state : σ)

/-- The radix after `ws_router.merge(…)`. -/
def Routers.table (routers : Routers σ) : List (Pattern × Service σ) :=
  routers.ws.map (fun entry => (entry.1.pattern, .socket entry.2)) ++
    routers.http.map fun entry => (entry.1.pattern, .methods entry.2)

inductive Answer (σ : Type) where
  | notFound
  | endpoint (endpoint : Endpoint σ)
  deriving DecidableEq

def Routers.dispatch (routers : Routers σ) (method : Method) (path : Path) : Answer σ :=
  match PathPattern.choose '/' routers.table path with
  | none => .notFound
  | some (_, .methods router) => .endpoint (router.call method)
  | some (_, .socket state) => .endpoint (.socket state)

end Finish

section Paths

variable {σ : Type}

/-- A route whose path is inserted: any WebSocket route, and an HTTP route with a
method that axum knows. -/
def RouteInfo.isRegistered (route : RouteInfo σ) : Bool :=
  route.isWebsocket || route.methods.any Method.supported

theorem methodRouter_isEmpty (route : RouteInfo σ) :
    route.methodRouter.isEmpty = !route.methods.any Method.supported := by
  rw [RouteInfo.methodRouter, isEmpty_map, Bool.eq_iff_iff]
  simp [filter_eq_nil_iff]

private theorem add_path (entry : PathEntry σ) (route : RouteInfo σ) :
    (entry.add route).path = entry.path := by
  simp only [PathEntry.add]
  repeat' split
  all_goals rfl

theorem addRoute_paths (route : RouteInfo σ) (entries : List (PathEntry σ)) :
    (addRoute route entries).map PathEntry.path =
      addNew (entries.map PathEntry.path) route.axumPath := by
  induction entries with
  | nil => simp [addRoute, addNew]
  | cons entry rest ih =>
    unfold addRoute
    by_cases he : entry.path = route.axumPath
    · simp [he, add_path, addNew]
    · rw [if_neg he, map_cons, ih, map_cons, addNew_cons he]

structure Accum.Covers (accum : Accum σ) (routes : List (RouteInfo σ)) : Prop where
  nodup_http : (accum.byPath.map PathEntry.path).Nodup
  nodup_ws : (accum.wsByPath.map Prod.fst).Nodup
  mem_http : ∀ path, path ∈ accum.byPath.map PathEntry.path ↔
    ∃ route ∈ routes, route.isWebsocket = false ∧ route.isRegistered = true ∧
      route.axumPath = path
  mem_ws : ∀ path, path ∈ accum.wsByPath.map Prod.fst ↔
    ∃ route ∈ routes, route.isWebsocket = true ∧ route.axumPath = path

theorem register_socket {route : RouteInfo σ} (hs : route.isWebsocket = true)
    (accum : Accum σ) :
    accum.register route =
      { accum with wsByPath := accum.wsByPath.set route.axumPath route.state } := by
  rw [Accum.register, if_pos hs]

theorem register_unknown {route : RouteInfo σ} (hr : route.isRegistered = false)
    (accum : Accum σ) : accum.register route = accum := by
  simp only [RouteInfo.isRegistered, Bool.or_eq_false_iff] at hr
  simp [Accum.register, hr.1, methodRouter_isEmpty, hr.2]

theorem register_http {route : RouteInfo σ} (hs : route.isWebsocket = false)
    (hr : route.isRegistered = true) (accum : Accum σ) :
    accum.register route = { accum with byPath := addRoute route accum.byPath } := by
  have hany : route.methods.any Method.supported = true := by
    simpa [RouteInfo.isRegistered, hs] using hr
  simp [Accum.register, hs, methodRouter_isEmpty, hany]

theorem Accum.Covers.register {accum : Accum σ} {routes : List (RouteInfo σ)}
    (hc : accum.Covers routes) (route : RouteInfo σ) :
    (accum.register route).Covers (routes ++ [route]) := by
  cases hs : route.isWebsocket with
  | true =>
    rw [register_socket hs]
    refine ⟨hc.nodup_http, ?_, fun path => ?_, fun path => ?_⟩
    · rw [Dict.keys_set]
      exact nodup_addNew hc.nodup_ws _
    · rw [exists_mem_concat, ← hc.mem_http path]
      simp [hs]
    · rw [Dict.keys_set, mem_addNew, exists_mem_concat, ← hc.mem_ws path]
      simp [hs]
  | false =>
    cases hr : route.isRegistered with
    | false =>
      rw [register_unknown hr]
      refine ⟨hc.nodup_http, hc.nodup_ws, fun path => ?_, fun path => ?_⟩
      · rw [exists_mem_concat, ← hc.mem_http path]
        simp [hr]
      · rw [exists_mem_concat, ← hc.mem_ws path]
        simp [hs]
    | true =>
      rw [register_http hs hr]
      refine ⟨?_, hc.nodup_ws, fun path => ?_, fun path => ?_⟩
      · rw [addRoute_paths]
        exact nodup_addNew hc.nodup_http _
      · rw [addRoute_paths, mem_addNew, exists_mem_concat, ← hc.mem_http path]
        simp [hs, hr]
      · rw [exists_mem_concat, ← hc.mem_ws path]
        simp [hs]

theorem accumulate_concat (routes : List (RouteInfo σ)) (route : RouteInfo σ) :
    accumulate (routes ++ [route]) = (accumulate routes).register route := by
  rw [accumulate, foldl_concat]
  rfl

theorem accumulate_covers (routes : List (RouteInfo σ)) : (accumulate routes).Covers routes := by
  induction routes using List.reverseRecOn with
  | nil =>
    exact ⟨by simp [accumulate], by simp [accumulate], by simp [accumulate], by simp [accumulate]⟩
  | append_singleton routes route ih =>
    rw [accumulate_concat]
    exact ih.register route

section

variable (order : List (Path × List Method)) (entries : List (PathEntry σ))
  {wsByPath : Dict AxumPath σ}

theorem finishAll_http :
    (finishAll order entries wsByPath).1.map Prod.fst = entries.map PathEntry.path := by
  induction entries generalizing wsByPath with
  | nil => rfl
  | cons entry rest ih => simp [finishAll, ih]

theorem finishAll_ws :
    (finishAll order entries wsByPath).2.map Prod.fst =
      (wsByPath.map Prod.fst).filter fun path => path ∉ entries.map PathEntry.path := by
  induction entries generalizing wsByPath with
  | nil => simp [finishAll]
  | cons entry rest ih =>
    rw [finishAll, ih, Dict.keys_erase, filter_filter]
    apply filter_congr
    intro path _
    simp [Bool.and_comm]

end

def Routers.inserted (routers : Routers σ) : List AxumPath :=
  routers.http.map Prod.fst ++ routers.ws.map Prod.fst

variable (routes : List (RouteInfo σ))

theorem inserted_buildRouter :
    (buildRouter routes).inserted =
      (accumulate routes).byPath.map PathEntry.path ++
        ((accumulate routes).wsByPath.map Prod.fst).filter
          fun path => path ∉ (accumulate routes).byPath.map PathEntry.path := by
  rw [Routers.inserted, buildRouter, finishAll_http, finishAll_ws]

theorem inserted_nodup : (buildRouter routes).inserted.Nodup := by
  have hc := accumulate_covers routes
  rw [inserted_buildRouter, nodup_append]
  refine ⟨hc.nodup_http, hc.nodup_ws.filter _, fun path hh other hws hs => ?_⟩
  have hnot := (mem_filter.1 hws).2
  rw [← hs] at hnot
  exact of_decide_eq_true hnot hh

theorem mem_inserted_iff (path : AxumPath) :
    path ∈ (buildRouter routes).inserted ↔
      ∃ route ∈ routes, route.isRegistered = true ∧ route.axumPath = path := by
  have hc := accumulate_covers routes
  rw [inserted_buildRouter, mem_append, mem_filter, hc.mem_ws]
  constructor
  · rintro (hh | ⟨⟨route, hmem, hs, hp⟩, _⟩)
    · obtain ⟨route, hmem, _, hr, hp⟩ := (hc.mem_http path).1 hh
      exact ⟨route, hmem, hr, hp⟩
    · exact ⟨route, hmem, by simp [RouteInfo.isRegistered, hs], hp⟩
  · rintro ⟨route, hmem, hr, hp⟩
    by_cases hh : path ∈ (accumulate routes).byPath.map PathEntry.path
    · exact .inl hh
    · cases hs : route.isWebsocket with
      | true => exact .inr ⟨⟨route, hmem, hs, hp⟩, decide_eq_true hh⟩
      | false =>
        exact absurd ((hc.mem_http path).2 ⟨route, hmem, hs, hr, hp⟩) hh

end Paths

end FastapiTurbo.RouterTable
