import FastapiTurbo.RouterAnswers

/-! Top-level routes and mounts (`applications.py`).  In process `__call__` follows the
mounts before it enters the table of the application, on the socket there is the table
alone, into which `_collect_all_routes` has put the mounts as routes.  The one goes by
the percent-decoded path of the ASGI scope, the other by the path of the request line. -/
namespace FastapiTurbo.MountPrecedence

open Lib RouterTable RouterConflicts
  RouterAnswers

/-- A collected route: its path and its methods, which come from a set. -/
structure RouteDict where
  path : Path
  methods : List Method
  distinct : methods.Nodup

/-- A mounted application: a FastAPI application with the routes that it collects and
its `openapi_url`, an `APIRouter`, whose routes have its own prefix, or another ASGI
callable. -/
inductive Mounted where
  | application (routes : List RouteDict) (openapiUrl : Path)
  | router (routes : List RouteDict)
  | callable

inductive RouterEntry where
  | route (route : RouteDict)
  /-- A Starlette `Mount`. -/
  | mount (path : Path) (target : Mounted)

/-- An application: the routes of its own router, those of included routers under their
prefixes, and what `app.mount` has appended to `_mounts`. -/
structure App where
  entries : List RouterEntry
  included : List RouteDict
  mounts : List (Path × Mounted)

/-- What serves a request: an element of `app.router.routes`, a route of an included
router, or an element of `_mounts`. -/
inductive Owner where
  | own (index : Nat)
  | included (index : Nat)
  | mount (index : Nat)
  deriving DecidableEq

section Collect

def rstripSlashes (path : Path) : Path :=
  (path.reverse.dropWhile (· = '/')).reverse

def normalisePath (path : Path) : Path :=
  if path = ['/'] then path
  else '/' :: trimSlashes path ++ (if path.getLast? = some '/' then ['/'] else [])

def RouteDict.withPath (route : RouteDict) (path : Path) : RouteDict :=
  { route with path }

def mountedPath (mountPath original : Path) : Path :=
  let joined := rstripSlashes mountPath ++ (if original = ['/'] then [] else original)
  if joined = [] then ['/'] else joined

def proxyMethods : List Method :=
  [.get, .post, .put, .patch, .delete, .head, .options]

def proxyRoutes (path : Path) : List RouteDict :=
  proxyMethods.map fun method => ⟨path, [method], List.nodup_singleton method⟩

/-- `_build_asgi_mount_routes`: the mount itself and all that is below it, with a route
for each method. -/
def buildAsgiMountRoutes (mountPath : Path) : List RouteDict :=
  let clean := rstripSlashes mountPath
  proxyRoutes (if clean = [] then ['/'] else clean) ++
    proxyRoutes (clean ++ "/\x7b__asgi_rest__:path\x7d".toList)

def openapiRoute (mountPath openapiUrl : Path) : List RouteDict :=
  if openapiUrl = [] then []
  else [⟨rstripSlashes mountPath ++ openapiUrl, [.get], List.nodup_singleton _⟩]

/-- The routes of an element of `_mounts`; the schema of a FastAPI application is
served below its mount. -/
def collectMount (mountPath : Path) : Mounted → List RouteDict
  | .application routes openapiUrl =>
    (routes.map fun route => route.withPath (mountedPath mountPath route.path)) ++
      openapiRoute mountPath openapiUrl
  | .router routes =>
    routes.map fun route => route.withPath (normalisePath (mountPath ++ route.path))
  | .callable => buildAsgiMountRoutes mountPath

def collectEntry : RouterEntry → List RouteDict
  | .route route => [route.withPath (normalisePath route.path)]
  | .mount path target =>
    let full := normalisePath path
    let mountPath := if full = ['/'] then full else rstripSlashes full
    match target with
    | .application routes _ =>
      routes.map fun route => route.withPath (mountedPath mountPath route.path)
    | target => collectMount mountPath target

def owned {α : Type} (owner : Nat → Owner) (collect : α → List RouteDict) (items : List α) :
    List (RouteDict × Owner) :=
  items.zipIdx.flatMap fun item => (collect item.1).map fun route => (route, owner item.2)

/-- `_collect_all_routes`, with what each of the routes belongs to. -/
def collectAllRoutes (app : App) : List (RouteDict × Owner) :=
  owned .own collectEntry app.entries ++
    owned .included (fun route => [route.withPath (normalisePath route.path)]) app.included ++
    owned .mount (fun mount => collectMount mount.1 mount.2) app.mounts

end Collect

section Doors

/-- The route as `build_router` is given it; `none` where axum does not take its
path. -/
def routeInfo (collected : RouteDict × Owner) : Option (RouteInfo Owner) :=
  if hpath : (parsePath (convertPath collected.1.path)).isSome = true then
    some ⟨collected.1.path, collected.1.methods, false, collected.2, hpath, collected.1.distinct⟩
  else none

def tableDoor (app : App) (method : Method) (path : Path) : Option Owner :=
  ((collectAllRoutes app).mapM routeInfo).bind fun infos => handledBy infos method path

def underMount (mountPath path : Path) : Bool :=
  let mountPrefix := rstripSlashes mountPath
  mountPrefix ≠ [] && (path = mountPrefix || (mountPrefix ++ ['/']).isPrefixOf path)

/-- A route of the router itself whose declared path is the path of the request. -/
def topLevelHit (app : App) (method : Method) (path : Path) : Bool :=
  app.entries.any fun entry =>
    match entry with
    | .route route => route.path = path && route.methods.contains method
    | .mount _ _ => false

def mountsInOrder (app : App) : List (Path × Owner) :=
  app.mounts.zipIdx.map (fun mount => (mount.1.1, .mount mount.2)) ++
    app.entries.zipIdx.filterMap fun entry =>
      match entry.1 with
      | .route _ => none
      | .mount path _ => some (path, .own entry.2)

def asgiTryHttpMount (app : App) (method : Method) (path : Path) : Option Owner :=
  ((mountsInOrder app).find? fun mount =>
    underMount mount.1 path && !topLevelHit app method path).map Prod.snd

/-- How a path gets into the process.  The ASGI server decodes the one of the request
line; `build_inproc_request` has the `http` crate parse a URI that begins with the
decoded one, and the table is asked for the path of that URI, if it is one. -/
structure Transport where
  decode : Path → Path
  uriPath : Path → Option Path

/-- The `http` branch of `__call__`. -/
def inProcessDoor (transport : Transport) (app : App) (method : Method) (raw : Path) :
    Option Owner :=
  let path := transport.decode raw
  match asgiTryHttpMount app method path with
  | some owner => some owner
  | none => (transport.uriPath path).bind (tableDoor app method)

/-- The mount that takes a request in process: the first in order whose path it is
under, unless a route of the router has just this path. -/
structure Claims (app : App) (method : Method) (path : Path) (owner : Owner) : Prop where
  no_hit : topLevelHit app method path = false
  first : ∃ earlier mountPath later, mountsInOrder app = earlier ++ (mountPath, owner) :: later ∧
    underMount mountPath path = true ∧ ∀ other ∈ earlier, underMount other.1 path = false

theorem asgiTryHttpMount_iff (app : App) (method : Method) (path : Path) (owner : Owner) :
    asgiTryHttpMount app method path = some owner ↔ Claims app method path owner := by
  rw [asgiTryHttpMount, Option.map_eq_some_iff]
  constructor
  · rintro ⟨⟨mountPath, owner⟩, hfind, rfl⟩
    obtain ⟨hunder, earlier, later, hmounts, hearlier⟩ := List.find?_eq_some_iff_append.1 hfind
    rw [Bool.and_eq_true, Bool.not_eq_true'] at hunder
    refine ⟨hunder.2, earlier, mountPath, later, hmounts, hunder.1, ?_⟩
    simpa [hunder.2] using hearlier
  · rintro ⟨hhit, earlier, mountPath, later, hmounts, hunder, hearlier⟩
    refine ⟨(mountPath, owner),
      List.find?_eq_some_iff_append.2 ⟨?_, earlier, later, hmounts, ?_⟩, rfl⟩
    · simp [hunder, hhit]
    · simpa [hhit] using hearlier

/-- The route of the table that is due a request, where axum takes the paths. -/
def TableServes (app : App) (method : Method) (path : Path) (owner : Owner) : Prop :=
  ∃ infos chosen, (collectAllRoutes app).mapM routeInfo = some infos ∧
    Handles infos method path chosen ∧ chosen.state = owner

private theorem isWebsocket_of_routeInfo {collected : RouteDict × Owner} {info : RouteInfo Owner}
    (hin : routeInfo collected = some info) : info.isWebsocket = false := by
  unfold routeInfo at hin
  split at hin
  · rw [← Option.some.inj hin]
  · simp at hin

theorem tableDoor_iff (app : App) (method : Method) (path : Path) (owner : Owner) :
    tableDoor app method path = some owner ↔ TableServes app method path owner := by
  have hhttp (infos : List (RouteInfo Owner))
      (hinfos : (collectAllRoutes app).mapM routeInfo = some infos) :
      ∀ info ∈ infos, info.isWebsocket = false := by
    intro info hmem
    obtain ⟨collected, -, hinfo⟩ := exists_of_mem_mapM hinfos hmem
    exact isWebsocket_of_routeInfo hinfo
  rw [tableDoor, Option.bind_eq_some_iff]
  constructor
  · rintro ⟨infos, hinfos, hhandled⟩
    obtain ⟨chosen, hchosen, hstate⟩ :=
      (handledBy_http_iff (hhttp infos hinfos) method path owner).1 hhandled
    exact ⟨infos, chosen, hinfos, hchosen, hstate⟩
  · rintro ⟨infos, chosen, hinfos, hchosen, hstate⟩
    exact ⟨infos, hinfos,
      (handledBy_http_iff (hhttp infos hinfos) method path owner).2 ⟨chosen, hchosen, hstate⟩⟩

/-- The table has one and the same route for the path of the URI and for that of the
request line, or none for either. -/
def SameInTable (transport : Transport) (app : App) (method : Method) (raw : Path) : Prop :=
  ∀ owner, (∃ path, transport.uriPath (transport.decode raw) = some path ∧
      TableServes app method path owner) ↔ TableServes app method raw owner

private theorem bind_tableDoor_eq_iff (transport : Transport) (app : App) (method : Method)
    (raw : Path) :
    (transport.uriPath (transport.decode raw)).bind (tableDoor app method) =
        tableDoor app method raw ↔ SameInTable transport app method raw := by
  rw [Option.ext_iff]
  refine forall_congr' fun owner => ?_
  simp only [Option.bind_eq_some_iff, tableDoor_iff]

/-- A server that decodes by `unquote`, for paths that are URIs as they stand. -/
def asgiServer : Transport :=
  ⟨unquote, some⟩

def itemsUnderMount : App where
  entries := [.route ⟨"/api/{item}".toList, [.get], getItem.distinct⟩]
  included := []
  mounts := [("/api".toList, .callable)]

def filesByName : App where
  entries := [.route ⟨"/files/{name}".toList, [.get], getItem.distinct⟩]
  included := []
  mounts := []

end Doors

end FastapiTurbo.MountPrecedence
