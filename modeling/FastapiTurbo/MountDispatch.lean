import FastapiTurbo.HandlerBridge
import FastapiTurbo.MiddlewareWrap

/-! Requests to applications that are mounted inside one another (`applications.py`):
the in-process door, which follows the mounts before it enters an application, the
socket door, whose radix holds the flattened routes of the whole tree, and the
`@app.middleware("http")` functions that either of them runs around the endpoint. -/
namespace FastapiTurbo.MountDispatch

open Lib Py HandlerBridge MiddlewareWrap List

variable {ρ : Type}

/-- A middleware that awaits `call_next` once and does not raise: how often it
suspends before and after, and what it returns.  `caught` is what it does with the
wrapper's internal error. -/
structure HttpMiddleware (ρ : Type) where
  before : RequestView → Nat
  after : RequestView → Result ρ → Nat × Value ρ
  caught : RequestView → Option (Nat × Value ρ)

def HttpMiddleware.toMiddleware (middleware : HttpMiddleware ρ) : Middleware ρ :=
  .coroutineFunction fun view =>
    .forwards (middleware.before view)
      (fun result => ((middleware.after view result).1, .returned (middleware.after view result).2))
      ((middleware.caught view).map fun caught => (caught.1, .returned caught.2))

inductive RouteKind where
  | ordinary
  /-- The class overrides `get_route_handler`. -/
  | custom
  /-- The class, or that of an included router above it, overrides `matches` or
  `handle`. -/
  | dispatchHook
  /-- A Starlette route, of `add_route`, `@app.route` or `FastAPI(routes=...)`. -/
  | passthrough
  /-- The schema of a mounted application, at its `openapi_url`. -/
  | openapi
  deriving DecidableEq

/-- A route.  The endpoint of an ordinary one is the synchronous caller that
`_make_sync_wrapper` returns. -/
structure Route (ρ : Type) where
  path : String
  methods : List String
  kind : RouteKind
  endpoint : Endpoint ρ
  endpoint_sync : endpoint.isAsync = false

/-- An application.  `openapi` is the route that its parent adds for its schema, if it
has an `openapi_url`. -/
structure AppInfo (ρ : Type) where
  mountPath : String
  middlewares : List (HttpMiddleware ρ)
  routes : List (Route ρ)
  openapi : Option (Route ρ)
  openapi_kind : ∀ route ∈ openapi, route.kind = .openapi

inductive App (ρ : Type) where
  | node (info : AppInfo ρ) (mounts : List (App ρ))

def App.info : App ρ → AppInfo ρ
  | .node info _ => info

/-- A collected route.  `baked` are the middlewares that a custom endpoint is wrapped
in as it is collected, `below` the applications that lead down to its own. -/
structure Entry (ρ : Type) where
  path : String
  route : Route ρ
  baked : List (HttpMiddleware ρ)
  below : List (AppInfo ρ)

def rstripSlash (path : String) : String :=
  String.ofList (path.toList.reverse.dropWhile (· = '/')).reverse

def joinMount (mountPath original : String) : String :=
  let joined := rstripSlash mountPath ++ (if original = "/" then "" else original)
  if joined = "" then "/" else joined

def Entry.under (info : AppInfo ρ) (entry : Entry ρ) : Entry ρ :=
  { entry with path := joinMount info.mountPath entry.path, below := info :: entry.below }

def openapiEntry (info : AppInfo ρ) : List (Entry ρ) :=
  info.openapi.toList.map fun route =>
    ⟨rstripSlash info.mountPath ++ route.path, route, info.middlewares, [info]⟩

mutual

def collectAllRoutes : App ρ → List (Entry ρ)
  | .node info mounts =>
    info.routes.map (fun route => ⟨route.path, route, info.middlewares, []⟩) ++
      collectMounts mounts

def collectMounts : List (App ρ) → List (Entry ρ)
  | [] => []
  | child :: rest =>
    (collectAllRoutes child).map (Entry.under child.info) ++
      openapiEntry child.info ++ collectMounts rest

end

def registered (app : App ρ) : List (Entry ρ) :=
  (collectAllRoutes app).filter fun entry => entry.route.kind ≠ .dispatchHook

/-- How a method and a path find a route: in the radix, and at the 404 fallback among
the routes of the application itself. -/
structure Matcher (ρ : Type) where
  radix : List (Entry ρ) → String → String → Option (Entry ρ)
  radix_mem : ∀ table method path entry, radix table method path = some entry → entry ∈ table
  fallback : List (Route ρ) → String → String → Option (Route ρ)
  fallback_mem : ∀ routes method path route,
    fallback routes method path = some route → route ∈ routes

/-- What serves a request, with the applications on the mount path to it.  `serving`
is the place on that path of the application whose door was entered. -/
structure Served (ρ : Type) where
  path : List (AppInfo ρ)
  serving : Nat
  route : Route ρ
  baked : List (HttpMiddleware ρ)
  isFallback : Bool

def Served.under (info : AppInfo ρ) (served : Served ρ) : Served ρ :=
  { served with path := info :: served.path, serving := served.serving + 1 }

def serveDoor (matcher : Matcher ρ) (app : App ρ) (method path : String) : Option (Served ρ) :=
  match matcher.radix (registered app) method path with
  | some entry => some ⟨app.info :: entry.below, 0, entry.route, entry.baked, false⟩
  | none =>
    (matcher.fallback app.info.routes method path).map fun route =>
      ⟨[app.info], 0, route, app.info.middlewares, true⟩

def underPrefix (mountPrefix path : String) : Bool :=
  path = mountPrefix || (mountPrefix ++ "/").toList.isPrefixOf path.toList

def subPath (mountPrefix path : String) : String :=
  let rest := String.ofList (path.toList.drop mountPrefix.length)
  if rest = "" then "/" else rest

def topLevelHit (info : AppInfo ρ) (method path : String) : Bool :=
  info.routes.any fun route => route.path = path && route.methods.contains method

mutual

def callApp (matcher : Matcher ρ) (method path : String) : App ρ → Option (Served ρ)
  | .node info mounts =>
    match tryHttpMount matcher method path info mounts with
    | some served => served.map (Served.under info)
    | none => serveDoor matcher (.node info mounts) method path

def tryHttpMount (matcher : Matcher ρ) (method path : String) (info : AppInfo ρ) :
    List (App ρ) → Option (Option (Served ρ))
  | [] => none
  | child :: rest =>
    let mountPrefix := rstripSlash child.info.mountPath
    if mountPrefix = "" || !underPrefix mountPrefix path || topLevelHit info method path then
      tryHttpMount matcher method path info rest
    else some (callApp matcher method (subPath mountPrefix path) child)

end

inductive Door where
  | socket
  | inProcess
  deriving DecidableEq

def serve (matcher : Matcher ρ) (door : Door) (root : App ρ) (method path : String) :
    Option (Served ρ) :=
  match door with
  | .socket => serveDoor matcher root method path
  | .inProcess => callApp matcher method path root

section Trace

/-- What a call brings besides the route: the door's keyword arguments, the request
as a custom endpoint is shown it, what that endpoint or a passthrough one answers, how
often the latter suspends, and the class that the handler has been found to be of. -/
structure Call (ρ : Type) where
  runtime : Runtime ρ
  kwargs : Kwargs ρ
  view : RequestView
  answer : Value ρ
  suspensions : Nat
  slot : UInt8

/-- `custom_route_endpoint`, which suspends before anything else, inside the chain
of `_wrapped_custom`. -/
def wrappedCustom (view : RequestView) (answer : Value ρ) :
    Nat → List (HttpMiddleware ρ) → Coroutine Started (Value ρ) PyErr
  | _, [] => .suspend [] (.emit .endpoint (.done (.returned answer)))
  | index, middleware :: rest =>
    .emit (.middleware index) (.pause (middleware.before view)
      ((wrappedCustom view answer (index + 1) rest).follow fun outcome =>
        match outcome with
        | .raised error => .done (.raised error)
        | .returned value =>
          let after := middleware.after view (.returned value)
          .pause after.1 (.done (.returned after.2))))

def customRun (call : Call ρ) (baked : List (HttpMiddleware ρ)) : List Started :=
  (callAsyncOnLocalLoopClassified
    (fun _ : Unit => .returned (wrappedCustom call.view call.answer 0 baked.reverse))
    () call.slot).run.effects

/-- `_starlette_passthrough_endpoint`, which no middleware is wrapped around. -/
def starlettePassthroughEndpoint (call : Call ρ) : Coroutine Started (Value ρ) PyErr :=
  .emit .endpoint (.pause call.suspensions (.done (.returned call.answer)))

def passthroughRun (call : Call ρ) : List Started :=
  (callAsyncOnLocalLoopClassified
    (fun _ : Unit => .returned (starlettePassthroughEndpoint call)) () call.slot).run.effects

def onceEach (middlewares : List (HttpMiddleware ρ)) : List Started :=
  (List.range middlewares.length).map .middleware ++ [.endpoint]

def ordinaryRun (call : Call ρ) (endpoint : Endpoint ρ)
    (middlewares : List (HttpMiddleware ρ)) : List Started :=
  started (wrapWithHttpMiddlewares call.runtime endpoint
    (middlewares.map HttpMiddleware.toMiddleware) call.kwargs).events

/-- A body that starts: a middleware of the application at a place on the mount path,
or the endpoint. -/
inductive Step where
  | middleware (depth index : Nat)
  | endpoint
  deriving DecidableEq

def stepAt (depth : Nat) : Started → Step
  | .middleware index => .middleware depth index
  | .endpoint => .endpoint

def servingMiddlewares (served : Served ρ) : List (HttpMiddleware ρ) :=
  (served.path[served.serving]?.map AppInfo.middlewares).getD []

/-- The place of the one application whose middlewares are wrapped around the route,
if there is one. -/
def chainDepth (served : Served ρ) : Option Nat :=
  if served.isFallback then some served.serving
  else
    match served.route.kind with
    | .ordinary | .dispatchHook => some served.serving
    | .custom => some (served.path.length - 1)
    | .passthrough | .openapi => none

def chainRun (call : Call ρ) (served : Served ρ) : List Started :=
  if served.isFallback then onceEach served.baked
  else
    match served.route.kind with
    | .ordinary | .dispatchHook =>
      ordinaryRun call served.route.endpoint (servingMiddlewares served)
    | .custom => customRun call served.baked
    | .passthrough => passthroughRun call
    | .openapi => [.endpoint]

def servedSteps (call : Call ρ) (served : Served ρ) : List Step :=
  (chainRun call served).map (stepAt ((chainDepth served).getD served.serving))

/-- The middlewares of every application on the path, the parent's first, and the
endpoint inside them. -/
def dueFrom (depth : Nat) : List (AppInfo ρ) → List Step
  | [] => [.endpoint]
  | info :: rest =>
    (List.range info.middlewares.length).map (.middleware depth) ++ dueFrom (depth + 1) rest

def dueSteps (served : Served ρ) : List Step :=
  dueFrom 0 served.path

end Trace

section Reaches

/-- `path` leads from an application down its mounts to the one that owns `route`,
whose middlewares are `own`. -/
inductive Reaches : App ρ → List (AppInfo ρ) → Route ρ → List (HttpMiddleware ρ) → Prop where
  | own {info : AppInfo ρ} {mounts : List (App ρ)} {route : Route ρ}
      (hroute : route ∈ info.routes ∨ info.openapi = some route) :
      Reaches (.node info mounts) [info] route info.middlewares
  | mounted {info : AppInfo ρ} {mounts : List (App ρ)} {child : App ρ}
      {path : List (AppInfo ρ)} {route : Route ρ} {own : List (HttpMiddleware ρ)}
      (hchild : child ∈ mounts) (hbelow : Reaches child path route own) :
      Reaches (.node info mounts) (info :: path) route own

section

variable {app : App ρ} {path : List (AppInfo ρ)} {route : Route ρ}
  {own : List (HttpMiddleware ρ)} (hreaches : Reaches app path route own)
include hreaches

private theorem Reaches.path_ne_nil : path ≠ [] := by
  cases hreaches <;> simp

theorem Reaches.getLast : (path[path.length - 1]?).map AppInfo.middlewares = some own := by
  induction hreaches with
  | own hroute => rfl
  | @mounted info mounts child path route own hchild hbelow ih =>
    have hlength : 0 < path.length := length_pos_iff.2 hbelow.path_ne_nil
    have hlast : (info :: path).length - 1 = (path.length - 1) + 1 := by
      simp only [length_cons]
      omega
    rw [hlast]
    exact ih

end

private theorem openapiEntry_reaches (app : App ρ) {entry : Entry ρ}
    (hentry : entry ∈ openapiEntry app.info) :
    Reaches app entry.below entry.route entry.baked := by
  obtain ⟨route, hroute, rfl⟩ := mem_map.1 hentry
  cases app with
  | node info mounts => exact .own (.inr (Option.mem_toList.1 hroute))

mutual

theorem collectAllRoutes_reaches (app : App ρ) (entry : Entry ρ)
    (hentry : entry ∈ collectAllRoutes app) :
    Reaches app (app.info :: entry.below) entry.route entry.baked := by
  cases app with
  | node info mounts =>
    rw [collectAllRoutes, mem_append, mem_map] at hentry
    rcases hentry with ⟨route, hroute, rfl⟩ | hmounted
    · exact .own (.inl hroute)
    · obtain ⟨child, hchild, hbelow⟩ := collectMounts_reaches mounts entry hmounted
      exact .mounted hchild hbelow

theorem collectMounts_reaches (mounts : List (App ρ)) (entry : Entry ρ)
    (hentry : entry ∈ collectMounts mounts) :
    ∃ child ∈ mounts, Reaches child entry.below entry.route entry.baked := by
  cases mounts with
  | nil => simp [collectMounts] at hentry
  | cons child rest =>
    rw [collectMounts, mem_append, mem_append, mem_map] at hentry
    rcases hentry with (⟨below, hbelow, rfl⟩ | hopenapi) | hrest
    · refine ⟨child, mem_cons_self, ?_⟩
      simp only [Entry.under]
      exact collectAllRoutes_reaches child below hbelow
    · exact ⟨child, mem_cons_self, openapiEntry_reaches child hopenapi⟩
    · obtain ⟨other, hother, hreaches⟩ := collectMounts_reaches rest entry hrest
      exact ⟨other, mem_cons_of_mem child hother, hreaches⟩

end

/-- What dispatch knows of the route that it picks: the way down to it, and where on
that way the door is.  A fallback serves the routes of its own application only. -/
structure Placed (app : App ρ) (served : Served ρ) : Prop where
  reaches : Reaches app served.path served.route served.baked
  serving_lt : served.serving < served.path.length
  fallback_last : served.isFallback = true → served.serving = served.path.length - 1

section

variable (matcher : Matcher ρ)

theorem serveDoor_placed (app : App ρ) (method path : String) (served : Served ρ)
    (hserved : serveDoor matcher app method path = some served) : Placed app served := by
  unfold serveDoor at hserved
  split at hserved
  · rename_i entry hentry
    cases hserved
    have hregistered := matcher.radix_mem _ _ _ _ hentry
    have hcollected := (mem_filter.1 hregistered).1
    exact ⟨collectAllRoutes_reaches app entry hcollected, by simp, by simp⟩
  · obtain ⟨route, hroute, rfl⟩ := Option.map_eq_some_iff.1 hserved
    have hmem := matcher.fallback_mem _ _ _ _ hroute
    cases app with
    | node info mounts => exact ⟨.own (.inl hmem), by simp, by simp⟩

theorem Placed.under {child : App ρ} {served : Served ρ} (hplaced : Placed child served)
    (info : AppInfo ρ) {mounts : List (App ρ)} (hchild : child ∈ mounts) :
    Placed (.node info mounts) (served.under info) := by
  have hlt := hplaced.serving_lt
  refine ⟨.mounted hchild hplaced.reaches, ?_, ?_⟩
  · simpa [Served.under] using hlt
  · intro hfallback
    have hlast := hplaced.fallback_last hfallback
    simp only [Served.under, length_cons]
    omega

mutual

theorem callApp_placed (method path : String) (app : App ρ) (served : Served ρ)
    (hserved : callApp matcher method path app = some served) : Placed app served := by
  cases app with
  | node info mounts =>
    rw [callApp] at hserved
    split at hserved
    · rename_i inner hmount
      obtain ⟨below, rfl, rfl⟩ := Option.map_eq_some_iff.1 hserved
      obtain ⟨child, hchild, hbelow⟩ := tryHttpMount_placed method path info mounts below hmount
      exact hbelow.under info hchild
    · exact serveDoor_placed matcher _ method path served hserved

theorem tryHttpMount_placed (method path : String) (info : AppInfo ρ) (mounts : List (App ρ))
    (served : Served ρ)
    (hserved : tryHttpMount matcher method path info mounts = some (some served)) :
    ∃ child ∈ mounts, Placed child served := by
  cases mounts with
  | nil => simp [tryHttpMount] at hserved
  | cons child rest =>
    simp only [tryHttpMount] at hserved
    split at hserved
    · obtain ⟨other, hother, hplaced⟩ := tryHttpMount_placed method path info rest served hserved
      exact ⟨other, mem_cons_of_mem child hother, hplaced⟩
    · have hchild := callApp_placed method _ child served (Option.some.inj hserved)
      exact ⟨child, mem_cons_self, hchild⟩

end

theorem serve_placed (door : Door) (root : App ρ) (method path : String) (served : Served ρ)
    (hserved : serve matcher door root method path = some served) : Placed root served := by
  cases door with
  | socket => exact serveDoor_placed matcher root method path served hserved
  | inProcess => exact callApp_placed matcher method path root served hserved

end

end Reaches

section Once

private theorem onceEach_nodup (middlewares : List (HttpMiddleware ρ)) :
    (onceEach middlewares).Nodup := by
  refine nodup_append.2 ⟨?_, by simp, by simp⟩
  rw [List.Nodup, pairwise_map]
  exact nodup_range.imp fun hne heq => hne (Started.middleware.inj heq)

private theorem onceEach_eq_range' (middlewares : List (HttpMiddleware ρ)) :
    onceEach middlewares =
      (List.range' 0 middlewares.reverse.length).map .middleware ++ [.endpoint] := by
  rw [onceEach, range_eq_range', length_reverse]

private theorem callHandlerSync_started (runtime : Runtime ρ) (endpoint : Endpoint ρ)
    (kwargs : Kwargs ρ)
    (hreached : endpoint.defersExtractionErrors = true ∨ deferredErrors kwargs = none) :
    started (callHandlerSync runtime endpoint kwargs).events = [.endpoint] := by
  unfold callHandlerSync
  rcases hreached with hdefers | hnone
  · simp [hdefers, started, Event.started]
  · cases endpoint.defersExtractionErrors <;> simp [hnone, started, Event.started]

theorem runChain_started_iff (runtime : Runtime ρ) (endpoint : Endpoint ρ) (view : RequestView)
    (kwargs : Kwargs ρ)
    (hreached : endpoint.defersExtractionErrors = true ∨ deferredErrors kwargs = none)
    (index : Nat) (chain : List (HttpMiddleware ρ)) :
    started (runChain runtime endpoint view kwargs index
        (chain.map HttpMiddleware.toMiddleware)).events =
        (List.range' index chain.length).map .middleware ++ [.endpoint] ↔
      ∀ middleware ∈ chain, middleware.before view = 0 := by
  induction chain generalizing index with
  | nil => simp [runChain, callHandlerSync_started runtime endpoint kwargs hreached]
  | cons middleware rest ih =>
    have hinner := ih (index + 1)
    simp only [map_cons, HttpMiddleware.toMiddleware, runChain, sendBody, length_cons,
      range'_succ, forall_mem_cons]
    by_cases hbefore : 0 < middleware.before view
    · have hne : middleware.before view ≠ 0 := by omega
      simp [hbefore, hne, started, Event.started]
    · have hzero : middleware.before view = 0 := by omega
      rw [← hinner]
      simp [hzero]

/-- No middleware suspends before `call_next`, and no later suspension makes the
wrapper start over. -/
def NeverWaits (call : Call ρ) (endpoint : Endpoint ρ)
    (middlewares : List (HttpMiddleware ρ)) : Prop :=
  (∀ middleware ∈ middlewares, middleware.before (makeScope call.kwargs) = 0) ∧
    ¬Switches call.runtime endpoint (middlewares.reverse.map HttpMiddleware.toMiddleware)
      call.kwargs

theorem ordinaryRun_once_iff (call : Call ρ) (endpoint : Endpoint ρ)
    (middlewares : List (HttpMiddleware ρ))
    (hreached : endpoint.defersExtractionErrors = true ∨
      deferredErrors (chainKwargs call.kwargs) = none) :
    ordinaryRun call endpoint middlewares = onceEach middlewares ↔
      middlewares = [] ∨ NeverWaits call endpoint middlewares := by
  by_cases hempty : middlewares = []
  · subst hempty
    simp [ordinaryRun, wrapWithHttpMiddlewares, Passes.events, started, Event.started, onceEach]
  · obtain ⟨outermost, inner, hreverse⟩ :=
      exists_cons_of_ne_nil (by simpa using hempty : middlewares.reverse ≠ [])
    have hwrapped : wrapWithHttpMiddlewares call.runtime endpoint
        (middlewares.map HttpMiddleware.toMiddleware) call.kwargs =
        wrappedSync call.runtime endpoint
          (middlewares.reverse.map HttpMiddleware.toMiddleware) call.kwargs := by
      rw [map_reverse]
      cases middlewares with
      | nil => exact absurd rfl hempty
      | cons last earlier => rfl
    rw [ordinaryRun, hwrapped]
    simp only [hempty, false_or, NeverWaits]
    by_cases hswitches : Switches call.runtime endpoint
        (middlewares.reverse.map HttpMiddleware.toMiddleware) call.kwargs
    · -- the outermost middleware is a coroutine function, so it has run twice
      simp only [hswitches, not_true, and_false, iff_false]
      intro honce
      have hnodup := onceEach_nodup middlewares
      rw [← honce] at hnodup
      rw [hreverse] at hnodup hswitches
      rcases (wrappedSync_once_iff _ _ _ _ _).1 hnodup with hstays | hnever
      · exact hstays hswitches
      · exact hnever
    · have hchain := runChain_started_iff call.runtime endpoint (makeScope call.kwargs)
        (chainKwargs call.kwargs) hreached 0 middlewares.reverse
      rw [wrappedSync_of_not_switches hswitches, onceEach_eq_range']
      simp only [hswitches]
      simpa [Passes.events, firstPass] using hchain

section

variable (view : RequestView) (answer : Value ρ) (index : Nat) (chain : List (HttpMiddleware ρ))

theorem wrappedCustom_drive :
    (wrappedCustom view answer index chain).drive.effects =
        (List.range' index chain.length).map .middleware ++ [.endpoint] ∧
      ∃ value, (wrappedCustom view answer index chain).drive.outcome = .returned value := by
  induction chain generalizing index with
  | nil => exact ⟨rfl, answer, rfl⟩
  | cons middleware rest ih =>
    obtain ⟨heffects, value, houtcome⟩ := ih (index + 1)
    simp [wrappedCustom, Coroutine.drive, Run.after, Coroutine.drive_follow_effects,
      Coroutine.drive_follow_outcome, heffects, houtcome, range'_succ]

/-- The first `send` never gets past the endpoint's own suspension. -/
theorem wrappedCustom_probe_stop :
    ((wrappedCustom view answer index chain).probe noRunningLoop).stop = .suspended [] := by
  induction chain generalizing index with
  | nil => rfl
  | cons middleware rest ih =>
    rw [wrappedCustom]
    cases middleware.before view with
    | zero => exact Coroutine.probe_follow_of_suspended _ _ (ih (index + 1))
    | succ suspensions => rfl

private theorem wrappedCustom_probe_silent_iff :
    ((wrappedCustom view answer index chain).probe noRunningLoop).effects = [] ↔
      chain = [] := by
  cases chain <;> simp [wrappedCustom, Coroutine.probe]

end

theorem customRun_once_iff (call : Call ρ) (baked : List (HttpMiddleware ρ)) :
    customRun call baked = onceEach baked ↔
      baked = [] ∨ call.slot = asyncClassNeedsWorker := by
  have hdrive := (wrappedCustom_drive call.view call.answer 0 baked.reverse).1
  rw [← onceEach_eq_range'] at hdrive
  by_cases hworker : call.slot = asyncClassNeedsWorker
  · simp [customRun, hworker, classified_run_of_needsWorker, singleRun, hdrive]
  · have hstop := wrappedCustom_probe_stop call.view call.answer 0 baked.reverse
    have hsilent := wrappedCustom_probe_silent_iff call.view call.answer 0 baked.reverse
    rw [customRun, classified_run_of_probed _ _ hworker]
    simp [probeThenWorker, hstop, resubmit, submitToAsyncWorkerFast, Run.after, hdrive,
      Probe.abandoned, hsilent, hworker]

/-- The endpoint of a passthrough route starts again on the worker if it suspends. -/
theorem passthroughRun_eq (call : Call ρ) :
    passthroughRun call =
      if call.slot = asyncClassNeedsWorker ∨ call.suspensions = 0 then [.endpoint]
      else [.endpoint, .endpoint] := by
  by_cases hworker : call.slot = asyncClassNeedsWorker
  · simp [passthroughRun, hworker, classified_run_of_needsWorker, singleRun,
      starlettePassthroughEndpoint, Coroutine.drive, Run.after]
  · rw [passthroughRun, classified_run_of_probed _ _ hworker]
    cases hsuspensions : call.suspensions with
    | zero =>
      simp [probeThenWorker, starlettePassthroughEndpoint, hsuspensions, Coroutine.pause,
        Coroutine.probe]
    | succ rest =>
      simp [probeThenWorker, starlettePassthroughEndpoint, hsuspensions, Coroutine.pause,
        Coroutine.probe, resubmit, submitToAsyncWorkerFast, Coroutine.drive, Run.after,
        Probe.abandoned, hworker]

end Once

section Coverage

private theorem mem_dueFrom (depth place index : Nat) (path : List (AppInfo ρ))
    {info : AppInfo ρ} (hplace : path[place]? = some info)
    (hindex : index < info.middlewares.length) :
    .middleware (depth + place) index ∈ dueFrom depth path := by
  induction path generalizing depth place with
  | nil => simp at hplace
  | cons head rest ih =>
    rw [dueFrom, mem_append]
    cases place with
    | zero =>
      left
      simp only [getElem?_cons_zero, Option.some.injEq] at hplace
      simpa [hplace] using hindex
    | succ place =>
      right
      have hrest := ih (depth + 1) place (by simpa using hplace)
      rwa [Nat.add_assoc, Nat.add_comm 1 place] at hrest

private theorem dueFrom_of_all_empty (depth : Nat) (path : List (AppInfo ρ))
    (hempty : ∀ info ∈ path, info.middlewares = []) : dueFrom depth path = [.endpoint] := by
  induction path generalizing depth with
  | nil => rfl
  | cons head rest ih =>
    rw [forall_mem_cons] at hempty
    simpa [dueFrom, hempty.1] using ih (depth + 1) hempty.2

private theorem map_stepAt_onceEach (depth : Nat) (middlewares : List (HttpMiddleware ρ)) :
    (onceEach middlewares).map (stepAt depth) =
      (List.range middlewares.length).map (.middleware depth) ++ [.endpoint] := by
  simp [onceEach, stepAt]

theorem dueFrom_of_others_empty (depth place : Nat) (path : List (AppInfo ρ))
    {info : AppInfo ρ} (hplace : path[place]? = some info)
    (hothers : ∀ other otherInfo, path[other]? = some otherInfo → other ≠ place →
      otherInfo.middlewares = []) :
    dueFrom depth path = (onceEach info.middlewares).map (stepAt (depth + place)) := by
  induction path generalizing depth place with
  | nil => simp at hplace
  | cons head rest ih =>
    rw [dueFrom]
    cases place with
    | zero =>
      simp only [getElem?_cons_zero, Option.some.injEq] at hplace
      have hempty : ∀ below ∈ rest, below.middlewares = [] := by
        intro below hbelow
        obtain ⟨other, hother⟩ := getElem?_of_mem hbelow
        exact hothers (other + 1) below (by simpa using hother) (by omega)
      rw [dueFrom_of_all_empty (depth + 1) rest hempty, map_stepAt_onceEach, hplace,
        Nat.add_zero]
    | succ place =>
      have hhead : head.middlewares = [] := hothers 0 head rfl (by omega)
      have hrest := ih (depth + 1) place (by simpa using hplace) fun other otherInfo hother hne =>
        hothers (other + 1) otherInfo (by simpa using hother) (by omega)
      rw [hrest, hhead, Nat.add_assoc, Nat.add_comm 1 place]
      rfl

private theorem stepAt_injective (depth : Nat) {one other : Started}
    (hsame : stepAt depth one = stepAt depth other) : one = other := by
  cases one <;> cases other <;> simp_all [stepAt]

/-- Where a run that starts the middlewares of one place only is all that is due, no
other place has any. -/
private theorem others_empty_of_map_stepAt {path : List (AppInfo ρ)} {place : Nat}
    {run : List Started} (hsteps : run.map (stepAt place) = dueFrom 0 path)
    (other : Nat) (otherInfo : AppInfo ρ) (hother : path[other]? = some otherInfo)
    (hne : other ≠ place ∨ ∀ body ∈ run, body = .endpoint) : otherInfo.middlewares = [] := by
  apply Classical.byContradiction
  intro hsome
  have hdue := mem_dueFrom 0 other 0 path hother (length_pos_iff.2 hsome)
  rw [← hsteps, mem_map] at hdue
  obtain ⟨body, hbody, hstep⟩ := hdue
  cases body with
  | middleware index =>
    simp only [stepAt, Step.middleware.injEq, Nat.zero_add] at hstep
    rcases hne with hne | hendpoint
    · exact hne hstep.1.symm
    · cases hendpoint _ hbody
  | endpoint => simp [stepAt] at hstep

theorem map_stepAt_eq_dueFrom_iff (path : List (AppInfo ρ)) (place : Nat) {info : AppInfo ρ}
    (hplace : path[place]? = some info) (run : List Started) :
    run.map (stepAt place) = dueFrom 0 path ↔
      (∀ other otherInfo, path[other]? = some otherInfo → other ≠ place →
          otherInfo.middlewares = []) ∧
        run = onceEach info.middlewares := by
  constructor
  · intro hsteps
    have hothers : ∀ other otherInfo, path[other]? = some otherInfo → other ≠ place →
        otherInfo.middlewares = [] :=
      fun other otherInfo hother hne =>
        others_empty_of_map_stepAt hsteps other otherInfo hother (.inl hne)
    refine ⟨hothers, ?_⟩
    rw [dueFrom_of_others_empty 0 place path hplace hothers, Nat.zero_add] at hsteps
    exact (map_inj_right fun _ _ => stepAt_injective place).1 hsteps
  · rintro ⟨hothers, hrun⟩
    rw [dueFrom_of_others_empty 0 place path hplace hothers, Nat.zero_add, hrun]

/-- A run without a chain is all that is due only where there are no middlewares. -/
theorem map_stepAt_eq_dueFrom_of_endpoint (path : List (AppInfo ρ)) (place : Nat)
    {run : List Started} (hendpoint : ∀ body ∈ run, body = .endpoint) :
    run.map (stepAt place) = dueFrom 0 path ↔
      (∀ info ∈ path, info.middlewares = []) ∧ run = [.endpoint] := by
  constructor
  · intro hsteps
    have hempty : ∀ info ∈ path, info.middlewares = [] := by
      intro info hmem
      obtain ⟨other, hother⟩ := getElem?_of_mem hmem
      exact others_empty_of_map_stepAt hsteps other info hother (.inr hendpoint)
    refine ⟨hempty, ?_⟩
    rw [dueFrom_of_all_empty 0 path hempty] at hsteps
    exact (map_inj_right fun _ _ => stepAt_injective place).1 hsteps
  · rintro ⟨hempty, rfl⟩
    rw [dueFrom_of_all_empty 0 path hempty]
    rfl

def ChainRunsOnce (call : Call ρ) (served : Served ρ) : Prop :=
  if served.isFallback then True
  else
    match served.route.kind with
    | .ordinary | .dispatchHook =>
      servingMiddlewares served = [] ∨
        NeverWaits call served.route.endpoint (servingMiddlewares served)
    | .custom => served.baked = [] ∨ call.slot = asyncClassNeedsWorker
    | .passthrough => call.slot = asyncClassNeedsWorker ∨ call.suspensions = 0
    | .openapi => True

section

variable {root : App ρ} {served : Served ρ} (hplaced : Placed root served) (call : Call ρ)
include hplaced

theorem Placed.chainRun_once_iff
    (hreached : served.route.endpoint.defersExtractionErrors = true ∨
      deferredErrors (chainKwargs call.kwargs) = none)
    {depth : Nat} (hdepth : chainDepth served = some depth) :
    ∃ info, served.path[depth]? = some info ∧
      (chainRun call served = onceEach info.middlewares ↔ ChainRunsOnce call served) := by
  obtain ⟨owner, howner, hown⟩ := Option.map_eq_some_iff.1 hplaced.reaches.getLast
  obtain ⟨info, hserving⟩ : ∃ info, served.path[served.serving]? = some info :=
    ⟨_, getElem?_eq_getElem hplaced.serving_lt⟩
  have hchain : servingMiddlewares served = info.middlewares := by
    simp [servingMiddlewares, hserving]
  have hordinary := ordinaryRun_once_iff call served.route.endpoint info.middlewares hreached
  have hcustom := customRun_once_iff call served.baked
  unfold chainDepth at hdepth
  unfold chainRun ChainRunsOnce
  by_cases hfallback : served.isFallback = true
  · simp only [hfallback, if_true, Option.some.injEq] at hdepth
    refine ⟨owner, ?_, by simp [hfallback, hown]⟩
    rw [← hdepth, hplaced.fallback_last hfallback]
    exact howner
  · simp only [hfallback] at hdepth ⊢
    cases hkind : served.route.kind with
    | ordinary | dispatchHook =>
      simp only [hkind] at hdepth ⊢
      cases hdepth
      exact ⟨info, hserving, hchain.symm ▸ hordinary⟩
    | custom =>
      simp only [hkind] at hdepth ⊢
      cases hdepth
      exact ⟨owner, howner, hown.symm ▸ hcustom⟩
    | passthrough | openapi => simp [hkind] at hdepth

omit hplaced in
theorem chainRun_bare_iff (hdepth : chainDepth served = none) :
    (∀ body ∈ chainRun call served, body = .endpoint) ∧
      (chainRun call served = [.endpoint] ↔ ChainRunsOnce call served) := by
  unfold chainDepth at hdepth
  unfold chainRun ChainRunsOnce
  by_cases hfallback : served.isFallback = true
  · simp [hfallback] at hdepth
  · simp only [hfallback] at hdepth ⊢
    cases hkind : served.route.kind with
    | ordinary | dispatchHook | custom => simp [hkind] at hdepth
    | passthrough =>
      simp only [passthroughRun_eq]
      by_cases honce : call.slot = asyncClassNeedsWorker ∨ call.suspensions = 0 <;> simp [honce]
    | openapi => simp

end

/-- Only the application whose chain is wrapped around the route has middlewares, and
that chain runs once. -/
def PassesEveryMiddleware (call : Call ρ) (served : Served ρ) : Prop :=
  (∀ other info, served.path[other]? = some info → chainDepth served ≠ some other →
      info.middlewares = []) ∧
    ChainRunsOnce call served

end Coverage

section Instances

def literalMatcher : Matcher String where
  radix table method path :=
    table.find? fun entry => entry.path = path && entry.route.methods.contains method
  radix_mem _ _ _ _ hfound := List.mem_of_find?_eq_some hfound
  fallback routes method path :=
    routes.find? fun route => route.path = path && route.methods.contains method
  fallback_mem _ _ _ _ hfound := List.mem_of_find?_eq_some hfound

def passesOn : HttpMiddleware String where
  before _ := 0
  after _ result :=
    match result with
    | .returned value => (0, value)
    | .raised _ => (0, .none)
  caught _ := none

def itemsRoute (kind : RouteKind) : Route String :=
  ⟨"/items", ["GET"], kind, okEndpoint, rfl⟩

def appInfo (mountPath : String) (middlewares : List (HttpMiddleware String))
    (routes : List (Route String)) : AppInfo String :=
  ⟨mountPath, middlewares, routes, none, by simp⟩

def mountedApp (outer inner : List (HttpMiddleware String)) : App String :=
  .node (appInfo "" outer []) [.node (appInfo "/sub" inner [itemsRoute .ordinary]) []]

def itemsCall : Call String :=
  ⟨plainRuntime, [], bareRequest, .none, 0, asyncClassUnknown⟩

def subItems (outer inner : List (HttpMiddleware String)) : Served String :=
  ⟨[appInfo "" outer [], appInfo "/sub" inner [itemsRoute .ordinary]], 1, itemsRoute .ordinary,
    inner, false⟩

def stepsOf (door : Door) (root : App String) (path : String) : Option (List Step × List Step) :=
  (serve literalMatcher door root "GET" path).map fun served =>
    (servedSteps itemsCall served, dueSteps served)

end Instances

end FastapiTurbo.MountDispatch
