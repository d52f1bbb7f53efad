/-! The route tables of an application (`applications.py`): the walk that flattens a
tree of included routers for the Rust radix, the include markers through which the
404 fallback serves what the radix leaves out, and the dependencies that a served
route resolves. -/
namespace FastapiTurbo.RouteCollection

open List

variable {δ : Type}

/-- An `APIRoute`, which stores the dependencies of its decorator only. -/
structure ApiRoute (δ : Type) where
  dependencies : List δ
  /-- `_has_overridden_get_route_handler`. -/
  overridesGetRouteHandler : Bool
  /-- `_route_dispatch_customized`. -/
  overridesDispatch : Bool
  /-- `_fastapi_turbo_bypass_deps`, set on the built-in OpenAPI and docs routes. -/
  bypassDeps : Bool
  deriving DecidableEq

/-- A router with the `dependencies` of the `include_router` call that included it. -/
structure RouterInfo (δ : Type) where
  includeDependencies : List δ
  dependencies : List δ
  /-- `_router_dispatch_customized`. -/
  overridesDispatch : Bool
  routes : List (ApiRoute δ)

inductive Router (δ : Type) where
  | node (info : RouterInfo δ) (included : List (Router δ))

def Router.info : Router δ → RouterInfo δ
  | .node info _ => info

/-- An application.  Its root router is a plain `APIRouter()`; what is included on
that router is walked before what is included on the application. -/
structure App (δ : Type) where
  dependencies : List δ
  router : Router δ
  router_plain : router.info.dependencies = []
  included : List (Router δ)

/-- How a collected route is served by the radix: through the handler of the route
object itself, or through one that is built for the combined dependencies. -/
inductive Endpoint (δ : Type) where
  | custom
  | ordinary (combinedDependencies : List δ)
  deriving DecidableEq

structure RouteDict (δ : Type) where
  route : ApiRoute δ
  doorExclude : Bool
  endpoint : Endpoint δ
  deriving DecidableEq

section Collection

variable (appDependencies : List δ)

def getAllDependenciesForRoute (includeDeps routerDeps : List δ) (route : ApiRoute δ) : List δ :=
  if route.bypassDeps then []
  else appDependencies ++ includeDeps ++ routerDeps ++ route.dependencies

def collectRoute (includeDeps routerDeps : List δ) (route : ApiRoute δ) : RouteDict δ where
  route
  doorExclude := route.overridesDispatch
  endpoint :=
    if route.overridesGetRouteHandler then .custom
    else .ordinary (getAllDependenciesForRoute appDependencies includeDeps routerDeps route)

def RouteDict.excludedBy (router : RouterInfo δ) (dict : RouteDict δ) : RouteDict δ :=
  if router.overridesDispatch then { dict with doorExclude := true } else dict

mutual

def collectRoutesFromRouter (includeDeps : List δ) : Router δ → List (RouteDict δ)
  | .node info included =>
    info.routes.map (collectRoute appDependencies includeDeps info.dependencies) ++
      collectIncluded (includeDeps ++ info.dependencies) included

/-- Its loop over the included routers, below the dependencies `outer`. -/
def collectIncluded (outer : List δ) : List (Router δ) → List (RouteDict δ)
  | [] => []
  | child :: rest =>
    (collectRoutesFromRouter (outer ++ child.info.includeDependencies) child).map
        (RouteDict.excludedBy child.info) ++
      collectIncluded outer rest

end

end Collection

def collectAllRoutes (app : App δ) : List (RouteDict δ) :=
  collectRoutesFromRouter app.dependencies [] app.router ++
    collectIncluded app.dependencies [] app.included

def includeContext (child : RouterInfo δ) : List δ :=
  child.includeDependencies ++ child.dependencies

mutual

/-- The effective dependencies of the routes behind an include marker: those of the
combined contexts, then the route's own. -/
def markerDependencies (context : List δ) : Router δ → List (List δ)
  | .node info included =>
    info.routes.map (fun route => context ++ route.dependencies) ++
      markersDependencies context included

def markersDependencies (context : List δ) : List (Router δ) → List (List δ)
  | [] => []
  | child :: rest =>
    markerDependencies (context ++ includeContext child.info) child ++
      markersDependencies context rest

end

def fallbackDependencies (app : App δ) : List (List δ) :=
  markerDependencies [] app.router ++ markersDependencies [] app.included

section Served

variable [DecidableEq δ]

/-- `_route_obj_reusable`; whether path, response class and response model are those
of the route object is left open. -/
def routeObjReusable (sameShape : Bool) (combined own : List δ) : Bool :=
  sameShape && combined = own

def doorDependencies (sameShape : RouteDict δ → Bool) (dict : RouteDict δ) : List δ :=
  match dict.endpoint with
  | .custom => dict.route.dependencies
  | .ordinary combined =>
    if routeObjReusable (sameShape dict) combined dict.route.dependencies then
      dict.route.dependencies
    else combined

def servedBy (sameShape : RouteDict δ → Bool) (dict : RouteDict δ) (fallback : List δ) : List δ :=
  if dict.doorExclude then fallback else doorDependencies sameShape dict

def servedDependencies (sameShape : RouteDict δ → Bool) (app : App δ) : List (List δ) :=
  List.zipWith (servedBy sameShape) (collectAllRoutes app) (fallbackDependencies app)

end Served

/-- A route of the tree with the include edges that lead to it, the outermost first. -/
structure Site (δ : Type) where
  edges : List (RouterInfo δ)
  route : ApiRoute δ

def Site.under (router : RouterInfo δ) (site : Site δ) : Site δ :=
  { site with edges := router :: site.edges }

mutual

def routerSites : Router δ → List (Site δ)
  | .node info included => info.routes.map (⟨[], ·⟩) ++ includedSites included

def includedSites : List (Router δ) → List (Site δ)
  | [] => []
  | child :: rest => (routerSites child).map (Site.under child.info) ++ includedSites rest

end

def App.sites (app : App δ) : List (Site δ) :=
  routerSites app.router ++ includedSites app.included

/-- The dependencies of the include edges: for each of them those of the include and
those of the included router. -/
def Site.inherited (site : Site δ) : List δ :=
  site.edges.flatMap fun router => router.includeDependencies ++ router.dependencies

def Site.dueDependencies (app : App δ) (site : Site δ) : List δ :=
  app.dependencies ++ site.inherited ++ site.route.dependencies

def Site.isExcluded (site : Site δ) : Bool :=
  site.route.overridesDispatch || site.edges.any RouterInfo.overridesDispatch

def Site.dict (appDependencies outer : List δ) (site : Site δ) : RouteDict δ where
  route := site.route
  doorExclude := site.isExcluded
  endpoint :=
    if site.route.overridesGetRouteHandler then .custom
    else .ordinary
      (getAllDependenciesForRoute appDependencies (outer ++ site.inherited) [] site.route)

theorem dict_nil (appDependencies includeDeps routerDeps : List δ) (route : ApiRoute δ) :
    Site.dict appDependencies (includeDeps ++ routerDeps) ⟨[], route⟩ =
      collectRoute appDependencies includeDeps routerDeps route := by
  simp [Site.dict, collectRoute, Site.isExcluded, Site.inherited, getAllDependenciesForRoute]

theorem dict_under (appDependencies outer : List δ) (router : RouterInfo δ) (site : Site δ) :
    Site.dict appDependencies outer (site.under router) =
      RouteDict.excludedBy router
        (Site.dict appDependencies (outer ++ includeContext router) site) := by
  unfold Site.dict RouteDict.excludedBy
  cases hr : router.overridesDispatch <;> simp [hr, Site.under, Site.inherited,
    Site.isExcluded, includeContext]

mutual

theorem collectRoutesFromRouter_eq (appDependencies includeDeps : List δ) :
    ∀ router : Router δ,
      collectRoutesFromRouter appDependencies includeDeps router =
        (routerSites router).map
          (Site.dict appDependencies (includeDeps ++ router.info.dependencies))
  | .node info included => by
    rw [collectRoutesFromRouter, routerSites, map_append, map_map,
      collectIncluded_eq appDependencies (includeDeps ++ info.dependencies) included]
    congr 1
    exact map_congr_left fun route _ =>
      (dict_nil appDependencies includeDeps info.dependencies route).symm

theorem collectIncluded_eq (appDependencies outer : List δ) :
    ∀ included : List (Router δ),
      collectIncluded appDependencies outer included =
        (includedSites included).map (Site.dict appDependencies outer)
  | [] => by simp [collectIncluded, includedSites]
  | child :: rest => by
    rw [collectIncluded, includedSites, map_append, map_map,
      collectRoutesFromRouter_eq appDependencies _ child, map_map,
      collectIncluded_eq appDependencies outer rest]
    congr 1
    refine map_congr_left fun site _ => ?_
    rw [Function.comp_apply, Function.comp_apply, dict_under, includeContext, append_assoc]

end

mutual

theorem markerDependencies_eq (context : List δ) : ∀ router : Router δ,
    markerDependencies context router =
      (routerSites router).map fun site =>
        context ++ site.inherited ++ site.route.dependencies
  | .node info included => by
    rw [markerDependencies, routerSites, map_append, map_map,
      markersDependencies_eq context included]
    congr 1
    exact map_congr_left fun r _ => by simp [Site.inherited]

theorem markersDependencies_eq (context : List δ) : ∀ included : List (Router δ),
    markersDependencies context included =
      (includedSites included).map fun site =>
        context ++ site.inherited ++ site.route.dependencies
  | [] => by simp [markersDependencies, includedSites]
  | child :: rest => by
    rw [markersDependencies, includedSites, map_append, map_map,
      markerDependencies_eq _ child, markersDependencies_eq context rest]
    congr 1
    exact map_congr_left fun site _ => by simp [Site.under, Site.inherited, includeContext]

end

theorem collectAllRoutes_eq (app : App δ) :
    collectAllRoutes app = app.sites.map (Site.dict app.dependencies []) := by
  unfold collectAllRoutes App.sites
  rw [collectRoutesFromRouter_eq, collectIncluded_eq, app.router_plain, map_append, append_nil]

theorem fallbackDependencies_eq (app : App δ) :
    fallbackDependencies app =
      app.sites.map fun site => site.inherited ++ site.route.dependencies := by
  unfold fallbackDependencies App.sites
  rw [markerDependencies_eq, markersDependencies_eq, map_append]
  simp only [nil_append]

/-- The dependencies of the tree reach the handler of the route.  An ordinary route
always gets them; one that builds its own handler keeps only its own; what is left to
the fallback misses those of the application. -/
def Kept (app : App δ) (site : Site δ) : Prop :=
  if site.isExcluded then app.dependencies = []
  else if site.route.overridesGetRouteHandler then
    app.dependencies = [] ∧
      ∀ router ∈ site.edges, router.includeDependencies = [] ∧ router.dependencies = []
  else True

theorem inherited_eq_nil_iff (site : Site δ) :
    site.inherited = [] ↔
      ∀ router ∈ site.edges, router.includeDependencies = [] ∧ router.dependencies = [] := by
  unfold Site.inherited
  simp only [flatMap_eq_nil_iff, append_eq_nil_iff]

section Main

variable [DecidableEq δ]

section

variable (sameShape : RouteDict δ → Bool)

theorem servedDependencies_eq (app : App δ) :
    servedDependencies sameShape app =
      app.sites.map fun site =>
        servedBy sameShape (site.dict app.dependencies [])
          (site.inherited ++ site.route.dependencies) := by
  unfold servedDependencies
  rw [collectAllRoutes_eq, fallbackDependencies_eq, zipWith_map, zipWith_self]

private theorem doorDependencies_ordinary {dict : RouteDict δ} {combined : List δ}
    (he : dict.endpoint = .ordinary combined) : doorDependencies sameShape dict = combined := by
  unfold doorDependencies routeObjReusable
  rw [he]
  by_cases hs : combined = dict.route.dependencies <;> cases sameShape dict <;> simp [hs]

theorem servedBy_eq_due_iff (app : App δ) (site : Site δ) (hr : site.route.bypassDeps = false) :
    servedBy sameShape (site.dict app.dependencies [])
        (site.inherited ++ site.route.dependencies) = site.dueDependencies app ↔
      Kept app site := by
  have hd : (site.dict app.dependencies []).doorExclude = site.isExcluded := rfl
  unfold servedBy Kept Site.dueDependencies
  rw [hd]
  cases hexcluded : site.isExcluded with
  | true => simp
  | false =>
    cases hc : site.route.overridesGetRouteHandler with
    | true =>
      have hdoor : doorDependencies sameShape (site.dict app.dependencies []) =
          site.route.dependencies := by
        simp [doorDependencies, Site.dict, hc]
      simp only [Bool.false_eq_true, if_false, if_true, hdoor, ← inherited_eq_nil_iff]
      rw [self_eq_append_left, append_eq_nil_iff]
    | false =>
      have he : (site.dict app.dependencies []).endpoint =
          .ordinary (app.dependencies ++ site.inherited ++ site.route.dependencies) := by
        simp [Site.dict, hc, getAllDependenciesForRoute, hr]
      simp [doorDependencies_ordinary sameShape he]

end

/-- A served route resolves the dependencies of the application, of the include edges
and its own, in this order, exactly if it is an ordinary route, or its class overrides
`get_route_handler` and there are none to inherit, or it is left to the fallback and
the application has none. -/
theorem route_resolves_due_dependencies_iff (sameShape : RouteDict δ → Bool) (app : App δ)
    {index : Nat} {site : Site δ} (hsite : app.sites[index]? = some site)
    (hroute : site.route.bypassDeps = false) :
    (servedDependencies sameShape app)[index]? = some (site.dueDependencies app) ↔
      Kept app site := by
  rw [servedDependencies_eq, getElem?_map, hsite, Option.map_some, Option.some.injEq]
  exact servedBy_eq_due_iff sameShape app site hroute

end Main

def plainRoute : ApiRoute String where
  dependencies := []
  overridesGetRouteHandler := false
  overridesDispatch := false
  bypassDeps := false

def tokenApp (route : ApiRoute String) : App String where
  dependencies := ["log_request"]
  router := .node ⟨[], [], false, []⟩ []
  router_plain := rfl
  included := [.node ⟨[], ["require_token"], false, [route]⟩ []]

theorem plain_route_requires_token :
    (servedDependencies (fun _ => false) (tokenApp plainRoute))[0]? =
      some ["log_request", "require_token"] := by
  have hs : (tokenApp plainRoute).sites[0]? =
      some ⟨[⟨[], ["require_token"], false, [plainRoute]⟩], plainRoute⟩ := rfl
  exact (route_resolves_due_dependencies_iff (fun _ => false) (tokenApp plainRoute) hs rfl).2
    trivial

/-- A route class that overrides `get_route_handler` serves the endpoint without the
token. -/
theorem custom_route_drops_token :
    (tokenApp { plainRoute with overridesGetRouteHandler := true }).sites.map
        (Site.dueDependencies (tokenApp { plainRoute with overridesGetRouteHandler := true })) =
        [["log_request", "require_token"]] ∧
      servedDependencies (fun _ => false)
        (tokenApp { plainRoute with overridesGetRouteHandler := true }) = [[]] := by
  decide

end FastapiTurbo.RouteCollection
