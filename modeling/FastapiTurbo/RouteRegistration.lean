import Mathlib.Data.List.DropRight
import FastapiTurbo.MountPrecedence
import FastapiTurbo.Lib.Ranked

/-! The order and the paths of the routes that `_collect_all_routes` (`applications.py`)
hands to `build_router`, against the order in which an application registers them. -/
namespace FastapiTurbo.RouteRegistration

open Lib RouterTable RouterDispatch List
  MountPrecedence

/-- What is called on a router, in the order of the calls: a route is registered, or a
router with a prefix of its own is included.  The label tells a route from the others. -/
inductive Entry (ι : Type) where
  | route (route : RouteDict) (label : ι)
  | included (childPrefix ownPrefix : Path) (entries : List (Entry ι))

/-- A call on the application: `app.include_router` keeps its router in a list of the
application, all others go to `app.router`. -/
structure Call (ι : Type) where
  entry : Entry ι
  onApp : Bool

variable {ι : Type}

section Collect

def collected (fullPrefix : Path) (route : RouteDict) (label : ι) : RouteDict × ι :=
  (route.withPath (normalisePath (fullPrefix ++ route.path)), label)

/-- The loop over `router.routes`, which skips the markers of included routers. -/
def directRoutes (fullPrefix : Path) : List (Entry ι) → List (RouteDict × ι)
  | [] => []
  | .route route label :: rest => collected fullPrefix route label :: directRoutes fullPrefix rest
  | .included _ _ _ :: rest => directRoutes fullPrefix rest

mutual

def collectIncluded (fullPrefix : Path) : Entry ι → List (RouteDict × ι)
  | .route _ _ => []
  | .included childPrefix ownPrefix entries =>
    directRoutes (fullPrefix ++ childPrefix ++ ownPrefix) entries ++
      collectAllIncluded (fullPrefix ++ childPrefix ++ ownPrefix) entries

def collectAllIncluded (fullPrefix : Path) : List (Entry ι) → List (RouteDict × ι)
  | [] => []
  | entry :: rest => collectIncluded fullPrefix entry ++ collectAllIncluded fullPrefix rest

end

def collectRoutesFromRouter (outerPrefix ownPrefix : Path) (entries : List (Entry ι)) :
    List (RouteDict × ι) :=
  directRoutes (outerPrefix ++ ownPrefix) entries ++
    collectAllIncluded (outerPrefix ++ ownPrefix) entries

def Call.isAppInclude (call : Call ι) : Bool :=
  match call.entry with
  | .route _ _ => false
  | .included _ _ _ => call.onApp

def collectAllRoutes (calls : List (Call ι)) : List (RouteDict × ι) :=
  collectRoutesFromRouter [] [] ((calls.filter (!·.isAppInclude)).map Call.entry) ++
    collectAllIncluded [] ((calls.filter Call.isAppInclude).map Call.entry)

mutual

def registered (fullPrefix : Path) : Entry ι → List (RouteDict × ι)
  | .route route label => [collected fullPrefix route label]
  | .included childPrefix ownPrefix entries =>
    allRegistered (fullPrefix ++ childPrefix ++ ownPrefix) entries

def allRegistered (fullPrefix : Path) : List (Entry ι) → List (RouteDict × ι)
  | [] => []
  | entry :: rest => registered fullPrefix entry ++ allRegistered fullPrefix rest

end

def registrationOrder (calls : List (Call ι)) : List (RouteDict × ι) :=
  calls.flatMap fun call => registered [] call.entry

end Collect

section Order

mutual

def Entry.labels : Entry ι → List ι
  | .route _ label => [label]
  | .included _ _ entries => allLabels entries

def allLabels : List (Entry ι) → List ι
  | [] => []
  | entry :: rest => entry.labels ++ allLabels rest

end

/-- The routes of a router come before the routers that it includes. -/
def Entry.rank : Entry ι → Nat
  | .route _ _ => 0
  | .included _ _ _ => 1

def Call.rank (call : Call ι) : Nat :=
  if call.isAppInclude then 2 else call.entry.rank

mutual

/-- In no router does a route come after the include of a router that has any. -/
def Entry.Ordered : Entry ι → Prop
  | .route _ _ => True
  | .included _ _ entries => AllOrdered entries ∧ entries.Pairwise fun entry later =>
      later.rank < entry.rank → entry.labels = [] ∨ later.labels = []

def AllOrdered : List (Entry ι) → Prop
  | [] => True
  | entry :: rest => entry.Ordered ∧ AllOrdered rest

end

/-- At the application, too, what comes first is registered first. -/
def Ordered (calls : List (Call ι)) : Prop :=
  (∀ call ∈ calls, call.entry.Ordered) ∧ calls.Pairwise fun call later =>
    later.rank < call.rank → call.entry.labels = [] ∨ later.entry.labels = []

mutual

theorem map_registered (fullPrefix : Path) :
    ∀ entry : Entry ι, (registered fullPrefix entry).map Prod.snd = entry.labels
  | .route _ _ => rfl
  | .included _ _ entries => map_allRegistered _ entries

theorem map_allRegistered (fullPrefix : Path) :
    ∀ entries : List (Entry ι), (allRegistered fullPrefix entries).map Prod.snd = allLabels entries
  | [] => rfl
  | entry :: rest => by
    rw [allRegistered, map_append, map_registered, map_allRegistered, allLabels]

end

theorem registered_eq_nil_iff (fullPrefix : Path) (entry : Entry ι) :
    registered fullPrefix entry = [] ↔ entry.labels = [] := by
  rw [← map_registered fullPrefix entry, map_eq_nil_iff]

theorem allRegistered_eq (fullPrefix : Path) (entries : List (Entry ι)) :
    allRegistered fullPrefix entries = entries.flatMap (registered fullPrefix) := by
  induction entries with
  | nil => rfl
  | cons entry rest ih => rw [allRegistered, ih, flatMap_cons]

theorem allLabels_eq (entries : List (Entry ι)) :
    allLabels entries = entries.flatMap Entry.labels := by
  induction entries with
  | nil => rfl
  | cons entry rest ih => rw [allLabels, ih, flatMap_cons]

theorem allOrdered_iff (entries : List (Entry ι)) :
    AllOrdered entries ↔ ∀ entry ∈ entries, entry.Ordered := by
  induction entries with
  | nil => simp [AllOrdered]
  | cons entry rest ih => rw [AllOrdered, ih, forall_mem_cons]

def block (fullPrefix : Path) : Entry ι → List (RouteDict × ι)
  | .route route label => [collected fullPrefix route label]
  | entry => collectIncluded fullPrefix entry

theorem directRoutes_eq (fullPrefix : Path) (entries : List (Entry ι)) :
    directRoutes fullPrefix entries = (entries.filter (·.rank = 0)).flatMap (block fullPrefix) := by
  induction entries with
  | nil => rfl
  | cons entry rest ih =>
    cases entry with
    | route route label => simp [directRoutes, ih, Entry.rank, block]
    | included childPrefix ownPrefix entries => simp [directRoutes, ih, Entry.rank]

theorem collectAllIncluded_eq (fullPrefix : Path) (entries : List (Entry ι)) :
    collectAllIncluded fullPrefix entries =
      (entries.filter (·.rank = 1)).flatMap (block fullPrefix) := by
  induction entries with
  | nil => rfl
  | cons entry rest ih =>
    cases entry with
    | route route label => simp [collectAllIncluded, collectIncluded, ih, Entry.rank]
    | included childPrefix ownPrefix entries => simp [collectAllIncluded, ih, Entry.rank, block]

theorem rank_le (entry : Entry ι) : entry.rank ≤ 1 := by
  cases entry <;> simp [Entry.rank]

theorem collect_eq_ranked (fullPrefix : Path) (entries : List (Entry ι)) :
    directRoutes fullPrefix entries ++ collectAllIncluded fullPrefix entries =
      ranked Entry.rank (block fullPrefix) entries := by
  have hn : entries.filter (·.rank = 2) = [] := by
    refine filter_eq_nil_iff.2 fun entry _ => ?_
    have hr := rank_le entry
    simp only [decide_eq_true_eq]
    omega
  rw [ranked, hn, directRoutes_eq, collectAllIncluded_eq, flatMap_nil, append_nil]

structure BlockHolds (fullPrefix : Path) (entry : Entry ι) : Prop where
  perm : (block fullPrefix entry).Perm (registered fullPrefix entry)
  eq_iff : entry.labels.Nodup →
    (block fullPrefix entry = registered fullPrefix entry ↔ entry.Ordered)

section Level

variable {α : Type} {rank : α → Nat} {entryOf : α → Entry ι} {items : List α} {fullPrefix : Path}

private theorem nodup_registered (hn : (items.flatMap fun item => (entryOf item).labels).Nodup) :
    (items.flatMap fun item => registered fullPrefix (entryOf item)).Nodup := by
  refine List.Nodup.of_map Prod.snd ?_
  rw [map_flatMap]
  simpa only [map_registered] using hn

/-- One level of the tree, be it a router or the application. -/
theorem ranked_block_eq_iff (hr : ∀ item ∈ items, rank item ≤ 2)
    (hb : ∀ item ∈ items, BlockHolds fullPrefix (entryOf item))
    (hn : (items.flatMap fun item => (entryOf item).labels).Nodup) :
    ranked rank (fun item => block fullPrefix (entryOf item)) items =
        items.flatMap (fun item => registered fullPrefix (entryOf item)) ↔
      (∀ item ∈ items, (entryOf item).Ordered) ∧ items.Pairwise fun item later =>
        rank later < rank item → (entryOf item).labels = [] ∨ (entryOf later).labels = [] := by
  rw [ranked_eq_iff hr (fun item hite => (hb item hite).perm) (nodup_registered hn)]
  simp only [registered_eq_nil_iff]
  refine and_congr_left fun _ => forall₂_congr fun item hite => ?_
  exact (hb item hite).eq_iff ((nodup_flatMap.1 hn).1 item hite)

end Level

mutual

theorem block_holds : ∀ (entry : Entry ι) (fullPrefix : Path), BlockHolds fullPrefix entry
  | .route _ _, _ => ⟨.refl _, fun _ => by simp [block, registered, Entry.Ordered]⟩
  | .included childPrefix ownPrefix entries, fullPrefix => by
    have hb := blocks_hold entries (fullPrefix ++ childPrefix ++ ownPrefix)
    have hr : ∀ entry ∈ entries, entry.rank ≤ 2 :=
      fun entry _ => (rank_le entry).trans (by omega)
    have hbl : block fullPrefix (.included childPrefix ownPrefix entries) =
        ranked Entry.rank (block (fullPrefix ++ childPrefix ++ ownPrefix)) entries :=
      collect_eq_ranked _ entries
    refine ⟨?_, fun hn => ?_⟩
    · rw [hbl, registered, allRegistered_eq]
      exact ranked_perm hr fun entry he => (hb entry he).perm
    · rw [Entry.labels, allLabels_eq] at hn
      rw [hbl, registered, allRegistered_eq, Entry.Ordered, allOrdered_iff]
      exact ranked_block_eq_iff hr hb hn

theorem blocks_hold : ∀ (entries : List (Entry ι)) (fullPrefix : Path),
    ∀ entry ∈ entries, BlockHolds fullPrefix entry
  | [], _ => by simp
  | entry :: rest, fullPrefix => by
    rw [forall_mem_cons]
    exact ⟨block_holds entry fullPrefix, blocks_hold rest fullPrefix⟩

end

private theorem collectAllRoutes_eq_ranked (calls : List (Call ι)) :
    collectAllRoutes calls = ranked Call.rank (fun call => block [] call.entry) calls := by
  have hf (kept : Call ι → Bool) (n method : Nat)
      (hk : ∀ call : Call ι, (kept call = true ∧ call.entry.rank = n) ↔ call.rank = method) :
      (((calls.filter kept).map Call.entry).filter (·.rank = n)).flatMap (block []) =
        (calls.filter (·.rank = method)).flatMap fun call => block [] call.entry := by
    rw [filter_map, flatMap_map, filter_filter]
    congr 2
    funext call
    rw [Bool.eq_iff_iff]
    simp [← hk, and_comm]
  rw [collectAllRoutes, collectRoutesFromRouter, directRoutes_eq, collectAllIncluded_eq,
    collectAllIncluded_eq, append_nil, hf _ 0 0, hf _ 1 1, hf _ 1 2,
    append_assoc, ranked]
  all_goals
    intro call
    obtain ⟨_ | _, _ | _⟩ := call <;> simp [Call.rank, Call.isAppInclude, Entry.rank]

theorem collectAllRoutes_eq_iff (calls : List (Call ι))
    (hd : (calls.flatMap fun call => call.entry.labels).Nodup) :
    collectAllRoutes calls = registrationOrder calls ↔ Ordered calls := by
  rw [collectAllRoutes_eq_ranked]
  refine ranked_block_eq_iff (fun call _ => ?_) (fun call _ => block_holds call.entry []) hd
  unfold Call.rank
  have hr := rank_le call.entry
  split <;> omega

end Order

section FirstWins

/-- A collected route as `build_router` is given it; `none` where axum does not take its
path. -/
def builtRoute (route : RouteDict × ι) : Option (RouteInfo ι) :=
  if hpath : (parsePath (convertPath route.1.path)).isSome = true then
    some ⟨route.1.path, route.1.methods, false, route.2, hpath, route.1.distinct⟩
  else none

theorem builtRoute_eq_some {route : RouteDict × ι} {info : RouteInfo ι} :
    builtRoute route = some info ↔ ∃ hp, info =
      ⟨route.1.path, route.1.methods, false, route.2, hp, route.1.distinct⟩ := by
  unfold builtRoute
  split
  next hp => simp [hp, eq_comm]
  next hp => simp [hp]

def Fresh (before : List (RouteInfo ι)) (route : RouteInfo ι) (method : Method) : Prop :=
  ∀ other ∈ before, other.axumPath = route.axumPath → method ∉ other.methods

/-- The route that is first in the order to declare a method at its path is the one that the
table of `build_router` has there. -/
def FirstKept (order table : List (RouteInfo ι)) : Prop :=
  ∀ before route after, order = before ++ route :: after → ∀ method ∈ route.methods,
    method.supported = true → Fresh before route method →
      ∃ entry ∈ (accumulate table).byPath, entry.path = route.axumPath ∧
        entry.methodRouter.get? method = some (.http route.state)

/-- No route brings a new method to its path along with one that is taken there. -/
def NoneSplit (routes : List (RouteInfo ι)) : Prop :=
  ∀ before route after, routes = before ++ route :: after →
    (∃ method ∈ route.methods, method.supported = true ∧ Fresh before route method) →
      ∀ method ∈ route.methods, method ∉ takenMethods route.axumPath before

variable {routes before after : List (RouteInfo ι)} {route : RouteInfo ι} {method : Method}

theorem exists_of_mem_takenMethods {path : AxumPath} (hmem : method ∈ takenMethods path routes) :
    ∃ other ∈ routes, other.axumPath = path ∧ method ∈ other.methods := by
  induction routes using List.reverseRecOn with
  | nil => simp [takenMethods] at hmem
  | append_singleton routes last ih =>
    rw [exists_mem_concat]
    rw [takenMethods_concat] at hmem
    split at hmem
    next ht =>
      rcases mem_append.1 hmem with hold | hnew
      · exact .inl (ih hold)
      · exact .inr ⟨((takes_iff _ _ _).1 ht).1, hnew⟩
    next => exact .inl (ih hmem)

theorem Fresh.not_taken (hf : Fresh before route method) :
    method ∉ takenMethods route.axumPath before := by
  intro ht
  obtain ⟨other, ho, hp, hm⟩ := exists_of_mem_takenMethods ht
  exact hf other ho hp hm

theorem partlyTaken_eq_false_iff (hm : method ∈ route.methods)
    (hf : Fresh before route method) : partlyTaken before route = false ↔
      ∀ other ∈ route.methods, other ∉ takenMethods route.axumPath before := by
  have hall : route.methods.all (takenMethods route.axumPath before).contains = false := by
    simpa using ⟨method, hm, hf.not_taken⟩
  simp [partlyTaken, hall]

/-- What the table has at a path of the routes. -/
theorem exists_entry (hsocket : route.isWebsocket = false)
    (hpath : partlyTaken before route = false)
    (hm : method ∈ route.methods) (hs : method.supported = true) (after : List (RouteInfo ι)) :
    ∃ entry ∈ (accumulate (before ++ route :: after)).byPath, entry.path = route.axumPath ∧
      ∃ chosen, FirstDeclaring (before ++ route :: after) entry.path method chosen ∧
        entry.methodRouter.get? method = some (.http chosen.state) := by
  have hh := accumulate_holds (before ++ route :: after)
  have ht := mem_takenMethods hsocket hpath hm hs after
  have hp :
      route.axumPath ∈ (accumulate (before ++ route :: after)).byPath.map PathEntry.path := by
    by_contra ha
    rw [hh.absent _ ha] at ht
    exact not_mem_nil ht
  obtain ⟨entry, he, hp⟩ := mem_map.1 hp
  refine ⟨entry, he, hp, (hh.entries entry he).endpoint method ?_ hs⟩
  rw [(hh.entries entry he).declared, hp]
  exact ht

private theorem eq_of_firstDeclaring {chosen : RouteInfo ι} (hsocket : route.isWebsocket = false)
    (hp : partlyTaken before route = false) (hm : method ∈ route.methods)
    (hf : Fresh before route method)
    (hc : FirstDeclaring (before ++ route :: after) route.axumPath method chosen) :
    chosen = route := by
  obtain ⟨earlier, later, hsplit, -, hskipped⟩ := hc.first
  rcases split_cases hsplit with ⟨-, heq, -⟩ | ⟨mid, he⟩ | ⟨mid, hb⟩
  · exact heq.symm
  · have hs := hskipped before route mid he hsocket rfl hm
    rw [hp] at hs
    cases hs
  · have hmem : chosen ∈ before := by simp [hb]
    exact absurd hc.declares (hf chosen hmem hc.at_path)

theorem firstKept_iff (hhttp : ∀ route ∈ routes, route.isWebsocket = false)
    (hd : (routes.map RouteInfo.state).Nodup) : FirstKept routes routes ↔ NoneSplit routes := by
  constructor
  · rintro hk before route after rfl ⟨method, hm, hs, hf⟩
    obtain ⟨entry, he, hpath, hget⟩ :=
      hk before route after rfl method hm hs hf
    have hh := (accumulate_holds _).entries entry he
    have hdeclares : method ∈ entry.declared := by
      by_contra hnot
      rw [hh.within method hnot] at hget
      cases hget
    obtain ⟨chosen, hc, hsame⟩ := hh.endpoint method hdeclares hs
    rw [hget, Option.some.injEq, Endpoint.http.injEq] at hsame
    obtain ⟨earlier, later, hsplit, hp, -⟩ := hc.first
    rcases split_cases hsplit with ⟨rfl, rfl, -⟩ | ⟨mid, hea⟩ | ⟨mid, hb⟩
    · exact (partlyTaken_eq_false_iff hm hf).1 hp
    · rw [hsplit, hea] at hd
      simp [nodup_append, hsame] at hd
    · rw [hb] at hd
      simp [nodup_append, hsame] at hd
  · rintro hsplit before route after rfl method hm hs hf
    have hsocket := hhttp route (by simp)
    have hp := (partlyTaken_eq_false_iff hm hf).2
      (hsplit before route after rfl ⟨method, hm, hs, hf⟩)
    obtain ⟨entry, he, hpath, chosen, hc, hget⟩ :=
      exists_entry hsocket hp hm hs after
    rw [hpath] at hc
    rw [eq_of_firstDeclaring hsocket hp hm hf hc] at hget
    exact ⟨entry, he, hpath, hget⟩

theorem map_state_of_mapM {collected : List (RouteDict × ι)}
    (hr : collected.mapM builtRoute = some routes) :
    routes.map RouteInfo.state = collected.map Prod.snd := by
  induction collected generalizing routes with
  | nil =>
    cases hr
    rfl
  | cons first rest ih =>
    rw [mapM_cons] at hr
    simp only [Option.bind_eq_bind, Option.bind_eq_some_iff, Option.pure_def,
      Option.some.injEq] at hr
    obtain ⟨info, hinfo, infs, hinf, rfl⟩ := hr
    obtain ⟨-, rfl⟩ := builtRoute_eq_some.1 hinfo
    rw [map_cons, map_cons, ih hinf]

/-- The routes are collected in the order of registration, and the first to be registered
for a path and a method is kept, exactly if every router registers its routes before it
includes routers with routes, `app.router` before the application does, and no route
brings a new method to its path along with one that is taken there. -/
theorem registration_order_kept_iff (calls : List (Call ι))
    (hdistinct : (calls.flatMap fun call => call.entry.labels).Nodup) :
    (collectAllRoutes calls = registrationOrder calls ∧
      ∀ order table, (registrationOrder calls).mapM builtRoute = some order →
        (collectAllRoutes calls).mapM builtRoute = some table → FirstKept order table) ↔
      Ordered calls ∧
        ∀ order, (registrationOrder calls).mapM builtRoute = some order → NoneSplit order := by
  have hiff {order : List (RouteInfo ι)}
      (ho : (registrationOrder calls).mapM builtRoute = some order) :
      FirstKept order order ↔ NoneSplit order := by
    refine firstKept_iff (fun route hmem => ?_) ?_
    · obtain ⟨collected, -, hr⟩ := exists_of_mem_mapM ho hmem
      obtain ⟨-, rfl⟩ := builtRoute_eq_some.1 hr
      rfl
    · rw [map_state_of_mapM ho, registrationOrder, map_flatMap]
      simpa only [map_registered] using hdistinct
  rw [← collectAllRoutes_eq_iff calls hdistinct]
  refine and_congr_right fun hc => ?_
  rw [hc]
  refine ⟨fun hk order ho => (hiff ho).1 (hk order order ho ho), ?_⟩
  intro hs order table ho ht
  obtain rfl := Option.some.inj (ho.symm.trans ht)
  exact (hiff ho).2 (hs order ho)

def getRoute (path : Path) : RouteDict := ⟨path, [.get], List.nodup_singleton _⟩

def includeItems (label : Nat) : Call Nat :=
  ⟨.included "/api".toList [] [.route (getRoute "/items".toList) label], true⟩

theorem included_route_kept :
    (collectAllRoutes [includeItems 0] = registrationOrder [includeItems 0] ∧
      ∀ order table, (registrationOrder [includeItems 0]).mapM builtRoute = some order →
        (collectAllRoutes [includeItems 0]).mapM builtRoute = some table →
          FirstKept order table) := by
  refine (registration_order_kept_iff _ (by decide)).2 ⟨?_, ?_⟩
  · simp [Ordered, includeItems, Entry.Ordered, AllOrdered]
  · rintro order ho before route after rfl - method -
    have hl := congrArg List.length (map_state_of_mapM ho)
    have hone : (registrationOrder [includeItems 0]).length = 1 := by decide
    simp only [length_map, length_append, length_cons] at hl
    have hb : before = [] := length_eq_zero_iff.1 (by omega)
    simp [hb, takenMethods]

/-- `app.include_router` with a route of `/api/items`, then `@app.get` on the same path. -/
def includeThenRoute : List (Call Nat) :=
  [includeItems 0, ⟨.route (getRoute "/api/items".toList) 1, true⟩]

/-- The route that is registered last is collected first, and it is kept. -/
theorem later_route_kept :
    (registrationOrder includeThenRoute).map Prod.snd = [0, 1] ∧
      (collectAllRoutes includeThenRoute).map Prod.snd = [1, 0] ∧
      ((collectAllRoutes includeThenRoute).mapM builtRoute).map (fun table =>
        (accumulate table).byPath.map fun entry => entry.methodRouter.get? .get) =
          some [some (.http 1)] := by
  decide

end FirstWins

section Paths

/-- The prefixes on the way to a route, and its own path. -/
def components (chain : List (Path × Path)) (route : RouteDict) : List Path :=
  chain.flatMap (fun link => [link.1, link.2]) ++ [route.path]

/-- A route below a chain of includes, each with the prefix of the include and that of
the router. -/
def nest (route : RouteDict) (label : ι) : List (Path × Path) → Entry ι
  | [] => .route route label
  | link :: chain => .included link.1 link.2 [nest route label chain]

/-- The path begins with exactly one slash, has no empty segment inside and ends with a
slash exactly if the last component with any text does. -/
structure WellJoined (parts : List Path) (path : Path) : Prop where
  rooted : path.head? = some '/'
  no_double : ¬ ['/', '/'] <:+: path
  trailing : path.getLast? = some '/' ↔
    ((parts.filter (· ≠ [])).getLast?.bind List.getLast?) = some '/'

/-- Two slashes in a row with other characters on both sides. -/
def InnerDouble (text : Path) : Prop :=
  ∃ front back, text = front ++ ['/', '/'] ++ back ∧ (∃ char ∈ front, char ≠ '/') ∧
    ∃ char ∈ back, char ≠ '/'

theorem getLast?_flatten (parts : List Path) :
    parts.flatten.getLast? = (parts.filter (· ≠ [])).getLast?.bind List.getLast? := by
  induction parts using List.reverseRecOn with
  | nil => rfl
  | append_singleton parts last ih =>
    by_cases hl : last = []
    · simpa [hl] using ih
    · simp [hl, getLast?_append_of_ne_nil _ hl]

theorem dropWhile_append_of_exists {front : Path} (hf : ∃ char ∈ front, char ≠ '/') (back : Path) :
    (front ++ back).dropWhile (· = '/') = front.dropWhile (· = '/') ++ back := by
  rw [dropWhile_append, if_neg]
  simpa [dropWhile_eq_nil_iff] using hf

section

variable (text : Path)

theorem head?_dropWhile_ne : (text.dropWhile (· = '/')).head? ≠ some '/' := by
  intro hh
  have hnot := head?_dropWhile_not (fun char : Char => decide (char = '/')) text
  simp [hh] at hnot

theorem getLast?_trimSlashes_ne : (trimSlashes text).getLast? ≠ some '/' := by
  rw [trimSlashes, getLast?_reverse]
  exact head?_dropWhile_ne _

theorem trimSlashes_isPrefix : trimSlashes text <+: text.dropWhile (· = '/') := by
  rw [trimSlashes, ← reverse_suffix, reverse_reverse]
  exact dropWhile_suffix _

theorem head?_trimSlashes_ne : (trimSlashes text).head? ≠ some '/' := by
  intro hh
  refine head?_dropWhile_ne text ?_
  obtain ⟨trail, ht⟩ := trimSlashes_isPrefix text
  rw [← ht, head?_append, hh]
  rfl

theorem trimSlashes_eq_nil_iff : trimSlashes text = [] ↔ ∀ char ∈ text, char = '/' := by
  have hd : text.dropWhile (· = '/') = [] ↔ ∀ char ∈ text, char = '/' := by
    simp [dropWhile_eq_nil_iff]
  rw [← hd, trimSlashes]
  have hh := head?_dropWhile_ne text
  cases hr : text.dropWhile (· = '/') with
  | nil => simp
  | cons char rest =>
    rw [hr, head?_cons, ne_eq, Option.some.injEq] at hh
    simp [hh]

theorem innerDouble_iff : InnerDouble text ↔ ['/', '/'] <:+: trimSlashes text := by
  constructor
  · rintro ⟨front, back, rfl, hf, char, hc, hne⟩
    refine ⟨front.dropWhile (· = '/'), (back.reverse.dropWhile (· = '/')).reverse, ?_⟩
    rw [trimSlashes, append_assoc front, dropWhile_append_of_exists hf, ← append_assoc,
      reverse_append,
      dropWhile_append_of_exists ⟨char, mem_reverse.2 hc, hne⟩]
    simp
  · rintro ⟨front, back, hco⟩
    obtain ⟨lead, trail, ht⟩ :=
      (trimSlashes_isPrefix text).isInfix.trans (dropWhile_suffix _).isInfix
    have hh := head?_trimSlashes_ne text
    have hl := getLast?_trimSlashes_ne text
    rw [← hco] at hh hl ht
    refine ⟨lead ++ front, back ++ trail, by simp [← ht], ?_, ?_⟩
    · cases front with
      | nil => simp at hh
      | cons char front => exact ⟨char, by simp, by simpa using hh⟩
    · cases back using List.reverseRecOn with
      | nil => simp at hl
      | append_singleton back char =>
        exact ⟨char, by simp, by simpa [← append_assoc, getLast?_append] using hl⟩

end

private theorem double_infix_iff {core : Path} (tail : Path) (hh : core.head? ≠ some '/')
    (hl : core.getLast? ≠ some '/') (hc : core ≠ []) (ht : tail = [] ∨ tail = ['/']) :
    ['/', '/'] <:+: '/' :: core ++ tail ↔ ['/', '/'] <:+: core := by
  have hf : ['/', '/'] <:+: '/' :: core ↔ ['/', '/'] <:+: core := by
    rw [infix_cons_iff, or_iff_right]
    rintro ⟨rest, hr⟩
    rw [← (List.cons.inj hr).2] at hh
    exact hh rfl
  rcases ht with rfl | rfl
  · rw [append_nil, hf]
  · rw [infix_concat_iff, or_iff_right, hf]
    rintro ⟨front, hb⟩
    have hinfo := congrArg List.getLast? (congrArg List.dropLast hb)
    rw [dropLast_concat] at hinfo
    have hend := (getLast?_append_of_ne_nil ['/'] hc).symm.trans hinfo.symm
    exact hl (hend.trans (by simp))

theorem wellJoined_iff (parts : List Path) : WellJoined parts (normalisePath parts.flatten) ↔
    (parts.flatten = ['/'] ∨ ∃ char ∈ parts.flatten, char ≠ '/') ∧ ¬ InnerDouble parts.flatten := by
  rw [innerDouble_iff, normalisePath]
  split
  next hs =>
    rw [hs]
    exact iff_of_true ⟨rfl, by decide, by rw [← getLast?_flatten, hs]⟩ ⟨.inl rfl, by decide⟩
  next hs =>
    rw [or_iff_right hs]
    by_cases hc : trimSlashes parts.flatten = []
    · have hall := (trimSlashes_eq_nil_iff _).1 hc
      refine iff_of_false (fun hj => ?_) fun ⟨⟨char, hchar, hne⟩, _⟩ => hne (hall char hchar)
      obtain ⟨-, hd, ht⟩ := hj
      rw [← getLast?_flatten] at ht
      split at hd
      next hl => simp [hc] at hd
      next hl => simp [hc, hl] at ht
    · have he : ∃ char ∈ parts.flatten, char ≠ '/' := by
        by_contra hn
        exact hc ((trimSlashes_eq_nil_iff _).2 (by simpa using hn))
      have hl := getLast?_trimSlashes_ne parts.flatten
      have hd := double_infix_iff (if parts.flatten.getLast? = some '/' then ['/'] else [])
        (head?_trimSlashes_ne _) hl hc (by split <;> simp)
      rw [and_iff_right he, ← hd]
      refine ⟨WellJoined.no_double, fun hn => ⟨rfl, hn, ?_⟩⟩
      rw [← getLast?_flatten]
      split
      next ht => exact iff_of_true getLast?_concat ht
      next ht =>
        rw [append_nil, ← singleton_append, getLast?_append_of_ne_nil _ hc]
        simp [hl, ht]

theorem registered_nest (route : RouteDict) (label : ι) (chosen : List (Path × Path))
    (fullPrefix : Path) : registered fullPrefix (nest route label chosen) = [(route.withPath
      (normalisePath (fullPrefix ++ (components chosen route).flatten)), label)] := by
  induction chosen generalizing fullPrefix with
  | nil => simp [nest, registered, collected, components]
  | cons link chosen ih => simp [nest, registered, allRegistered, ih, components]

private theorem ordered_nest (route : RouteDict) (label : ι) (chosen : List (Path × Path)) :
    (nest route label chosen).Ordered := by
  induction chosen with
  | nil => trivial
  | cons link chosen ih => exact ⟨⟨ih, trivial⟩, pairwise_singleton _ _⟩

/-- The path of a route below a chain of prefixes is well joined exactly if the parts
together are a slash or have other characters, and between these no two slashes in a
row. -/
theorem collected_path_well_joined_iff (route : RouteDict) (label : ι) (chain : List (Path × Path))
    (onApp : Bool) :
    (∃ path, collectAllRoutes [⟨nest route label chain, onApp⟩] = [(route.withPath path, label)] ∧
      WellJoined (components chain route) path) ↔
      ((components chain route).flatten = ['/'] ∨
        ∃ char ∈ (components chain route).flatten, char ≠ '/') ∧
      ¬ InnerDouble (components chain route).flatten := by
  have hl : (nest route label chain).labels = [label] := by
    rw [← map_registered [], registered_nest]
    rfl
  have hc := (collectAllRoutes_eq_iff [⟨nest route label chain, onApp⟩]
    (by simp [hl])).2 ⟨by simp [ordered_nest], pairwise_singleton _ _⟩
  rw [hc, ← wellJoined_iff]
  simp [registrationOrder, registered_nest, RouteDict.withPath]

/-- The router of prefix `/api/` with the route `/items`: the slashes meet. -/
theorem slashes_meet_at_join :
    (collectAllRoutes [⟨nest (getRoute "/items".toList) 0 [("/api/".toList, [])], true⟩]).map
      (·.1.path) = ["/api//items".toList] := by
  decide

end Paths

end FastapiTurbo.RouteRegistration
