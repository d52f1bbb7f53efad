import FastapiTurbo.RouterConflicts

/-! Which of the HTTP routes given to `build_router` a request is dispatched to. -/
namespace FastapiTurbo.RouterDispatch

open Lib RouterTable RouterConflicts List

variable {σ : Type}

def isHttp (route : RouteInfo σ) : Bool :=
  !route.isWebsocket && route.isRegistered

def takes (path : AxumPath) (taken : List Method) (route : RouteInfo σ) : Bool :=
  route.axumPath = path && isHttp route &&
    route.methods.all fun method => !taken.contains method

/-- The methods that the routes have taken at a path, in the order of registration. -/
def takenMethods (path : AxumPath) (routes : List (RouteInfo σ)) : List Method :=
  routes.foldl (fun taken route => if takes path taken route then taken ++ route.methods else taken)
    []

/-- Some of the route's methods have been taken by the routes before it, but not all. -/
def partlyTaken (before : List (RouteInfo σ)) (route : RouteInfo σ) : Bool :=
  let taken := takenMethods route.axumPath before
  route.methods.any taken.contains && !route.methods.all taken.contains

/-- The first of the routes of a path that declares the method, those apart that are
skipped because their methods are partly taken. -/
structure FirstDeclaring (routes : List (RouteInfo σ)) (path : AxumPath) (method : Method)
    (chosen : RouteInfo σ) : Prop where
  at_path : chosen.axumPath = path
  declares : method ∈ chosen.methods
  first : ∃ earlier later, routes = earlier ++ chosen :: later ∧
    partlyTaken earlier chosen = false ∧
    ∀ front other rest, earlier = front ++ other :: rest → other.isWebsocket = false →
      other.axumPath = path → method ∈ other.methods → partlyTaken front other = true

theorem takes_iff (path : AxumPath) (taken : List Method) (route : RouteInfo σ) :
    takes path taken route = true ↔
      route.axumPath = path ∧ isHttp route = true ∧ ∀ method ∈ route.methods, method ∉ taken := by
  simp [takes, and_assoc]

theorem takenMethods_concat (path : AxumPath) (routes : List (RouteInfo σ)) (route : RouteInfo σ) :
    takenMethods path (routes ++ [route]) =
      if takes path (takenMethods path routes) route then takenMethods path routes ++ route.methods
      else takenMethods path routes := by
  rw [takenMethods, foldl_concat]
  rfl

theorem takenMethods_subset_append (path : AxumPath) (routes more : List (RouteInfo σ)) :
    takenMethods path routes ⊆ takenMethods path (routes ++ more) := by
  induction more using List.reverseRecOn with
  | nil => simp
  | append_singleton more route ih =>
    rw [← append_assoc, takenMethods_concat]
    split
    · exact List.Subset.trans ih (subset_append_left _ _)
    · exact ih

variable {route : RouteInfo σ} {method : Method}

theorem isHttp_of_declares (hs : route.isWebsocket = false) (hm : method ∈ route.methods)
    (hsupported : method.supported = true) : isHttp route = true := by
  have hany : route.methods.any Method.supported = true :=
    any_eq_true.2 ⟨method, hm, hsupported⟩
  simp [isHttp, RouteInfo.isRegistered, hs, hany]

theorem mem_takenMethods {before : List (RouteInfo σ)} (hs : route.isWebsocket = false)
    (hp : partlyTaken before route = false) (hm : method ∈ route.methods)
    (hsupported : method.supported = true)
    (after : List (RouteInfo σ)) :
    method ∈ takenMethods route.axumPath (before ++ route :: after) := by
  have hsplit : before ++ route :: after = (before ++ [route]) ++ after := by simp
  rw [hsplit]
  apply takenMethods_subset_append
  rw [takenMethods_concat]
  simp only [partlyTaken] at hp
  cases hany : route.methods.any (takenMethods route.axumPath before).contains with
  | false =>
    have hnew : takes route.axumPath (takenMethods route.axumPath before) route = true := by
      refine (takes_iff _ _ _).2 ⟨rfl, isHttp_of_declares hs hm hsupported, ?_⟩
      simpa [any_eq_false] using hany
    rw [if_pos hnew]
    exact mem_append_right _ hm
  | true =>
    rw [hany, Bool.true_and, Bool.not_eq_false'] at hp
    have ht : method ∈ takenMethods route.axumPath before := by
      simpa using all_eq_true.1 hp method hm
    split
    · exact mem_append_left _ ht
    · exact ht

variable {routes : List (RouteInfo σ)}

theorem FirstDeclaring.concat {path : AxumPath} {chosen : RouteInfo σ}
    (hf : FirstDeclaring routes path method chosen) (route : RouteInfo σ) :
    FirstDeclaring (routes ++ [route]) path method chosen := by
  obtain ⟨earlier, later, rfl, hr⟩ := hf.first
  exact ⟨hf.at_path, hf.declares, earlier, later ++ [route], by simp, hr⟩

theorem firstDeclaring_of_takes
    (htakes : takes route.axumPath (takenMethods route.axumPath routes) route = true)
    (hm : method ∈ route.methods) (hs : method.supported = true) :
    FirstDeclaring (routes ++ [route]) route.axumPath method route := by
  have hf := ((takes_iff _ _ _).1 htakes).2.2
  refine ⟨rfl, hm, routes, [], rfl, ?_, fun front other rest hr hsocket hp ho => ?_⟩
  · have hany : route.methods.any (takenMethods route.axumPath routes).contains = false := by
      simpa [any_eq_false] using hf
    simp [partlyTaken, hany]
  · cases hpartly : partlyTaken front other with
    | true => rfl
    | false =>
      have ht := mem_takenMethods hsocket hpartly ho hs rest
      rw [hp, ← hr] at ht
      exact absurd ht (hf method hm)

structure EntryHolds (routes : List (RouteInfo σ)) (entry : PathEntry σ) : Prop where
  declared : entry.declared = takenMethods entry.path routes
  within : ∀ method, method ∉ entry.declared → entry.methodRouter.get? method = none
  endpoint : ∀ method ∈ entry.declared, method.supported = true →
    ∃ chosen, FirstDeclaring routes entry.path method chosen ∧
      entry.methodRouter.get? method = some (.http chosen.state)

theorem get?_methodRouter (route : RouteInfo σ) (method : Method) :
    route.methodRouter.get? method =
      if method ∈ route.methods ∧ method.supported = true then some (.http route.state)
      else none := by
  unfold RouteInfo.methodRouter
  split
  next hm =>
    have hmem : method ∈ route.methods.filter Method.supported := mem_filter.2 hm
    generalize route.methods.filter Method.supported = methods at hmem
    induction methods with
    | nil => simp at hmem
    | cons first rest ih =>
      by_cases hf : first = method
      · simp [Dict.get?, hf]
      · simpa [Dict.get?, hf] using ih (by simpa [Ne.symm hf] using hmem)
  next hm =>
    apply Dict.get?_eq_none
    simpa [Function.comp_def] using hm

variable {entry : PathEntry σ}

theorem EntryHolds.concat (he : EntryHolds routes entry)
    (ht : takes entry.path (takenMethods entry.path routes) route = false) :
    EntryHolds (routes ++ [route]) entry := by
  refine ⟨?_, he.within, fun method hm hs => ?_⟩
  · rw [takenMethods_concat, ht, he.declared]
    rfl
  · obtain ⟨chosen, hf, hget⟩ := he.endpoint method hm hs
    exact ⟨chosen, hf.concat route, hget⟩

theorem entryHolds_merged (he : EntryHolds routes entry) (hp : entry.path = route.axumPath)
    (ht : takes entry.path (takenMethods entry.path routes) route = true) (getState : Option σ) :
    EntryHolds (routes ++ [route])
      ⟨entry.path, entry.methodRouter ++ route.methodRouter, entry.declared ++ route.methods,
        getState⟩ := by
  refine ⟨?_, fun method hm => ?_, fun method hm hs => ?_⟩
  · rw [takenMethods_concat, ht, he.declared]
    rfl
  · rw [mem_append, not_or] at hm
    simp [Dict.get?_append, he.within method hm.1, get?_methodRouter, hm.2]
  · simp only [Dict.get?_append]
    by_cases hold : method ∈ entry.declared
    · obtain ⟨chosen, hf, hget⟩ := he.endpoint method hold hs
      exact ⟨chosen, hf.concat route, by simp [hget]⟩
    · have hnew : method ∈ route.methods := (mem_append.1 hm).resolve_left hold
      refine ⟨route, ?_, by simp [he.within method hold, get?_methodRouter, hnew, hs]⟩
      rw [hp] at ht ⊢
      exact firstDeclaring_of_takes ht hnew hs

theorem add_holds (hentry : EntryHolds routes entry) (hp : entry.path = route.axumPath)
    (hh : isHttp route = true) : EntryHolds (routes ++ [route]) (entry.add route) := by
  have hdup : (route.methods.filter fun method => entry.declared.contains method) = [] ↔
      takes entry.path (takenMethods entry.path routes) route = true := by
    rw [takes_iff, ← hentry.declared]
    simp [hp, hh]
  have hn : route.methods ≠ [] := by
    intro he
    simp [isHttp, RouteInfo.isRegistered, he] at hh
  simp only [PathEntry.add]
  split
  next hall =>
    have ht : takes entry.path (takenMethods entry.path routes) route = false := by
      rw [← Bool.not_eq_true, ← hdup]
      intro he
      rw [he] at hall
      exact hn (length_eq_zero_iff.1 hall.symm)
    exact hentry.concat ht
  next =>
    split
    next he => exact entryHolds_merged hentry hp (hdup.1 he) _
    next hs =>
      rw [hdup, Bool.not_eq_true] at hs
      exact hentry.concat hs

theorem new_holds (ha : takenMethods route.axumPath routes = []) (hh : isHttp route = true) :
    EntryHolds (routes ++ [route])
      ⟨route.axumPath, route.methodRouter, route.methods, route.getState⟩ := by
  have he : EntryHolds routes ⟨route.axumPath, [], [], none⟩ :=
    ⟨ha.symm, fun _ _ => rfl, by simp⟩
  have ht : takes route.axumPath (takenMethods route.axumPath routes) route = true :=
    (takes_iff _ _ _).2 ⟨rfl, hh, by simp [ha]⟩
  exact entryHolds_merged he rfl ht route.getState

theorem mem_addRoute {entries : List (PathEntry σ)} (hn : (entries.map PathEntry.path).Nodup)
    (hmem : entry ∈ addRoute route entries) :
    (entry ∈ entries ∧ entry.path ≠ route.axumPath) ∨
      (∃ old ∈ entries, old.path = route.axumPath ∧ entry = old.add route) ∨
      (route.axumPath ∉ entries.map PathEntry.path ∧
        entry = ⟨route.axumPath, route.methodRouter, route.methods, route.getState⟩) := by
  induction entries with
  | nil => exact .inr (.inr ⟨by simp, by simpa [addRoute] using hmem⟩)
  | cons first rest ih =>
    rw [map_cons, nodup_cons] at hn
    unfold addRoute at hmem
    split at hmem
    next hf =>
      rcases mem_cons.1 hmem with rfl | hr
      · exact .inr (.inl ⟨first, mem_cons_self, hf, rfl⟩)
      · refine .inl ⟨mem_cons_of_mem _ hr, fun hp => hn.1 ?_⟩
        rw [hf, ← hp]
        exact mem_map_of_mem hr
    next hf =>
      rcases mem_cons.1 hmem with rfl | hr
      · exact .inl ⟨mem_cons_self, hf⟩
      · rcases ih hn.2 hr with ⟨hold, hne⟩ | ⟨old, hold, hadd⟩ | ⟨hnew, rfl⟩
        · exact .inl ⟨mem_cons_of_mem _ hold, hne⟩
        · exact .inr (.inl ⟨old, mem_cons_of_mem _ hold, hadd⟩)
        · exact .inr (.inr ⟨by simpa [Ne.symm hf] using hnew, rfl⟩)

structure AccumHolds (routes : List (RouteInfo σ)) (accum : Accum σ) : Prop where
  entries : ∀ entry ∈ accum.byPath, EntryHolds routes entry
  absent : ∀ path, path ∉ accum.byPath.map PathEntry.path → takenMethods path routes = []

theorem takes_eq_false_of_ne {path : AxumPath} (hne : path ≠ route.axumPath) (taken : List Method) :
    takes path taken route = false := by
  simp [takes, Ne.symm hne]

private theorem takes_eq_false_of_not_http (hh : isHttp route = false) (path : AxumPath)
    (taken : List Method) : takes path taken route = false := by
  simp [takes, hh]

theorem AccumHolds.skip {accum : Accum σ} (hh : AccumHolds routes accum)
    (hhttp : isHttp route = false)
    {next : Accum σ} (hn : next.byPath = accum.byPath) : AccumHolds (routes ++ [route]) next := by
  refine ⟨fun entry hmem => ?_, fun path hp => ?_⟩
  · rw [hn] at hmem
    exact (hh.entries entry hmem).concat (takes_eq_false_of_not_http hhttp _ _)
  · rw [hn] at hp
    rw [takenMethods_concat, takes_eq_false_of_not_http hhttp, hh.absent path hp]
    rfl

theorem AccumHolds.add {accum : Accum σ} (hh : AccumHolds routes accum)
    (hn : (accum.byPath.map PathEntry.path).Nodup) (hhttp : isHttp route = true) :
    AccumHolds (routes ++ [route]) { accum with byPath := addRoute route accum.byPath } := by
  refine ⟨fun entry hmem => ?_, fun path hp => ?_⟩
  · rcases mem_addRoute hn hmem with ⟨hold, hne⟩ | ⟨old, hold, hp, rfl⟩ | ⟨hnew, rfl⟩
    · exact (hh.entries entry hold).concat (takes_eq_false_of_ne hne _)
    · exact add_holds (hh.entries old hold) hp hhttp
    · exact new_holds (hh.absent _ hnew) hhttp
  · rw [addRoute_paths, mem_addNew, not_or] at hp
    rw [takenMethods_concat, takes_eq_false_of_ne (Ne.symm hp.2), hh.absent path hp.1]
    rfl

theorem accumulate_holds (routes : List (RouteInfo σ)) :
    AccumHolds routes (accumulate routes) := by
  induction routes using List.reverseRecOn with
  | nil => exact ⟨by simp [accumulate], fun _ _ => rfl⟩
  | append_singleton routes route ih =>
    rw [accumulate_concat]
    cases hs : route.isWebsocket with
    | true =>
      rw [register_socket hs]
      exact ih.skip (by simp [isHttp, hs]) rfl
    | false =>
      cases hr : route.isRegistered with
      | false =>
        rw [register_unknown hr]
        exact ih.skip (by simp [isHttp, hr]) rfl
      | true =>
        rw [register_http hs hr]
        exact ih.add (accumulate_covers routes).nodup_http (by simp [isHttp, hs, hr])

theorem wsByPath_eq_nil (hh : ∀ route ∈ routes, route.isWebsocket = false) :
    (accumulate routes).wsByPath = [] := by
  cases hws : (accumulate routes).wsByPath with
  | nil => rfl
  | cons entry rest =>
    obtain ⟨route, hmem, hs, _⟩ := ((accumulate_covers routes).mem_ws entry.1).1
      (by simp [hws])
    simp [hh route hmem] at hs

private theorem finishAll_nil (order : List (Path × List Method)) (entries : List (PathEntry σ)) :
    finishAll order entries [] =
      (entries.map fun entry => (entry.path, finishEntry order none entry), []) := by
  induction entries with
  | nil => rfl
  | cons entry rest ih => simp [finishAll, Dict.erase, Dict.get?, ih]

/-- Without WebSocket routes the radix holds the entries of `by_path`. -/
theorem table_of_http (hh : ∀ route ∈ routes, route.isWebsocket = false) :
    (buildRouter routes).table = (accumulate routes).byPath.map fun entry =>
      (entry.path.pattern, .methods (finishEntry
        (routes.map fun route => (route.path, route.methods)) none entry)) := by
  simp [Routers.table, buildRouter, wsByPath_eq_nil hh, finishAll_nil]

theorem call_finishEntry (he : EntryHolds routes entry) (hm : method ∈ entry.declared)
    (hs : method.supported = true) (order : List (Path × List Method)) :
    ∃ chosen, FirstDeclaring routes entry.path method chosen ∧
      (finishEntry order none entry).call method = .http chosen.state := by
  obtain ⟨chosen, hf, hget⟩ := he.endpoint method hm hs
  exact ⟨chosen, hf, by simp [MethodRouter.call, finishEntry, Dict.get?_append, hget]⟩

theorem exists_entry_of_accepts (hh : ∀ route ∈ routes, route.isWebsocket = false)
    {own : PathEntry σ} (hown : own ∈ (accumulate routes).byPath) {path : Path}
    (ha : own.path.pattern.accepts '/' path = true) :
    ∃ entry ∈ (accumulate routes).byPath, entry.path.pattern.accepts '/' path = true ∧
      entry.path.pattern.rank ≤ own.path.pattern.rank ∧
      ∀ method, (buildRouter routes).dispatch method path = .endpoint ((finishEntry
        (routes.map fun route => (route.path, route.methods)) none entry).call method) := by
  have ht := table_of_http hh
  have hmem := mem_map_of_mem (f := fun entry : PathEntry σ =>
    (entry.path.pattern, Service.methods (finishEntry
      (routes.map fun route => (route.path, route.methods)) none entry))) hown
  rw [← ht] at hmem
  obtain ⟨found, hc⟩ := PathPattern.exists_choose hmem ha
  have hr := PathPattern.rank_le_of_choose hc hmem ha
  obtain ⟨hf, hfoundAccepts⟩ := PathPattern.mem_of_choose hc
  rw [ht] at hf
  obtain ⟨entry, he, rfl⟩ := mem_map.1 hf
  exact ⟨entry, he, hfoundAccepts, hr, fun method => by simp [Routers.dispatch, hc]⟩

private theorem path_eq_of_rank (hr : (registerAll (buildRouter routes)).isSome = true)
    {one other : AxumPath}
    (hone : one ∈ (buildRouter routes).inserted) (ho : other ∈ (buildRouter routes).inserted)
    {path : Path}
    (honePath : one.pattern.accepts '/' path = true)
    (hotherPath : other.pattern.accepts '/' path = true)
    (hrank : one.pattern.rank = other.pattern.rank) : one = other := by
  rw [registerAll_isSome_iff, compatible_iff_of_nodup (inserted_nodup routes)] at hr
  exact hr one hone other ho (PathPattern.shape_of_rank honePath hotherPath hrank)

/-- Where the most specific pattern that accepts a request is that of a route which
declares its method and is not skipped, the request goes to the first such route. -/
theorem dispatch_first_declaring {routes before after : List (RouteInfo σ)}
    {route : RouteInfo σ} {path : Path} {method : Method}
    (hhttp : ∀ route ∈ routes, route.isWebsocket = false)
    (hregisters : (registerAll (buildRouter routes)).isSome = true)
    (hroutes : routes = before ++ route :: after) (hpartly : partlyTaken before route = false)
    (haccepts : route.axumPath.pattern.accepts '/' path = true)
    (hspecific : ∀ other ∈ routes, other.isRegistered = true →
      other.axumPath.pattern.accepts '/' path = true →
      ¬other.axumPath.pattern.rank < route.axumPath.pattern.rank)
    (hmethod : method ∈ route.methods) (hsupported : method.supported = true) :
    ∃ chosen ∈ routes, chosen.axumPath.pattern.accepts '/' path = true ∧
      FirstDeclaring routes route.axumPath method chosen ∧
      (buildRouter routes).dispatch method path = .endpoint (.http chosen.state) := by
  have hc := accumulate_covers routes
  have hmem : route ∈ routes := by simp [hroutes]
  have hs := hhttp route hmem
  have hr : route.isRegistered = true := by
    have hany := isHttp_of_declares hs hmethod hsupported
    simpa [isHttp, hs] using hany
  -- the route has an entry, so the radix finds one
  obtain ⟨own, hown, ho⟩ := mem_map.1
    ((hc.mem_http route.axumPath).2 ⟨route, hmem, hs, hr, rfl⟩)
  obtain ⟨entry, he, hentryPath, hrank, hd⟩ :=
    exists_entry_of_accepts hhttp hown (ho ▸ haccepts)
  rw [ho] at hrank
  -- it is that of the route, as none is more specific
  obtain ⟨other, hother, _, hotherReg, hotherPath⟩ :=
    (hc.mem_http entry.path).1 (mem_map_of_mem he)
  have hsame : entry.path = route.axumPath := by
    apply path_eq_of_rank hregisters
      ((mem_inserted_iff routes _).2 ⟨other, hother, hotherReg, hotherPath⟩)
      ((mem_inserted_iff routes _).2 ⟨route, hmem, hr, rfl⟩) hentryPath haccepts
    refine le_antisymm hrank (not_lt.1 ?_)
    rw [← hotherPath] at hentryPath ⊢
    exact hspecific other hother hotherReg hentryPath
  have hh := (accumulate_holds routes).entries entry he
  have hdeclared : method ∈ entry.declared := by
    rw [hh.declared, hsame, hroutes]
    exact mem_takenMethods hs hpartly hmethod hsupported after
  obtain ⟨chosen, hf, hcall⟩ := call_finishEntry hh hdeclared hsupported
    (routes.map fun route => (route.path, route.methods))
  rw [hsame] at hf
  obtain ⟨earlier, later, hsplit, _⟩ := hf.first
  exact ⟨chosen, by simp [hsplit], hf.at_path ▸ haccepts, hf, by rw [hd, hcall]⟩

def listUsers : RouteInfo Nat :=
  { getItem with path := "/users".toList, wellFormed := by decide }

def createUser : RouteInfo Nat :=
  { listUsers with methods := [.post], state := 1, distinct := by decide }

def listOrCreateUser : RouteInfo Nat :=
  { listUsers with methods := [.get, .post], state := 1, distinct := by decide }

theorem create_user_dispatched :
    partlyTaken [listUsers] createUser = false ∧
      ∃ chosen ∈ [listUsers, createUser],
        FirstDeclaring [listUsers, createUser] createUser.axumPath .post chosen ∧
        (buildRouter [listUsers, createUser]).dispatch .post "/users".toList =
          .endpoint (.http chosen.state) := by
  have hp : partlyTaken [listUsers] createUser = false := by decide
  obtain ⟨chosen, hmem, _, hf, hd⟩ :=
    @dispatch_first_declaring Nat [listUsers, createUser] [listUsers] [] createUser
      "/users".toList .post (by decide) (by decide) rfl hp (by decide) (by decide)
      (by decide) (by decide)
  exact ⟨hp, chosen, hmem, hf, hd⟩

def purgeUsers : RouteInfo Nat :=
  { listUsers with methods := [.get, .other "PURGE"], distinct := by decide }

def submitPage : RouteInfo Nat :=
  { createUser with path := "/{page}".toList, wellFormed := by decide }

/-- A route of two methods is skipped as a whole when one of them is taken.  No handler is
registered for a method that axum does not name, the more specific pattern is taken whatever its
methods are, and two names for one parameter end the registration. -/
theorem partly_taken_route_skipped :
    (listOrCreateUser.axumPath.pattern.accepts '/' "/users".toList = true ∧
      .post ∈ listOrCreateUser.methods ∧
      (buildRouter [listUsers, listOrCreateUser]).dispatch .post "/users".toList =
        .endpoint (.notAllowed [.get])) ∧
    (.other "PURGE" ∈ purgeUsers.methods ∧
      (buildRouter [purgeUsers]).dispatch (.other "PURGE") "/users".toList =
        .endpoint (.notAllowed [.get, .other "PURGE"])) ∧
    (submitPage.axumPath.pattern.accepts '/' "/users".toList = true ∧
      .post ∈ submitPage.methods ∧
      (buildRouter [listUsers, submitPage]).dispatch .post "/users".toList =
        .endpoint (.notAllowed [.get])) ∧
    registerAll (buildRouter [getItem, putItem]) = none := by
  decide

end FastapiTurbo.RouterDispatch
