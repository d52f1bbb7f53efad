import FastapiTurbo.RouterAnswers

/-! HTTP and WebSocket routes beside one another (`router.rs`): what a WebSocket route
does to the requests of the HTTP routes, and which WebSocket route an upgrade gets
to. -/
namespace FastapiTurbo.RouterSockets

open Lib RouterTable RouterConflicts List
  RouterDispatch RouterAnswers

variable {σ : Type}

section Sockets

structure LastSocket (routes : List (RouteInfo σ)) (top : AxumPath) (chosen : RouteInfo σ) :
    Prop where
  is_socket : chosen.isWebsocket = true
  at_path : chosen.axumPath = top
  last : ∃ earlier later, routes = earlier ++ chosen :: later ∧
    ∀ other ∈ later, other.isWebsocket = true → other.axumPath ≠ top

private theorem register_wsByPath_of_http {route : RouteInfo σ} (hs : route.isWebsocket = false)
    (accum : Accum σ) : (accum.register route).wsByPath = accum.wsByPath := by
  cases hr : route.isRegistered with
  | false => rw [register_unknown hr]
  | true => rw [register_http hs hr]

variable {top : AxumPath}

theorem get?_register_of_ne {route : RouteInfo σ}
    (hne : route.isWebsocket = true → route.axumPath ≠ top)
    (accum : Accum σ) : (accum.register route).wsByPath.get? top = accum.wsByPath.get? top := by
  cases hs : route.isWebsocket with
  | false => rw [register_wsByPath_of_http hs]
  | true =>
    rw [register_socket hs]
    exact (Dict.get?_set ..).trans (if_neg fun hsame => hne hs hsame.symm)

variable {routes : List (RouteInfo σ)}

theorem get?_of_lastSocket {chosen : RouteInfo σ} (hlast : LastSocket routes top chosen) :
    (accumulate routes).wsByPath.get? top = some chosen.state := by
  obtain ⟨hs, hp, earlier, later, rfl, hl⟩ := hlast
  induction later using List.reverseRecOn with
  | nil =>
    rw [accumulate_concat, register_socket hs]
    exact (Dict.get?_set ..).trans (if_pos hp.symm)
  | append_singleton later route ih =>
    rw [← cons_append, ← append_assoc, accumulate_concat, get?_register_of_ne (hl route (by simp))]
    exact ih fun other hmem => hl other (mem_append_left _ hmem)

theorem lastSocket_of_get? {s : σ} (hget : (accumulate routes).wsByPath.get? top = some s) :
    ∃ chosen, LastSocket routes top chosen ∧ chosen.state = s := by
  induction routes using List.reverseRecOn with
  | nil => simp [accumulate, Dict.get?] at hget
  | append_singleton routes route ih =>
    by_cases hr : route.isWebsocket = true ∧ route.axumPath = top
    · have hl : LastSocket (routes ++ [route]) top route :=
        ⟨hr.1, hr.2, routes, [], rfl, by simp⟩
      exact ⟨route, hl, Option.some.inj ((get?_of_lastSocket hl).symm.trans hget)⟩
    · have hne : route.isWebsocket = true → route.axumPath ≠ top :=
        fun hs hp => hr ⟨hs, hp⟩
      rw [accumulate_concat, get?_register_of_ne hne] at hget
      obtain ⟨chosen, ⟨hs, hp, earlier, later, rfl, hlater⟩, hstate⟩ := ih hget
      refine ⟨chosen, ⟨hs, hp, earlier, later ++ [route], by simp, ?_⟩, hstate⟩
      intro other hmem
      rcases mem_append.1 hmem with hold | hnew
      · exact hlater other hold
      · rw [mem_singleton.1 hnew]
        exact hne

theorem exists_get?_of_socket {socket : RouteInfo σ} (hmem : socket ∈ routes)
    (hs : socket.isWebsocket = true) :
    ∃ state, (accumulate routes).wsByPath.get? socket.axumPath = some state := by
  rw [← Option.isSome_iff_exists, ← Dict.contains_eq_isSome]
  obtain ⟨⟨path, state⟩, he, rfl⟩ := mem_map.1
    (((accumulate_covers routes).mem_ws socket.axumPath).2 ⟨socket, hmem, hs, rfl⟩)
  exact any_eq_true.2 ⟨_, he, by simp⟩

end Sockets

section Undisturbed

/-- The WebSocket routes leave a route its requests: registration goes through, none of
them has a more specific path for this one, and where one shares the path of the route
the `GET` of that path has the same state. -/
structure Undisturbed (routes : List (RouteInfo σ)) (path : Path) (chosen : RouteInfo σ) :
    Prop where
  agree : NamesAgree routes
  unshadowed : ∀ socket ∈ routes, socket.isWebsocket = true →
    socket.axumPath.pattern.accepts '/' path = true →
    ¬socket.axumPath.pattern.rank < chosen.axumPath.pattern.rank
  same_state : ∀ socket ∈ routes, socket.isWebsocket = true →
    socket.axumPath = chosen.axumPath → ∀ getter,
    FirstDeclaring (httpRoutes routes) chosen.axumPath .get getter → getter.state = chosen.state

theorem isRegistered_of_socket {route : RouteInfo σ} (hs : route.isWebsocket = true) :
    route.isRegistered = true := by
  simp [RouteInfo.isRegistered, hs]

variable {routes : List (RouteInfo σ)} {path : Path} {chosen : RouteInfo σ}

theorem Undisturbed.specific (hu : Undisturbed routes path chosen)
    (htop : MostSpecific (httpRoutes routes) path chosen.axumPath) :
    MostSpecific routes path chosen.axumPath := by
  obtain ⟨route, hmem, hr, hp⟩ := htop.registered
  refine ⟨⟨route, httpRoutes_subset routes hmem, hr, hp⟩, htop.accepts, ?_⟩
  intro other ho hotherReg ha
  cases hs : other.isWebsocket with
  | true => exact hu.unshadowed other ho hs ha
  | false => exact htop.least other (mem_httpRoutes.2 ⟨ho, hs⟩) hotherReg ha

variable {method : Method}

theorem exists_handledBy_http {s : σ} (hhandled : handledBy routes method path = some s) :
    ∃ state', handledBy (httpRoutes routes) method path = some state' := by
  obtain ⟨ha, entry, he, htop, hm, hs⟩ := entry_of_handledBy hhandled
  have hh : entry ∈ (accumulate (httpRoutes routes)).byPath := by rwa [byPath_httpRoutes]
  have hn : (accumulate (httpRoutes routes)).wsByPath.get? entry.path = none := by
    rw [wsByPath_eq_nil (isWebsocket_httpRoutes routes)]
    rfl
  obtain ⟨chosen, -, hstate⟩ := httpState_alone hh (.inl hn) hm hs
    (declaredOrder (httpRoutes routes))
  refine ⟨chosen.state, ?_⟩
  rw [handledBy_of_entry (namesAgree_of_subset (httpRoutes_subset routes) ha) hh
    (htop.http he), hstate]

theorem Undisturbed.handledBy (hu : Undisturbed routes path chosen)
    (hc : Handles (httpRoutes routes) method path chosen) :
    handledBy routes method path = some chosen.state := by
  have hh := isWebsocket_httpRoutes routes
  have hcovers := accumulate_covers routes
  obtain ⟨ha, htop, hf, hsupported⟩ := hc
  obtain ⟨route, hmem, hr, hroute⟩ := htop.registered
  obtain ⟨hmem, hsocket⟩ := mem_httpRoutes.1 hmem
  obtain ⟨entry, he, hp⟩ := mem_map.1
    ((hcovers.mem_http chosen.axumPath).2 ⟨route, hmem, hsocket, hr, hroute⟩)
  have hspecific := hu.specific htop
  rw [← hp] at hspecific hf
  have hm := declared_of_first he hsupported hf
  rw [handledBy_of_entry hu.agree he hspecific]
  cases hws : (accumulate routes).wsByPath.get? entry.path with
  | none =>
    obtain ⟨other, ho, hs⟩ := httpState_alone he (.inl rfl) hm hsupported
      (declaredOrder routes)
    rw [hs, firstDeclaring_unique hh ho hf]
  | some socket =>
    cases hget : entry.getState with
    | none =>
      obtain ⟨other, ho, hs⟩ := httpState_alone he (.inr hget) hm hsupported
        (declaredOrder routes)
      rw [hs, firstDeclaring_unique hh ho hf]
    | some s =>
      obtain ⟨getter, hg, hs⟩ :=
        getState_of_declared he (declared_of_getState he hget)
      obtain ⟨last, ⟨hl, hshared, earlier, later, hroutes, -⟩, -⟩ := lastSocket_of_get? hws
      have hsame := hu.same_state last (by simp [hroutes]) hl (hshared.trans hp)
        getter (hp ▸ hg)
      rw [httpState_shared hs hm hsupported, hsame]

private theorem undisturbed_of_handledBy (hc : Handles (httpRoutes routes) method path chosen)
    (hh : handledBy routes method path = some chosen.state) : Undisturbed routes path chosen := by
  obtain ⟨ha, entry, he, htop, hm, hsupported⟩ := entry_of_handledBy hh
  have hp : entry.path = chosen.axumPath :=
    (htop.http he).unique hc.agree hc.specific
  refine ⟨ha, fun socket hmem hs => ?_, fun socket hmem hs hshared getter hg => ?_⟩
  · rw [← hp]
    exact htop.least socket hmem (isRegistered_of_socket hs)
  · -- the path is shared, so the method has been handed to the state of `GET`
    obtain ⟨s, hstate⟩ := exists_get?_of_socket hmem hs
    rw [hshared, ← hp] at hstate
    rw [← hp] at hg
    obtain ⟨getter', hgetter', hget⟩ := getState_of_declared he
      (declared_of_first he rfl hg)
    rw [handledBy_of_entry ha he htop, hstate, httpState_shared hget hm hsupported] at hh
    rw [firstDeclaring_unique (isWebsocket_httpRoutes routes) hg hgetter']
    exact Option.some.inj hh

/-- A request is handled by the same HTTP state with the WebSocket routes as without
them exactly if the route that is due it, should there be one, is left undisturbed. -/
theorem handled_with_sockets_iff (routes : List (RouteInfo σ)) (method : Method) (path : Path) :
    handledBy routes method path = handledBy (httpRoutes routes) method path ↔
      ∀ chosen, Handles (httpRoutes routes) method path chosen →
        Undisturbed routes path chosen := by
  have hh := isWebsocket_httpRoutes routes
  constructor
  · intro hs chosen hc
    refine undisturbed_of_handledBy hc (hs.trans ?_)
    exact (handledBy_http_iff hh method path chosen.state).2 ⟨chosen, hc, rfl⟩
  · intro hu
    cases ha : handledBy (httpRoutes routes) method path with
    | none =>
      cases hhandled : handledBy routes method path with
      | none => rfl
      | some state =>
        obtain ⟨state', hstate'⟩ := exists_handledBy_http hhandled
        simp [ha] at hstate'
    | some state =>
      obtain ⟨chosen, hc, rfl⟩ := (handledBy_http_iff hh method path state).1 ha
      exact (hu chosen hc).handledBy hc

def queryGraphql : RouteInfo Nat :=
  { getItem with path := "/graphql".toList, wellFormed := by decide }

def mutateGraphql : RouteInfo Nat :=
  { queryGraphql with methods := [.post], state := 1, distinct := createUser.distinct }

def subscribeGraphql : RouteInfo Nat :=
  { queryGraphql with isWebsocket := true, state := 2 }

/-- A WebSocket route at `/graphql` hands the `POST` of that path to the handler of its
`GET`. -/
theorem socket_redirects_post :
    handledBy [queryGraphql, mutateGraphql] .post "/graphql".toList = some 1 ∧
      handledBy [queryGraphql, mutateGraphql, subscribeGraphql] .post "/graphql".toList =
        some 0 := by
  decide

end Undisturbed

section Upgrade

/-- A WebSocket route, the first that was registered with its path. -/
structure FirstSocket (routes : List (RouteInfo σ)) (chosen : RouteInfo σ) : Prop where
  is_socket : chosen.isWebsocket = true
  first : ∃ earlier later, routes = earlier ++ chosen :: later ∧
    ∀ other ∈ earlier, other.isWebsocket = true → other.path ≠ chosen.path

/-- An upgrade gets to the route: registration goes through, no route with a more
specific path accepts the request, none registered later has the same converted path,
and HTTP routes at that path, should there be any, have a `GET` among them. -/
structure Upgrades (routes : List (RouteInfo σ)) (path : Path) (chosen : RouteInfo σ) : Prop where
  agree : NamesAgree routes
  specific : MostSpecific routes path chosen.axumPath
  last : LastSocket routes chosen.axumPath chosen
  shared : (∀ route ∈ routes, isHttp route = true → route.axumPath ≠ chosen.axumPath) ∨
    .get ∈ takenMethods chosen.axumPath routes

variable {routes : List (RouteInfo σ)}

theorem socketState_call {entry : PathEntry σ} (he : entry ∈ (accumulate routes).byPath)
    (order : List (Path × List Method)) (socket : Option σ) :
    socketState (.endpoint ((finishEntry order socket entry).call .get)) =
      if .get ∈ entry.declared then socket else none := by
  by_cases hget : .get ∈ entry.declared
  · obtain ⟨getter, -, hs⟩ := getState_of_declared he hget
    cases socket with
    | none =>
      have hp : (handlers none entry).get? .get = some (.http getter.state) := by
        change entry.methodRouter.get? .get = _
        rw [(entry_consistent he).get_state, hs]
        rfl
      rw [call_declared hp, if_pos hget]
      rfl
    | some socket =>
      have hshared : (handlers (some socket) entry).get? .get =
          some (.upgrade socket getter.state) := by
        simp [handlers, hs, get?_sharedRouter]
      rw [call_declared hshared, if_pos hget]
      rfl
  · rw [call_undeclared he order socket fun hd => hget hd.1, if_neg hget]
    rfl

theorem mem_paths_iff (routes : List (RouteInfo σ)) (top : AxumPath) :
    top ∈ (accumulate routes).byPath.map PathEntry.path ↔
      ∃ route ∈ routes, isHttp route = true ∧ route.axumPath = top := by
  rw [(accumulate_covers routes).mem_http]
  simp only [isHttp, Bool.and_eq_true, Bool.not_eq_true', and_assoc]

theorem upgradedBy_of_upgrades {path : Path} {chosen : RouteInfo σ}
    (hu : Upgrades routes path chosen) : upgradedBy routes path = some chosen.state := by
  obtain ⟨ha, htop, hl, hs⟩ := hu
  have hget := get?_of_lastSocket hl
  by_cases hh : chosen.axumPath ∈ (accumulate routes).byPath.map PathEntry.path
  · obtain ⟨entry, he, hp⟩ := mem_map.1 hh
    have hd : .get ∈ entry.declared := by
      obtain ⟨route, hmem, hr, hat⟩ := (mem_paths_iff routes _).1 hh
      rw [((accumulate_holds routes).entries entry he).declared, hp]
      exact hs.resolve_left fun hn => hn route hmem hr hat
    rw [← hp] at htop hget
    rw [upgradedBy, answer_of_mostSpecific ha htop (.methods he), hget]
    exact (socketState_call he _ _).trans (if_pos hd)
  · rw [upgradedBy, answer_of_mostSpecific ha htop (.socket (Dict.mem_of_get? hget) hh)]
    rfl

theorem upgrades_of_upgradedBy {path : Path} {s : σ} (hu : upgradedBy routes path = some s) :
    ∃ chosen, Upgrades routes path chosen ∧ chosen.state = s := by
  rcases answer_cases routes path with hn | ⟨ha, top, service, htop, hserves, hanswer⟩
  · rw [upgradedBy, hn] at hu
    simp [socketState] at hu
  · rw [upgradedBy, hanswer] at hu
    cases hserves with
    | @socket _ socket hsocket hh =>
      obtain ⟨chosen, hl, hs⟩ :=
        lastSocket_of_get? (Dict.get?_of_mem (accumulate_covers routes).nodup_ws hsocket)
      refine ⟨chosen, ⟨ha, ?_, ?_, .inl ?_⟩, hs.trans (Option.some.inj hu)⟩
      · rwa [hl.at_path]
      · rwa [hl.at_path]
      · intro route hmem hr hp
        exact hh ((mem_paths_iff routes top).2 ⟨route, hmem, hr, hp.trans hl.at_path⟩)
    | @methods entry he =>
      rw [serviceAnswer, socketState_call he] at hu
      split at hu
      next hget =>
        obtain ⟨chosen, hl, hs⟩ := lastSocket_of_get? hu
        rw [((accumulate_holds routes).entries entry he).declared] at hget
        refine ⟨chosen, ⟨ha, ?_, ?_, .inr ?_⟩, hs⟩
        all_goals rwa [hl.at_path]
      next => simp at hu

theorem FirstSocket.mem {chosen : RouteInfo σ} (hf : FirstSocket routes chosen) :
    chosen ∈ routes := by
  obtain ⟨earlier, later, rfl, -⟩ := hf.first
  exact mem_append_cons_self

/-- Every route is compiled to a state of its own.  An upgrade that some WebSocket route
matches is then dispatched to one of them, the first of its path, exactly if one of
these is the last of its converted path and nothing stands before it. -/
theorem upgrade_reaches_first_socket_iff {routes : List (RouteInfo σ)}
    (hstates : (routes.map RouteInfo.state).Nodup) (path : Path) :
    ((∃ socket ∈ routes, socket.isWebsocket = true ∧
        socket.axumPath.pattern.accepts '/' path = true) →
      ∃ chosen, FirstSocket routes chosen ∧ chosen.axumPath.pattern.accepts '/' path = true ∧
        upgradedBy routes path = some chosen.state) ↔
    ((∃ socket ∈ routes, socket.isWebsocket = true ∧
        socket.axumPath.pattern.accepts '/' path = true) →
      ∃ chosen, FirstSocket routes chosen ∧ Upgrades routes path chosen) := by
  constructor
  · intro hd hm
    obtain ⟨chosen, hf, -, hupgraded⟩ := hd hm
    obtain ⟨other, ho, hs⟩ := upgrades_of_upgradedBy hupgraded
    obtain ⟨earlier, later, hr, -⟩ := ho.last.last
    have hsame : other = chosen :=
      inj_on_of_nodup_map hstates (by simp [hr]) hf.mem hs
    exact ⟨chosen, hf, hsame ▸ ho⟩
  · intro hreachable hm
    obtain ⟨chosen, hf, hu⟩ := hreachable hm
    exact ⟨chosen, hf, hu.specific.accepts, upgradedBy_of_upgrades hu⟩

theorem subscription_upgraded :
    ([queryGraphql, subscribeGraphql].map RouteInfo.state).Nodup ∧
      ∃ chosen, FirstSocket [queryGraphql, subscribeGraphql] chosen ∧
        chosen.axumPath.pattern.accepts '/' "/graphql".toList = true ∧
        upgradedBy [queryGraphql, subscribeGraphql] "/graphql".toList = some chosen.state := by
  have hs : ([queryGraphql, subscribeGraphql].map RouteInfo.state).Nodup := by decide
  have hmem : subscribeGraphql ∈ [queryGraphql, subscribeGraphql] := by simp
  have hu :
      Upgrades [queryGraphql, subscribeGraphql] "/graphql".toList subscribeGraphql :=
    ⟨by unfold NamesAgree; decide, ⟨⟨_, hmem, rfl, rfl⟩, by decide, by decide⟩,
      ⟨rfl, rfl, [queryGraphql], [], rfl, by simp⟩, .inr (by decide)⟩
  exact ⟨hs, (upgrade_reaches_first_socket_iff hs "/graphql".toList).2
    (fun _ => ⟨_, ⟨rfl, [queryGraphql], [], rfl, by decide⟩, hu⟩)
    ⟨_, hmem, rfl, by decide⟩⟩

/-- A WebSocket route whose path has a `POST` but no `GET` is dropped: the upgrade is
answered with a 405. -/
theorem socket_dropped_by_post :
    subscribeGraphql.axumPath.pattern.accepts '/' "/graphql".toList = true ∧
      answer [mutateGraphql, subscribeGraphql] .get "/graphql".toList =
        .endpoint (.notAllowed [.post]) ∧
      upgradedBy [mutateGraphql, subscribeGraphql] "/graphql".toList = none := by
  decide

end Upgrade

end FastapiTurbo.RouterSockets
