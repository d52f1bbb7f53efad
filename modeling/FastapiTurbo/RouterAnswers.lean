import FastapiTurbo.Lib.Utf8
import FastapiTurbo.RouterDispatch
import Mathlib.Data.List.Nodup

/-! What the table of `build_router` answers, with HTTP and WebSocket routes in it
(`router.rs`): the service of the most specific path, and the state that handles a
request there. -/
namespace FastapiTurbo.RouterAnswers

open Lib RouterTable RouterConflicts List
  RouterDispatch

variable {σ : Type}

section Scope

def hexValue (digit : Char) : Option Nat :=
  "0123456789abcdef".toList.idxOf? digit.toLower

def unquoteToBytes : Path → List UInt8
  | [] => []
  | '%' :: high :: low :: rest =>
    match hexValue high, hexValue low with
    | some high, some low => UInt8.ofNat (16 * high + low) :: unquoteToBytes rest
    | _, _ => utf8 ['%'] ++ unquoteToBytes (high :: low :: rest)
  | char :: rest => utf8 [char] ++ unquoteToBytes rest

/-- `urllib.parse.unquote`, by which ASGI servers make the `path` of a scope. -/
def unquote (path : Path) : Path :=
  decodeLossy (unquoteToBytes path)

end Scope

def httpState : Answer σ → Option σ
  | .endpoint (.http state) => some state
  | .endpoint (.upgrade _ state) => some state
  | _ => none

def socketState : Answer σ → Option σ
  | .endpoint (.upgrade socket _) => some socket
  | .endpoint (.socket socket) => some socket
  | _ => none

def answer (routes : List (RouteInfo σ)) (method : Method) (path : Path) : Answer σ :=
  if (registerAll (buildRouter routes)).isSome then (buildRouter routes).dispatch method path
  else .notFound

def handledBy (routes : List (RouteInfo σ)) (method : Method) (path : Path) : Option σ :=
  httpState (answer routes method path)

def upgradedBy (routes : List (RouteInfo σ)) (path : Path) : Option σ :=
  socketState (answer routes .get path)

def httpRoutes (routes : List (RouteInfo σ)) : List (RouteInfo σ) :=
  routes.filter fun route => !route.isWebsocket

/-- The path of a registered route that accepts the request, where none that does is
more specific. -/
structure MostSpecific (routes : List (RouteInfo σ)) (path : Path) (top : AxumPath) : Prop where
  registered : ∃ route ∈ routes, route.isRegistered = true ∧ route.axumPath = top
  accepts : top.pattern.accepts '/' path = true
  least : ∀ other ∈ routes, other.isRegistered = true →
    other.axumPath.pattern.accepts '/' path = true →
    ¬other.axumPath.pattern.rank < top.pattern.rank

section Table

theorem namesAgree_of_subset {some all : List (RouteInfo σ)} (hs : some ⊆ all)
    (ha : NamesAgree all) : NamesAgree some :=
  fun one hone other ho => ha one (hs hone) other (hs ho)

theorem httpRoutes_subset (routes : List (RouteInfo σ)) : httpRoutes routes ⊆ routes :=
  filter_subset_self routes

variable {routes : List (RouteInfo σ)} {route : RouteInfo σ}

theorem mem_httpRoutes :
    route ∈ httpRoutes routes ↔ route ∈ routes ∧ route.isWebsocket = false := by
  simp [httpRoutes]

variable {path : Path}

theorem MostSpecific.unique (ha : NamesAgree routes) {one other : AxumPath}
    (hone : MostSpecific routes path one) (ho : MostSpecific routes path other) : one = other := by
  obtain ⟨route, hmem, hr, rfl⟩ := hone.registered
  obtain ⟨route', hmem', hregistered', rfl⟩ := ho.registered
  apply ha route hmem route' hmem' hr hregistered'
  apply PathPattern.shape_of_rank hone.accepts ho.accepts
  exact le_antisymm (not_lt.1 (hone.least route' hmem' hregistered' ho.accepts))
    (not_lt.1 (ho.least route hmem hr hone.accepts))

/-- The loop over `by_path`, whose paths are distinct: each entry gets the WebSocket
route of its path, and those of other paths are left. -/
theorem finishAll_eq (order : List (Path × List Method)) (entries : List (PathEntry σ))
    (wsByPath : Dict AxumPath σ) (hn : (entries.map PathEntry.path).Nodup) :
    finishAll order entries wsByPath =
      (entries.map fun entry =>
          (entry.path, finishEntry order (wsByPath.get? entry.path) entry),
        wsByPath.filter fun socket => socket.1 ∉ entries.map PathEntry.path) := by
  induction entries generalizing wsByPath with
  | nil => simp [finishAll]
  | cons entry rest ih =>
    rw [map_cons, nodup_cons] at hn
    rw [finishAll, ih _ hn.2]
    refine Prod.ext ?_ ?_
    · refine congrArg (List.cons _) (map_congr_left fun other hmem => ?_)
      have hne : other.path ≠ entry.path :=
        fun hs => hn.1 (hs ▸ mem_map_of_mem hmem)
      rw [Dict.get?_erase, if_neg hne]
    · simp only [Dict.erase, filter_filter]
      apply filter_congr
      intro socket _
      simp [Bool.and_comm]

theorem register_byPath_of_socket (hs : route.isWebsocket = true) (accum : Accum σ) :
    (accum.register route).byPath = accum.byPath := by
  rw [register_socket hs]

private theorem register_byPath_congr {one other : Accum σ} (hs : one.byPath = other.byPath)
    (hsocket : route.isWebsocket = false) :
    (one.register route).byPath = (other.register route).byPath := by
  cases hr : route.isRegistered with
  | false => rw [register_unknown hr, register_unknown hr, hs]
  | true =>
    rw [register_http hsocket hr, register_http hsocket hr]
    exact congrArg (addRoute route) hs

/-- WebSocket routes leave no mark on `by_path`. -/
theorem byPath_httpRoutes (routes : List (RouteInfo σ)) :
    (accumulate (httpRoutes routes)).byPath = (accumulate routes).byPath := by
  induction routes using List.reverseRecOn with
  | nil => rfl
  | append_singleton routes route ih =>
    rw [accumulate_concat, httpRoutes, filter_append, filter_singleton]
    cases hs : route.isWebsocket with
    | true =>
      rw [register_byPath_of_socket hs, ← ih]
      exact congrArg (fun http => (accumulate http).byPath) (append_nil _)
    | false =>
      refine Eq.trans ?_ (register_byPath_congr ih hs)
      exact congrArg Accum.byPath (accumulate_concat (httpRoutes routes) route)

def declaredOrder (routes : List (RouteInfo σ)) : List (Path × List Method) :=
  routes.map fun route => (route.path, route.methods)

/-- What the radix holds for a path: the entry of an HTTP path with the WebSocket route
that shares it, or the WebSocket route of a path without HTTP routes. -/
inductive Serves (routes : List (RouteInfo σ)) : AxumPath → Service σ → Prop where
  | methods {entry : PathEntry σ} (hentry : entry ∈ (accumulate routes).byPath) :
      Serves routes entry.path (.methods (finishEntry (declaredOrder routes)
        ((accumulate routes).wsByPath.get? entry.path) entry))
  | socket {top : AxumPath} {state : σ} (hsocket : (top, state) ∈ (accumulate routes).wsByPath)
      (hhttp : top ∉ (accumulate routes).byPath.map PathEntry.path) :
      Serves routes top (.socket state)

theorem mem_table_iff (routes : List (RouteInfo σ)) (pat : Pattern) (service : Service σ) :
    (pat, service) ∈ (buildRouter routes).table ↔
      ∃ top : AxumPath, top.pattern = pat ∧ Serves routes top service := by
  have hn := (accumulate_covers routes).nodup_http
  simp only [Routers.table, buildRouter, finishAll_eq _ _ _ hn, mem_append, mem_map,
    mem_filter, Prod.mk.injEq]
  constructor
  · rintro (⟨⟨top, state⟩, ⟨hs, hh⟩, hp, rfl⟩ | ⟨_, ⟨entry, hentry, rfl⟩, hp, rfl⟩)
    · exact ⟨top, hp, .socket hs (by simpa using hh)⟩
    · exact ⟨entry.path, hp, .methods hentry⟩
  · rintro ⟨top, rfl, hserves⟩
    cases hserves with
    | methods hentry => exact .inr ⟨_, ⟨_, hentry, rfl⟩, rfl, rfl⟩
    | socket hs hh => exact .inl ⟨(top, _), ⟨hs, by simpa using hh⟩, rfl, rfl⟩

theorem exists_serves_iff (routes : List (RouteInfo σ)) (top : AxumPath) :
    (∃ service, Serves routes top service) ↔
      ∃ route ∈ routes, route.isRegistered = true ∧ route.axumPath = top := by
  have hn := (accumulate_covers routes).nodup_http
  rw [← mem_inserted_iff, Routers.inserted, mem_append, buildRouter, finishAll_eq _ _ _ hn]
  constructor
  · rintro ⟨service, hserves⟩
    cases hserves with
    | methods hentry => exact .inl (by simpa using ⟨_, hentry, rfl⟩)
    | socket hs hh => exact .inr (by simpa using ⟨⟨_, hs⟩, by simpa using hh⟩)
  · rintro (hh | hws)
    · obtain ⟨entry, hentry, rfl⟩ : ∃ entry ∈ (accumulate routes).byPath, entry.path = top := by
        simpa using hh
      exact ⟨_, .methods hentry⟩
    · obtain ⟨⟨path, state⟩, hmem, rfl⟩ := mem_map.1 hws
      obtain ⟨hs, hh⟩ := mem_filter.1 hmem
      exact ⟨_, .socket hs (of_decide_eq_true hh)⟩

theorem Serves.unique {top : AxumPath} {one other : Service σ} (hone : Serves routes top one)
    (ho : Serves routes top other) : one = other := by
  have hc := accumulate_covers routes
  cases hone with
  | @methods entry hentry =>
    generalize hp : entry.path = path at ho
    cases ho with
    | @methods entry' hentry' =>
      rw [inj_on_of_nodup_map hc.nodup_http hentry hentry' hp]
    | socket _ hh => exact absurd (hp ▸ mem_map_of_mem hentry) hh
  | @socket _ state hs hh =>
    cases ho with
    | methods hentry => exact absurd (mem_map_of_mem hentry) hh
    | @socket _ state' hsocket' _ =>
      have hsame := inj_on_of_nodup_map hc.nodup_ws hs hsocket' rfl
      rw [(Prod.mk.inj hsame).2]

theorem mostSpecific_of_choose {found : Pattern × Service σ}
    (hc : PathPattern.choose '/' (buildRouter routes).table path = some found) :
    ∃ top : AxumPath, MostSpecific routes path top ∧ Serves routes top found.2 := by
  obtain ⟨hmem, ha⟩ := PathPattern.mem_of_choose hc
  obtain ⟨top, hp, hs⟩ := (mem_table_iff routes _ _).1 hmem
  refine ⟨top, ⟨(exists_serves_iff routes top).1 ⟨_, hs⟩, by rwa [hp], ?_⟩, hs⟩
  intro other ho hr hotherPath
  obtain ⟨service, hservice⟩ := (exists_serves_iff routes _).2 ⟨other, ho, hr, rfl⟩
  have hrank := PathPattern.rank_le_of_choose hc
    ((mem_table_iff routes _ _).2 ⟨_, rfl, hservice⟩) hotherPath
  rw [hp]
  exact not_lt.2 hrank

def serviceAnswer (service : Service σ) (method : Method) : Answer σ :=
  match service with
  | .methods router => .endpoint (router.call method)
  | .socket state => .endpoint (.socket state)

theorem answer_of_mostSpecific (ha : NamesAgree routes) {top : AxumPath}
    (htop : MostSpecific routes path top) {service : Service σ} (hs : Serves routes top service)
    (method : Method) : answer routes method path = serviceAnswer service method := by
  obtain ⟨found, hc⟩ := PathPattern.exists_choose
    ((mem_table_iff routes _ _).2 ⟨top, rfl, hs⟩) htop.accepts
  obtain ⟨other, ho, hf⟩ := mostSpecific_of_choose hc
  rw [ho.unique ha htop] at hf
  rw [answer, if_pos ((registerAll_isSome_iff_namesAgree routes).2 ha), Routers.dispatch,
    hc, hs.unique hf]
  cases found with
  | mk pattern service => cases service <;> rfl

theorem answer_cases (routes : List (RouteInfo σ)) (path : Path) :
    (∀ method, answer routes method path = .notFound) ∨
      NamesAgree routes ∧ ∃ top service, MostSpecific routes path top ∧
        Serves routes top service ∧
        ∀ method, answer routes method path = serviceAnswer service method := by
  by_cases ha : NamesAgree routes
  · cases hc : PathPattern.choose '/' (buildRouter routes).table path with
    | none => exact .inl fun method => by simp [answer, Routers.dispatch, hc]
    | some found =>
      obtain ⟨top, htop, hs⟩ := mostSpecific_of_choose hc
      exact .inr ⟨ha, top, found.2, htop, hs, answer_of_mostSpecific ha htop hs⟩
  · refine .inl fun method => ?_
    rw [answer, if_neg fun hsome => ha ((registerAll_isSome_iff_namesAgree routes).1 hsome)]

end Table

section Entry

/-- What an entry keeps besides its declared methods: `GET` has the state that a shared
path is rebuilt around, and a method that axum does not know has no handler. -/
structure Consistent (methodRouter : Dict Method (Endpoint σ)) (getState : Option σ) : Prop where
  get_state : methodRouter.get? .get = getState.map .http
  unsupported : ∀ method : Method, method.supported = false → methodRouter.get? method = none

theorem route_consistent (route : RouteInfo σ) :
    Consistent route.methodRouter route.getState := by
  refine ⟨?_, fun method hm => by simp [get?_methodRouter, hm]⟩
  rw [get?_methodRouter, RouteInfo.getState]
  by_cases hget : .get ∈ route.methods <;> simp [hget, Method.supported]

theorem Consistent.append {one other : Dict Method (Endpoint σ)} {state state' : Option σ}
    (hone : Consistent one state) (ho : Consistent other state') :
    Consistent (one ++ other) (state.or state') := by
  refine ⟨?_, fun method hm => ?_⟩
  · rw [Dict.get?_append, hone.get_state, ho.get_state, Option.map_or]
  · rw [Dict.get?_append, hone.unsupported method hm, ho.unsupported method hm,
      Option.or_none]

variable {routes : List (RouteInfo σ)} {entry : PathEntry σ}

theorem entry_consistent (hentry : entry ∈ (accumulate routes).byPath) :
    Consistent entry.methodRouter entry.getState := by
  induction routes using List.reverseRecOn generalizing entry with
  | nil => simp [accumulate] at hentry
  | append_singleton routes route ih =>
    rw [accumulate_concat] at hentry
    cases hs : route.isWebsocket with
    | true =>
      rw [register_byPath_of_socket hs] at hentry
      exact ih hentry
    | false =>
      cases hr : route.isRegistered with
      | false =>
        rw [register_unknown hr] at hentry
        exact ih hentry
      | true =>
        rw [register_http hs hr] at hentry
        rcases mem_addRoute (accumulate_covers routes).nodup_http hentry with
          ⟨hold, _⟩ | ⟨old, hold, _, rfl⟩ | ⟨_, rfl⟩
        · exact ih hold
        · simp only [PathEntry.add]
          split
          · exact ih hold
          · split
            · exact (ih hold).append (route_consistent route)
            · exact ih hold
        · exact route_consistent route

theorem get?_sharedRouter (declared : List Method) (socket state : σ) (method : Method) :
    (sharedRouter declared socket state).get? method =
      if method = .get then some (.upgrade socket state)
      else if method ∈ declared ∧ method.supported = true then some (.http state)
      else none := by
  have ho (methods : List Method) :
      Dict.get? (methods.map fun method => (method, Endpoint.http state)) method =
        if method ∈ methods then some (.http state) else none := by
    induction methods with
    | nil => rfl
    | cons first rest ih =>
      by_cases hf : first = method
      · simp [Dict.get?, hf]
      · simpa [Dict.get?, hf, Ne.symm hf] using ih
  rw [sharedRouter, Dict.get?_append, ho]
  by_cases hget : method = .get
  · simp [hget, Dict.get?]
  · by_cases hm : method ∈ declared ∧ method.supported = true
    · simp [hget, hm]
    · simp [hget, Dict.get?, Ne.symm hget]

def handlers (socket : Option σ) (entry : PathEntry σ) : Dict Method (Endpoint σ) :=
  match socket, entry.getState with
  | some socket, some state => sharedRouter entry.declared socket state
  | _, _ => entry.methodRouter

variable {method : Method}

theorem handlers_eq_none (hentry : entry ∈ (accumulate routes).byPath) (socket : Option σ)
    (hm : ¬(method ∈ entry.declared ∧ method.supported = true)) :
    (handlers socket entry).get? method = none := by
  have hh := (accumulate_holds routes).entries entry hentry
  have hc := entry_consistent hentry
  have hp : entry.methodRouter.get? method = none := by
    by_cases hd : method ∈ entry.declared
    · exact hc.unsupported method (by simpa [hd] using hm)
    · exact hh.within method hd
  unfold handlers
  split
  next socket state hs =>
    have hget : method ≠ .get := by
      rintro rfl
      rw [hc.get_state, hs] at hp
      simp at hp
    rw [get?_sharedRouter, if_neg hget, if_neg hm]
  next => exact hp

private theorem get?_refusals (declared allow : List Method) (method : Method) :
    (refusals declared allow : Dict Method (Endpoint σ)).get? method = none ∨
      (refusals declared allow : Dict Method (Endpoint σ)).get? method =
        some (.notAllowed allow) := by
  unfold refusals
  split <;> split <;> by_cases hh : .head = method <;> by_cases ho : .options = method <;>
    simp [Dict.get?, hh, ho]

/-- A method that is not declared is refused, be it a `HEAD` of a path with `GET`. -/
theorem call_undeclared (hentry : entry ∈ (accumulate routes).byPath)
    (order : List (Path × List Method))
    (socket : Option σ) (hm : ¬(method ∈ entry.declared ∧ method.supported = true)) :
    (finishEntry order socket entry).call method = .notAllowed (allowHeader order entry) := by
  have he : (finishEntry order socket entry).endpoints =
      handlers socket entry ++ refusals entry.declared (allowHeader order entry) := rfl
  have ha : (finishEntry order socket entry).allow = allowHeader order entry := rfl
  rw [MethodRouter.call, he, ha, Dict.get?_append, handlers_eq_none hentry socket hm,
    Option.none_or]
  rcases get?_refusals (σ := σ) entry.declared (allowHeader order entry) method with hn | hs
  · rw [hn]
    by_cases hh : method = .head
    · subst hh
      have hget : .get ∉ entry.declared := by
        intro hget
        have hh : .head ∉ entry.declared := fun hd => hm ⟨hd, rfl⟩
        simp [refusals, hget, hh, Dict.get?] at hn
      rw [Dict.get?_append, handlers_eq_none hentry socket fun hd => hget hd.1]
      rcases get?_refusals (σ := σ) entry.declared
        (allowHeader order entry) .get with hnone' | hsome'
      · rw [hnone']
        rfl
      · rw [hsome']
        rfl
    · rw [if_neg hh]
  · rw [hs]

theorem call_declared {order : List (Path × List Method)} {socket : Option σ}
    {endpoint : Endpoint σ}
    (hh : (handlers socket entry).get? method = some endpoint) :
    (finishEntry order socket entry).call method = endpoint := by
  have he : (finishEntry order socket entry).endpoints =
      handlers socket entry ++ refusals entry.declared (allowHeader order entry) := rfl
  rw [MethodRouter.call, he, Dict.get?_append, hh]
  rfl

theorem holds_httpRoutes (hentry : entry ∈ (accumulate routes).byPath) :
    EntryHolds (httpRoutes routes) entry :=
  (accumulate_holds (httpRoutes routes)).entries entry (by rwa [byPath_httpRoutes])

/-- Without a WebSocket route, or without a `GET`, a method keeps its own state. -/
theorem httpState_alone (hentry : entry ∈ (accumulate routes).byPath) {socket : Option σ}
    (ha : socket = none ∨ entry.getState = none) (hm : method ∈ entry.declared)
    (hs : method.supported = true) (order : List (Path × List Method)) :
    ∃ chosen, FirstDeclaring (httpRoutes routes) entry.path method chosen ∧
      httpState (.endpoint ((finishEntry order socket entry).call method)) =
        some chosen.state := by
  obtain ⟨chosen, hf, hget⟩ := (holds_httpRoutes hentry).endpoint method hm hs
  have hh : (handlers socket entry).get? method = some (.http chosen.state) := by
    unfold handlers
    split
    next hstate => simp [hstate] at ha
    next => exact hget
  exact ⟨chosen, hf, by rw [call_declared hh]; rfl⟩

/-- On a shared path every method has the state of `GET`. -/
theorem httpState_shared {socket state : σ} (hs : entry.getState = some state)
    (hm : method ∈ entry.declared)
    (hsupported : method.supported = true) (order : List (Path × List Method)) :
    httpState (.endpoint ((finishEntry order (some socket) entry).call method)) =
      some state := by
  have hh : handlers (some socket) entry = sharedRouter entry.declared socket state := by
    simp [handlers, hs]
  by_cases hget : method = .get
  · have hu : (handlers (some socket) entry).get? method = some (.upgrade socket state) := by
      rw [hh, get?_sharedRouter, if_pos hget]
    rw [call_declared hu]
    rfl
  · have hhttp : (handlers (some socket) entry).get? method = some (.http state) := by
      rw [hh, get?_sharedRouter, if_neg hget, if_pos ⟨hm, hsupported⟩]
    rw [call_declared hhttp]
    rfl

variable (he : entry ∈ (accumulate routes).byPath)
include he

theorem getState_of_declared (hget : .get ∈ entry.declared) :
    ∃ getter, FirstDeclaring (httpRoutes routes) entry.path .get getter ∧
      entry.getState = some getter.state := by
  obtain ⟨getter, hf, hg⟩ := (holds_httpRoutes he).endpoint .get hget rfl
  rw [(entry_consistent he).get_state, Option.map_eq_some_iff] at hg
  obtain ⟨s, hs, hsame⟩ := hg
  exact ⟨getter, hf, hs.trans (congrArg some (Endpoint.http.inj hsame))⟩

theorem declared_of_first (hs : method.supported = true) {chosen : RouteInfo σ}
    (hf : FirstDeclaring (httpRoutes routes) entry.path method chosen) :
    method ∈ entry.declared := by
  obtain ⟨earlier, later, hr, hp, _⟩ := hf.first
  have hsocket : chosen.isWebsocket = false :=
    (mem_httpRoutes.1 (hr ▸ mem_append_cons_self)).2
  rw [(holds_httpRoutes he).declared, ← hf.at_path, hr]
  exact mem_takenMethods hsocket hp hf.declares hs later

theorem declared_of_getState {state : σ} (hs : entry.getState = some state) :
    .get ∈ entry.declared := by
  refine Classical.byContradiction fun hget => ?_
  have hn := (holds_httpRoutes he).within .get hget
  rw [(entry_consistent he).get_state, hs] at hn
  simp at hn

end Entry

section Handled

/-- The route of an HTTP table that is due a request: at the most specific path that
accepts it, the first to declare the method. -/
structure Handles (routes : List (RouteInfo σ)) (method : Method) (path : Path)
    (chosen : RouteInfo σ) : Prop where
  agree : NamesAgree routes
  specific : MostSpecific routes path chosen.axumPath
  first : FirstDeclaring routes chosen.axumPath method chosen
  supported : method.supported = true

variable {routes : List (RouteInfo σ)}

theorem firstDeclaring_unique (hh : ∀ route ∈ routes, route.isWebsocket = false) {path : AxumPath}
    {method : Method} {one other : RouteInfo σ} (hone : FirstDeclaring routes path method one)
    (ho : FirstDeclaring routes path method other) : one = other := by
  obtain ⟨earlier, later, hr, hp, hf⟩ := hone.first
  obtain ⟨earlier', later', hroutes', hpartly', hfirst'⟩ := ho.first
  rcases split_cases (hr.symm.trans hroutes') with
    ⟨_, hsame, _⟩ | ⟨between, hb⟩ | ⟨between, hb⟩
  · exact hsame
  · have hs := hfirst' earlier one between hb (hh one (by simp [hr]))
      hone.at_path hone.declares
    simp [hp] at hs
  · have hs := hf earlier' other between hb (hh other (by simp [hroutes']))
      ho.at_path ho.declares
    simp [hpartly'] at hs

theorem isWebsocket_httpRoutes (routes : List (RouteInfo σ)) :
    ∀ route ∈ httpRoutes routes, route.isWebsocket = false :=
  fun _ hmem => (mem_httpRoutes.1 hmem).2

variable {path : Path}

theorem entry_of_handledBy {me : Method} {state : σ} (hh : handledBy routes me path = some state) :
    NamesAgree routes ∧ ∃ entry ∈ (accumulate routes).byPath,
      MostSpecific routes path entry.path ∧ me ∈ entry.declared ∧
      me.supported = true := by
  rcases answer_cases routes path with hn | ⟨ha, top, service, htop, hs, hanswer⟩
  · rw [handledBy, hn] at hh
    simp [httpState] at hh
  · rw [handledBy, hanswer] at hh
    cases hs with
    | socket => simp [serviceAnswer, httpState] at hh
    | @methods entry hentry =>
      refine ⟨ha, entry, hentry, htop, ?_⟩
      refine Classical.byContradiction fun hm => ?_
      rw [serviceAnswer, call_undeclared hentry _ _ hm] at hh
      simp [httpState] at hh

theorem handledBy_of_entry (ha : NamesAgree routes) {entry : PathEntry σ}
    (hentry : entry ∈ (accumulate routes).byPath) (htop : MostSpecific routes path entry.path)
    (method : Method) :
    handledBy routes method path =
      httpState (.endpoint ((finishEntry (declaredOrder routes)
        ((accumulate routes).wsByPath.get? entry.path) entry).call method)) := by
  rw [handledBy, answer_of_mostSpecific ha htop (.methods hentry)]
  rfl

theorem MostSpecific.http {entry : PathEntry σ} (hentry : entry ∈ (accumulate routes).byPath)
    (htop : MostSpecific routes path entry.path) :
    MostSpecific (httpRoutes routes) path entry.path := by
  obtain ⟨route, hmem, hs, hr, hp⟩ :=
    ((accumulate_covers routes).mem_http entry.path).1 (mem_map_of_mem hentry)
  exact ⟨⟨route, mem_httpRoutes.2 ⟨hmem, hs⟩, hr, hp⟩, htop.accepts,
    fun other ho => htop.least other (httpRoutes_subset routes ho)⟩

private theorem httpRoutes_eq_self (hh : ∀ route ∈ routes, route.isWebsocket = false) :
    httpRoutes routes = routes := by
  rw [httpRoutes, filter_eq_self]
  intro route hmem
  simp [hh route hmem]

theorem handledBy_http_iff (hh : ∀ route ∈ routes, route.isWebsocket = false) (method : Method)
    (path : Path) (s : σ) :
    handledBy routes method path = some s ↔
      ∃ chosen, Handles routes method path chosen ∧ chosen.state = s := by
  have hself := httpRoutes_eq_self hh
  have hsockets (top : AxumPath) : (accumulate routes).wsByPath.get? top = none := by
    rw [wsByPath_eq_nil hh]
    rfl
  constructor
  · intro hhandled
    obtain ⟨ha, entry, hentry, htop, hm, hs⟩ := entry_of_handledBy hhandled
    rw [handledBy_of_entry ha hentry htop, hsockets] at hhandled
    obtain ⟨chosen, hf, hstate⟩ := httpState_alone hentry (.inl rfl) hm hs
      (declaredOrder routes)
    rw [hself] at hf
    refine ⟨chosen, ⟨ha, ?_, ?_, hs⟩, Option.some.inj (hstate.symm.trans hhandled)⟩
    · rwa [hf.at_path]
    · rwa [hf.at_path]
  · rintro ⟨chosen, ⟨ha, htop, hf, hs⟩, rfl⟩
    obtain ⟨earlier, later, hr, -⟩ := hf.first
    have hmem : chosen ∈ routes := by simp [hr]
    have hregistered := isHttp_of_declares (hh chosen hmem) hf.declares hs
    obtain ⟨entry, hentry, hp⟩ := mem_map.1
      (((accumulate_covers routes).mem_http chosen.axumPath).2
        ⟨chosen, hmem, hh chosen hmem, by simpa [isHttp, hh chosen hmem] using hregistered, rfl⟩)
    rw [← hp] at htop hf
    have hm : method ∈ entry.declared :=
      declared_of_first hentry hs (by rwa [hself])
    obtain ⟨other, ho, hstate⟩ := httpState_alone hentry (.inl (hsockets entry.path)) hm
      hs (declaredOrder routes)
    rw [hself] at ho
    rw [handledBy_of_entry ha hentry htop, hstate, firstDeclaring_unique hh ho hf]

end Handled

end FastapiTurbo.RouterAnswers
