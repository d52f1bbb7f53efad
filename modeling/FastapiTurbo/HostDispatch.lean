import Mathlib.Data.List.Induction
import FastapiTurbo.MiddlewareWrap

/-! The host dispatcher among the HTTP middlewares of an application (`applications.py`). -/
namespace FastapiTurbo.HostDispatch

open Lib Py MiddlewareWrap List

variable {ρ σ : Type}

inductive Entry (ρ : Type) where
  | dispatcher
  | user (middleware : Middleware ρ)

/-- `@app.middleware("http")`, or `app.host(hostname, app)`. -/
inductive Registration (ρ σ : Type) where
  | middleware (middleware : Middleware ρ)
  | host (hostname : String) (app : Option σ)

structure App (ρ σ : Type) where
  hosts : List (String × Option σ)
  hostDispatcherInstalled : Bool
  httpMiddlewares : List (Entry ρ)

def App.register (app : App ρ σ) : Registration ρ σ → App ρ σ
  | .middleware middleware =>
    { app with httpMiddlewares := app.httpMiddlewares ++ [.user middleware] }
  | .host hostname sub =>
    let hosts := app.hosts ++ [(hostname, sub)]
    if app.hostDispatcherInstalled then { app with hosts }
    else
      { hosts
        hostDispatcherInstalled := true
        httpMiddlewares := .dispatcher :: app.httpMiddlewares }

def App.registering (registrations : List (Registration ρ σ)) : App ρ σ :=
  registrations.foldl App.register ⟨[], false, []⟩

/-- The host that is registered for the `Host` header; `lower` is `str.lower`. -/
def matchHost (lower : List Char → List Char) (hosts : List (String × Option σ))
    (hostHeader : String) : Option σ :=
  if hostHeader.isEmpty then none
  else
    let stripped := lower (hostHeader.toList.takeWhile (· ≠ ':'))
    hosts.findSome? fun entry =>
      let hostname := lower entry.1.toList
      if hostname = stripped ∨
          '.' ∉ hostname ∧ stripped.takeWhile (· ≠ '.') = hostname then entry.2
      else none

variable (lower : List Char → List Char) (dispatch : σ → RequestView → Nat × Result ρ)

/-- `_host_dispatch`; `dispatch` is `_dispatch_to_subapp_route` with its suspensions. -/
def hostDispatch (hosts : List (String × Option σ)) (view : RequestView) : Body ρ :=
  match matchHost lower hosts (hostHeader view.headers) with
  | none => .forwards 0 (fun result => (0, result)) none
  | some sub => .answers (dispatch sub view).1 (dispatch sub view).2

def Entry.middleware (hosts : List (String × Option σ)) : Entry ρ → Middleware ρ
  | .dispatcher => .coroutineFunction (hostDispatch lower dispatch hosts)
  | .user func => func

def App.serve (app : App ρ σ) (runtime : Runtime ρ) (endpoint : Endpoint ρ) (kwargs : Kwargs ρ) :
    Passes ρ :=
  wrapWithHttpMiddlewares runtime endpoint
    (app.httpMiddlewares.map (Entry.middleware lower dispatch app.hosts)) kwargs

/-- The chain of `_make_runner`, the outermost first. -/
def App.nesting (app : App ρ σ) : List (Entry ρ) :=
  app.httpMiddlewares.reverse

def Registration.user? : Registration ρ σ → Option (Entry ρ)
  | .middleware func => some (.user func)
  | .host _ _ => none

/-- The dispatcher is put in front of the list once, and everything else goes behind. -/
theorem httpMiddlewares_registering (regs : List (Registration ρ σ)) :
    (App.registering regs).httpMiddlewares =
        (if (App.registering regs).hostDispatcherInstalled then [.dispatcher] else []) ++
          regs.filterMap Registration.user? ∧
      (App.registering regs).hostDispatcherInstalled =
        !(App.registering regs).hosts.isEmpty := by
  induction regs using List.reverseRecOn with
  | nil => exact ⟨rfl, rfl⟩
  | append_singleton front registration ih =>
    obtain ⟨hl, hinner⟩ := ih
    have hs : App.registering (front ++ [registration]) =
        (App.registering front).register registration := by
      rw [App.registering, foldl_append]
      rfl
    rw [hs]
    cases registration with
    | middleware middleware =>
      exact ⟨by simp [App.register, hl, Registration.user?], hinner⟩
    | host hostname sub =>
      cases hf : (App.registering front).hostDispatcherInstalled <;>
        simp [App.register, hf, hl, Registration.user?]

theorem mem_started_head {runtime : Runtime ρ} {endpoint : Endpoint ρ} {first : Middleware ρ}
    {rest : List (Middleware ρ)} (kwargs : Kwargs ρ) :
    .middleware 0 ∈ started (wrappedSync runtime endpoint (first :: rest) kwargs).events := by
  have hf : .middleware 0 ∈
      started (firstPass runtime endpoint (first :: rest) kwargs).events := by
    unfold firstPass
    cases first with
    | plain result => simp [runChain, started, Event.started]
    | coroutineFunction body | asyncInstance body =>
      rw [runChain]
      unfold sendBody
      split
      · simp [started, Event.started]
      · split <;> simp [started, Event.started]
  have he : ∃ more, (wrappedSync runtime endpoint (first :: rest) kwargs).events =
      (firstPass runtime endpoint (first :: rest) kwargs).events ++ more := by
    unfold wrappedSync
    dsimp only
    split <;> exact ⟨_, rfl⟩
  obtain ⟨more, he⟩ := he
  rw [he, started, filterMap_append]
  exact mem_append_left _ hf

private theorem user?_ne_dispatcher {regs : List (Registration ρ σ)} {entry : Entry ρ}
    (he : entry ∈ regs.filterMap Registration.user?) : entry ≠ .dispatcher := by
  obtain ⟨registration, -, hu⟩ := mem_filterMap.1 he
  cases registration with
  | host hostname sub => cases hu
  | middleware middleware =>
    cases hu
    simp

/-- On a request for a registered host the dispatcher is the outermost function of the chain
exactly if the application has no other middleware, and just then no other one runs. -/
theorem host_dispatcher_outermost_iff (runtime : Runtime ρ) (endpoint : Endpoint ρ)
    {registrations : List (Registration ρ σ)} {kwargs : Kwargs ρ} {sub : σ}
    (hmatch : matchHost lower (App.registering registrations).hosts
      (hostHeader (makeScope kwargs).headers) = some sub) :
    ((App.registering registrations).nesting.head? = some .dispatcher ↔
        registrations.filterMap Registration.user? = []) ∧
      ((∀ index, .middleware index ∈ started
            ((App.registering registrations).serve lower dispatch runtime endpoint kwargs).events →
          (App.registering registrations).nesting[index]? = some .dispatcher) ↔
        registrations.filterMap Registration.user? = []) := by
  obtain ⟨hl, hinner⟩ := httpMiddlewares_registering registrations
  have hho : (App.registering registrations).hosts ≠ [] := by
    intro hnil
    simp [hnil, matchHost] at hmatch
  rw [hinner, if_pos (by simpa using hho)] at hl
  cases hu : (registrations.filterMap Registration.user?).reverse with
  | cons user rest =>
    have hn : (App.registering registrations).nesting = user :: (rest ++ [.dispatcher]) := by
      rw [App.nesting, hl, reverse_append, hu]
      rfl
    have hus : user ≠ .dispatcher :=
      user?_ne_dispatcher (mem_reverse.1 (hu ▸ mem_cons_self))
    have hsome : registrations.filterMap Registration.user? ≠ [] := by
      intro hnil
      simp [hnil] at hu
    refine ⟨by simp [hn, hus, hsome], iff_of_false (fun hall => ?_) hsome⟩
    have hse : (App.registering registrations).serve lower dispatch runtime endpoint kwargs =
        wrappedSync runtime endpoint ((App.registering registrations).nesting.map
          (Entry.middleware lower dispatch (App.registering registrations).hosts)) kwargs := by
      rw [App.serve, App.nesting, map_reverse, hl]
      rfl
    have hh := hall 0 (by
      rw [hse, hn]
      exact mem_started_head kwargs)
    rw [hn] at hh
    exact hus (Option.some.inj hh)
  | nil =>
    rw [reverse_eq_nil_iff] at hu
    rw [hu] at hl
    have hn : (App.registering registrations).nesting = [.dispatcher] := by
      rw [App.nesting, hl]
      rfl
    refine ⟨by simp [hn, hu], iff_of_true (fun index hs => ?_) hu⟩
    have hf : firstPass runtime endpoint [.coroutineFunction
        (hostDispatch lower dispatch (App.registering registrations).hosts)] kwargs =
        ⟨[.middleware 0 (makeScope kwargs).line],
          settleIn (dispatch sub (makeScope kwargs)).1 (dispatch sub (makeScope kwargs)).2⟩ := by
      simp [firstPass, runChain, hostDispatch, hmatch, sendBody]
    -- The fallback shows the dispatcher a request without headers.
    have hsec : ∀ left, started (driveAsyncFallback runtime endpoint left 0 [.coroutineFunction
        (hostDispatch lower dispatch (App.registering registrations).hosts)]).events =
        [.middleware 0, .endpoint] := fun left => rfl
    have hz : index = 0 := by
      rw [App.serve, hl] at hs
      change _ ∈ started (wrappedSync runtime endpoint [.coroutineFunction
        (hostDispatch lower dispatch (App.registering registrations).hosts)] kwargs).events at hs
      unfold wrappedSync at hs
      rw [hf] at hs
      dsimp only at hs
      split at hs
      · simpa [Passes.events, started, Event.started] using hs
      · rw [Passes.events, started, filterMap_append, ← started, ← started, Option.map_some,
          Option.getD_some, hsec] at hs
        simpa [started, Event.started] using hs
    rw [hz, hn]
    rfl

def hostRequest : Kwargs String :=
  [("_request_headers", .headerList [("host", "api.example.com")])]

theorem lone_dispatcher_outermost :
    (App.registering [Registration.host "api" (some ())] : App String Unit).nesting.head? =
      some .dispatcher := by
  have hm : matchHost (·.map Char.toLower) (App.registering [Registration.host "api" (some ())] :
      App String Unit).hosts (hostHeader (makeScope hostRequest).headers) = some () := by
    decide +kernel
  exact (host_dispatcher_outermost_iff (·.map Char.toLower)
    (fun _ _ => (0, .returned .none)) plainRuntime okEndpoint
    hm).1.2 rfl

/-- A middleware that was registered before the host answers in front of the dispatcher. -/
theorem dispatcher_is_innermost :
    let app : App String Unit := App.registering
      [.middleware (.coroutineFunction fun _ => .answers 0 (.returned (.str "blocked"))),
        .host "api" (some ())]
    matchHost (·.map Char.toLower) app.hosts (hostHeader (makeScope hostRequest).headers) =
      some () ∧
      app.nesting.getLast? = some .dispatcher ∧
      (app.serve (·.map Char.toLower) (fun _ _ => (0, .returned .none)) plainRuntime okEndpoint
        hostRequest).final.answer = .finished (.returned (.str "blocked")) :=
  ⟨by decide +kernel, rfl, by decide +kernel⟩

end FastapiTurbo.HostDispatch
