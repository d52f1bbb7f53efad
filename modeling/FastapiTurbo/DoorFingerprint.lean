import FastapiTurbo.Lib.Lists
import Mathlib.Data.Finset.Basic
import Mathlib.Data.List.Induction

/-! `_door_fingerprint` (`applications.py`), by which `_ensure_oneshot_registered` tells
whether the routes have changed since the in-process router was built. -/
namespace FastapiTurbo.DoorFingerprint

open Lib List

/-- A router object at a place where it is included.  The object may be included at
several places: `id` tells which it is, and what is registered on it is seen at all of
them.  `edge` is what the routes inherit from the include and from the router; `none`
among the routes is the marker of an included router. -/
inductive Router (ι ρ : Type) where
  | node (id : Nat) (edge : ι) (routes : List (Option ρ)) (lowPriority : Nat)
      (included : List (Router ι ρ))

inductive Change (ι ρ : Type) where
  | route (route : ρ)
  | lowPriority
  | marker
  /-- `include_router`, which goes on without the marker if it cannot build one. -/
  | router (child : Router ι ρ) (marked : Bool)

variable {ι ρ δ : Type}

namespace Router

def id : Router ι ρ → Nat
  | .node id _ _ _ _ => id

def routes : Router ι ρ → List (Option ρ)
  | .node _ _ routes _ _ => routes

def lowPriority : Router ι ρ → Nat
  | .node _ _ _ lowPriority _ => lowPriority

def included : Router ι ρ → List (Router ι ρ)
  | .node _ _ _ _ included => included

end Router

def Change.apply : Change ι ρ → Router ι ρ → Router ι ρ
  | .route added, .node id edge routes low included =>
    .node id edge (routes ++ [some added]) low included
  | .lowPriority, .node id edge routes low included =>
    .node id edge routes (low + 1) included
  | .marker, .node id edge routes low included =>
    .node id edge (routes ++ [none]) low included
  | .router child marked, .node id edge routes low included =>
    .node id edge (if marked then routes ++ [none] else routes) low (included ++ [child])

section Walks

mutual

/-- `_collect_routes_from_router`: the routes with the edges that lead to them. -/
def collectRoutesFromRouter (edges : List ι) : Router ι ρ → List (List ι × ρ)
  | .node _ edge routes _ included =>
    (routes.filterMap (·)).map (fun route => (edges ++ [edge], route)) ++
      collectIncluded (edges ++ [edge]) included

def collectIncluded (edges : List ι) : List (Router ι ρ) → List (List ι × ρ)
  | [] => []
  | child :: rest => collectRoutesFromRouter edges child ++ collectIncluded edges rest

end

mutual

def subCount : Router ι ρ → Nat
  | .node _ _ routes lowPriority included => routes.length + lowPriority + includedCount included

def includedCount : List (Router ι ρ) → Nat
  | [] => 0
  | child :: rest => subCount child + includedCount rest

end

mutual

def occurs (target : Nat) : Router ι ρ → Bool
  | .node id _ _ _ included => id = target || occursIn target included

def occursIn (target : Nat) : List (Router ι ρ) → Bool
  | [] => false
  | child :: rest => occurs target child || occursIn target rest

end

mutual

def update (target : Nat) (change : Change ι ρ) : Router ι ρ → Router ι ρ
  | .node id edge routes lowPriority included =>
    let node := .node id edge routes lowPriority (updateAll target change included)
    if id = target then change.apply node else node

def updateAll (target : Nat) (change : Change ι ρ) : List (Router ι ρ) → List (Router ι ρ)
  | [] => []
  | child :: rest => update target change child :: updateAll target change rest

end

end Walks

structure Mounted (ι ρ δ : Type) where
  routers : List (Router ι ρ)
  added : List δ

structure App (ι ρ δ : Type) where
  router : Router ι ρ
  included : List (Router ι ρ)
  mounts : List (Mounted ι ρ δ)
  httpMiddlewares : Nat
  middlewareStack : Nat
  rawAsgiMiddlewares : Nat
  dependencyOverrides : List Nat
  exceptionHandlers : Nat
  sentryInstalled : Bool

section Collect

variable (describe : List ι → ρ → δ)

def Mounted.collect (mounted : Mounted ι ρ δ) : List δ :=
  ((collectIncluded [] mounted.routers).map fun found => describe found.1 found.2) ++ mounted.added

/-- `_collect_all_routes`.  What is recorded of a route depends on the edges that lead to
it. -/
def collectAllRoutes (app : App ι ρ δ) : List δ :=
  ((collectRoutesFromRouter [] app.router ++ collectIncluded [] app.included).map
      fun found => describe found.1 found.2) ++
    app.mounts.flatMap (Mounted.collect describe)

end Collect

structure Fingerprint where
  routes : Nat
  httpMiddlewares : Nat
  middlewareStack : Nat
  rawAsgiMiddlewares : Nat
  mounts : Nat
  dependencyOverrides : Option (Finset Nat)
  exceptionHandlers : Bool
  sentryInstalled : Bool
  includedCount : Nat
  lowPriorityRoutes : Nat
  deriving DecidableEq

def doorFingerprint (app : App ι ρ δ) : Fingerprint where
  routes := app.router.routes.length
  httpMiddlewares := app.httpMiddlewares
  middlewareStack := app.middlewareStack
  rawAsgiMiddlewares := app.rawAsgiMiddlewares
  mounts := app.mounts.length
  dependencyOverrides := if app.dependencyOverrides = [] then none else
    some app.dependencyOverrides.toFinset
  exceptionHandlers := app.exceptionHandlers ≠ 0
  sentryInstalled := app.sentryInstalled
  includedCount := includedCount app.included
  lowPriorityRoutes := app.router.lowPriority

/-- A registration on a router object, or one of the application's own. -/
inductive Registration (ι ρ δ : Type) where
  | onRouter (target : Nat) (change : Change ι ρ)
  | includeRouter (child : Router ι ρ) (marked : Bool)
  | mount (mounted : Mounted ι ρ δ)
  | httpMiddleware
  | middleware
  | rawAsgiMiddleware
  | exceptionHandler

def Mounted.update (target : Nat) (change : Change ι ρ) (mounted : Mounted ι ρ δ) :
    Mounted ι ρ δ :=
  { mounted with routers := updateAll target change mounted.routers }

namespace App

def onRouter (app : App ι ρ δ) (target : Nat) (change : Change ι ρ) : App ι ρ δ :=
  { app with
    router := update target change app.router
    included := updateAll target change app.included
    mounts := app.mounts.map (Mounted.update target change) }

def register (app : App ι ρ δ) : Registration ι ρ δ → App ι ρ δ
  | .onRouter target change => app.onRouter target change
  | .includeRouter child marked =>
    let app := if marked then app.onRouter app.router.id .marker else app
    { app with included := app.included ++ [child] }
  | .mount mounted => { app with mounts := app.mounts ++ [mounted] }
  | .httpMiddleware => { app with httpMiddlewares := app.httpMiddlewares + 1 }
  | .middleware => { app with middlewareStack := app.middlewareStack + 1 }
  | .rawAsgiMiddleware => { app with rawAsgiMiddlewares := app.rawAsgiMiddlewares + 1 }
  | .exceptionHandler => { app with exceptionHandlers := app.exceptionHandlers + 1 }

def registering (app : App ι ρ δ) (registrations : List (Registration ι ρ δ)) : App ι ρ δ :=
  registrations.foldl register app

end App

/-- The router assembled for an application, with the fingerprint it was built under. -/
structure Assembled (δ : Type) where
  fingerprint : Fingerprint
  routes : List δ

/-- `_ensure_oneshot_registered`: the router that an in-process request runs against. -/
def ensureOneshotRegistered (describe : List ι → ρ → δ) (app : App ι ρ δ)
    (registered : Option (Assembled δ)) : Assembled δ :=
  match registered with
  | some assembled =>
    if assembled.fingerprint = doorFingerprint app then assembled
    else ⟨doorFingerprint app, collectAllRoutes describe app⟩
  | none => ⟨doorFingerprint app, collectAllRoutes describe app⟩

namespace Change

def weight : Change ι ρ → Nat
  | .router child marked => subCount child + if marked then 1 else 0
  | _ => 1

def listed : Change ι ρ → Bool
  | .router _ marked => marked
  | .lowPriority => false
  | _ => true

def silent : Change ι ρ → Bool
  | .route _ => false
  | .router child _ => subCount child = 0
  | _ => true

end Change

def Mounted.occurs (target : Nat) (mounted : Mounted ι ρ δ) : Bool :=
  occursIn target mounted.routers

/-- A registration that brings a route is on a router below one that was included with
`app.include_router`, or on one that is reached neither through `app.router.include_router`
nor through a mount; and if it is `app.router.include_router` itself, it leaves its marker. -/
def Counted (app : App ι ρ δ) : Registration ι ρ δ → Prop
  | .onRouter target change =>
    change.silent = true ∨ occursIn target app.included = true ∨
      occursIn target app.router.included = false ∧
        (∀ mounted ∈ app.mounts, mounted.occurs target = false) ∧
        (app.router.id = target → change.listed = true)
  | _ => True

def tally (app : App ι ρ δ) : Nat :=
  app.router.routes.length + includedCount app.included + app.mounts.length

@[simp] theorem includedCount_concat (routers : List (Router ι ρ)) (child : Router ι ρ) :
    includedCount (routers ++ [child]) = includedCount routers + subCount child := by
  induction routers with
  | nil => simp [includedCount]
  | cons head rest ih => simp [includedCount, ih, Nat.add_assoc]

@[simp] theorem collectIncluded_concat (edges : List ι) (routers : List (Router ι ρ))
    (child : Router ι ρ) :
    collectIncluded edges (routers ++ [child]) =
      collectIncluded edges routers ++ collectRoutesFromRouter edges child := by
  induction routers with
  | nil => simp [collectIncluded]
  | cons head rest ih => simp [collectIncluded, ih]

mutual

theorem collect_of_subCount_eq_zero {router : Router ι ρ} (hc : subCount router = 0)
    (edges : List ι) : collectRoutesFromRouter edges router = [] := by
  match router with
  | .node id edge routes lowPriority included =>
    simp only [subCount, Nat.add_eq_zero_iff, length_eq_zero_iff] at hc
    simp [collectRoutesFromRouter, hc.1.1, collect_of_includedCount_eq_zero hc.2]

theorem collect_of_includedCount_eq_zero {routers : List (Router ι ρ)}
    (hc : includedCount routers = 0) (edges : List ι) : collectIncluded edges routers = [] := by
  match routers with
  | [] => rfl
  | child :: rest =>
    simp only [includedCount, Nat.add_eq_zero_iff] at hc
    simp [collectIncluded, collect_of_subCount_eq_zero hc.1,
      collect_of_includedCount_eq_zero hc.2]

end

section Updates

variable (target : Nat) (change : Change ι ρ)

theorem subCount_apply (router : Router ι ρ) :
    subCount (change.apply router) = subCount router + change.weight := by
  cases router
  cases change with
  | router child marked => cases marked <;> simp [Change.apply, subCount, Change.weight] <;> omega
  | _ =>
    simp [Change.apply, subCount, Change.weight]
    omega

theorem length_routes_apply (router : Router ι ρ) :
    (change.apply router).routes.length =
      router.routes.length + if change.listed then 1 else 0 := by
  cases router
  cases change with
  | router child marked => cases marked <;> simp [Change.apply, Router.routes, Change.listed]
  | _ => simp [Change.apply, Router.routes, Change.listed]

variable {change} in
theorem collect_apply_of_silent (hs : change.silent = true) (edges : List ι) (router : Router ι ρ) :
    collectRoutesFromRouter edges (change.apply router) = collectRoutesFromRouter edges router := by
  cases router
  cases change with
  | route added => simp [Change.silent] at hs
  | lowPriority | marker => simp [Change.apply, collectRoutesFromRouter]
  | router child marked =>
    have hc := collect_of_subCount_eq_zero (by simpa [Change.silent] using hs)
    cases marked <;> simp [Change.apply, collectRoutesFromRouter, hc]

variable {change} in
theorem weight_pos_of_not_silent (hs : change.silent = false) : 0 < change.weight := by
  cases change with
  | router child marked =>
    have hc : subCount child ≠ 0 := by simpa [Change.silent] using hs
    simp only [Change.weight]
    omega
  | _ => simp [Change.weight]

mutual

theorem update_of_not_occurs {router : Router ι ρ} (ho : occurs target router = false) :
    update target change router = router := by
  match router with
  | .node id edge routes lowPriority included =>
    simp only [occurs, Bool.or_eq_false_iff, decide_eq_false_iff_not] at ho
    simp only [update, if_neg ho.1, updateAll_of_not_occurs ho.2]

theorem updateAll_of_not_occurs {routers : List (Router ι ρ)}
    (ho : occursIn target routers = false) : updateAll target change routers = routers := by
  match routers with
  | [] => rfl
  | child :: rest =>
    simp only [occursIn, Bool.or_eq_false_iff] at ho
    simp only [updateAll, update_of_not_occurs ho.1, updateAll_of_not_occurs ho.2]

end

mutual

theorem subCount_update (router : Router ι ρ) :
    subCount router + (if occurs target router then change.weight else 0) ≤
      subCount (update target change router) := by
  match router with
  | .node id edge routes lowPriority included =>
    have hb := includedCount_updateAll included
    by_cases hid : id = target
    · simp only [occurs, update, hid, decide_true, Bool.true_or, if_true, subCount_apply, subCount]
      omega
    · simp only [occurs, update, hid, decide_false, Bool.false_or, if_false, subCount]
      omega

theorem includedCount_updateAll (routers : List (Router ι ρ)) :
    includedCount routers + (if occursIn target routers then change.weight else 0) ≤
      includedCount (updateAll target change routers) := by
  match routers with
  | [] => simp [includedCount, occursIn]
  | child :: rest =>
    have hc := subCount_update child
    have hr := includedCount_updateAll rest
    simp only [includedCount, occursIn, updateAll, Bool.or_eq_true]
    split at hc <;> split at hr <;> simp_all <;> omega

end

private theorem length_routes_update (router : Router ι ρ) :
    (update target change router).routes.length =
      router.routes.length + if router.id = target ∧ change.listed = true then 1 else 0 := by
  cases router with
  | node id edge rs lowPriority included =>
    by_cases hid : id = target
    · subst hid
      simp only [update, if_true, length_routes_apply, Router.id, true_and]
      rfl
    · simp only [update, Router.id, hid]
      rfl

theorem onRouter_tally (app : App ι ρ δ) :
    tally app +
        (if app.router.id = target ∧ change.listed = true then 1 else 0) +
        (if occursIn target app.included then change.weight else 0) ≤
      tally (app.onRouter target change) := by
  have hincluded := includedCount_updateAll target change app.included
  simp only [tally, App.onRouter, length_routes_update, length_map]
  omega

variable {change}

mutual

theorem collect_update_of_silent (hs : change.silent = true) (edges : List ι)
    (router : Router ι ρ) :
    collectRoutesFromRouter edges (update target change router) =
      collectRoutesFromRouter edges router := by
  match router with
  | .node id edge routes lowPriority included =>
    have hb := collect_updateAll_of_silent hs (edges ++ [edge]) included
    simp only [update]
    split
    · simp only [collect_apply_of_silent hs, collectRoutesFromRouter, hb]
    · simp only [collectRoutesFromRouter, hb]

theorem collect_updateAll_of_silent (hs : change.silent = true) (edges : List ι)
    (routers : List (Router ι ρ)) :
    collectIncluded edges (updateAll target change routers) = collectIncluded edges routers := by
  match routers with
  | [] => rfl
  | child :: rest =>
    simp only [updateAll, collectIncluded, collect_update_of_silent hs,
      collect_updateAll_of_silent hs]

end

variable {target}

theorem collect_onRouter_of_silent (describe : List ι → ρ → δ) (hs : change.silent = true)
    (app : App ι ρ δ) :
    collectAllRoutes describe (app.onRouter target change) = collectAllRoutes describe app := by
  have hm : ∀ mounted : Mounted ι ρ δ,
      (mounted.update target change).collect describe = mounted.collect describe := by
    intro mounted
    simp only [Mounted.update, Mounted.collect, collect_updateAll_of_silent _ hs]
  simp only [collectAllRoutes, App.onRouter, collect_update_of_silent _ hs,
    collect_updateAll_of_silent _ hs, flatMap_map, hm]

theorem onRouter_of_not_occurs {app : App ι ρ δ} (hr : occurs target app.router = false)
    (hincluded : occursIn target app.included = false)
    (hm : ∀ mounted ∈ app.mounts, mounted.occurs target = false) :
    app.onRouter target change = app := by
  have hu : app.mounts.map (Mounted.update target change) = app.mounts := by
    refine (map_congr_left fun mounted hmounted => ?_).trans (map_id _)
    simp only [Mounted.update, id, updateAll_of_not_occurs target change (hm _ hmounted)]
  simp only [App.onRouter, update_of_not_occurs _ _ hr, updateAll_of_not_occurs _ _ hincluded, hu]

private theorem occurs_eq_false (router : Router ι ρ) (hid : router.id ≠ target)
    (hincluded : occursIn target router.included = false) : occurs target router = false := by
  cases router
  simp_all [occurs, Router.id, Router.included]

end Updates

section Runs

variable (ds : List ι → ρ → δ) {app : App ι ρ δ}

theorem onRouter_grows {target : Nat} {change : Change ι ρ}
    (hc : Counted app (.onRouter target change)) :
    collectAllRoutes ds (app.onRouter target change) = collectAllRoutes ds app ∨
      tally app < tally (app.onRouter target change) := by
  have hg := onRouter_tally target change app
  cases hs : change.silent with
  | true => exact .inl (collect_onRouter_of_silent ds hs app)
  | false =>
    have hw := weight_pos_of_not_silent hs
    cases hincluded : occursIn target app.included with
    | true =>
      simp only [hincluded, if_true] at hg
      omega
    | false =>
      obtain ⟨hb, hm, hr⟩ : occursIn target app.router.included = false ∧
          (∀ mounted ∈ app.mounts, mounted.occurs target = false) ∧
          (app.router.id = target → change.listed = true) := by
        simpa [Counted, hs, hincluded] using hc
      by_cases hid : app.router.id = target
      · simp only [hid, hr hid, and_self, if_true] at hg
        omega
      · have hsame : app.onRouter target change = app :=
          onRouter_of_not_occurs (occurs_eq_false app.router hid hb) hincluded hm
        rw [hsame]
        exact .inl rfl

/-- `app.include_router` counts the routes of the included router and its marker. -/
theorem includeRouter_tally (app : App ι ρ δ) (child : Router ι ρ) (marked : Bool) :
    tally app + subCount child + (if marked then 1 else 0) ≤
      tally (app.register (.includeRouter child marked)) := by
  have hm := onRouter_tally app.router.id .marker app
  cases marked with
  | true =>
    simp only [Change.listed, and_self] at hm
    simp only [App.register, if_true, tally, includedCount_concat] at hm ⊢
    omega
  | false =>
    simp only [App.register, tally, includedCount_concat, Bool.false_eq_true, if_false]
    omega

private theorem includeRouter_grows (app : App ι ρ δ) (child : Router ι ρ) (marked : Bool) :
    collectAllRoutes ds (app.register (.includeRouter child marked)) =
        collectAllRoutes ds app ∨
      tally app < tally (app.register (.includeRouter child marked)) := by
  have ht := includeRouter_tally app child marked
  cases marked with
  | true =>
    simp only [if_true] at ht
    omega
  | false =>
    -- Without a marker only the routes of the included router are counted.
    by_cases he : subCount child = 0
    · left
      simp [App.register, collectAllRoutes, collect_of_subCount_eq_zero he]
    · omega

theorem register_grows {registration : Registration ι ρ δ} (hc : Counted app registration) :
    collectAllRoutes ds (app.register registration) = collectAllRoutes ds app ∨
      tally app < tally (app.register registration) := by
  cases registration with
  | onRouter target change => exact onRouter_grows ds hc
  | includeRouter child marked => exact includeRouter_grows ds app child marked
  | mount mounted =>
    right
    simp only [App.register, tally, length_append, length_singleton]
    omega
  | _ => exact .inl rfl

theorem register_tally (app : App ι ρ δ) (registration : Registration ι ρ δ) :
    tally app ≤ tally (app.register registration) := by
  cases registration with
  | onRouter target change => exact le_trans (by omega) (onRouter_tally target change app)
  | includeRouter child marked => exact le_trans (by omega) (includeRouter_tally app child marked)
  | mount mounted => simp [App.register, tally]
  | _ => exact le_rfl

theorem registering_concat (app : App ι ρ δ) (before : List (Registration ι ρ δ))
    (registration : Registration ι ρ δ) :
    app.registering (before ++ [registration]) =
      (app.registering before).register registration := by
  simp [App.registering]

private theorem registering_tally (app : App ι ρ δ) (registrations : List (Registration ι ρ δ)) :
    tally app ≤ tally (app.registering registrations) := by
  induction registrations generalizing app with
  | nil => exact le_rfl
  | cons registration rest ih => exact (register_tally app registration).trans (ih _)

theorem registering_grows {registrations : List (Registration ι ρ δ)}
    (hc : Everywhere (fun before => Counted (app.registering before)) registrations) :
    collectAllRoutes ds (app.registering registrations) = collectAllRoutes ds app ∨
      tally app < tally (app.registering registrations) := by
  -- From the end, since the counts only grow.
  induction registrations using List.reverseRecOn with
  | nil => exact .inl rfl
  | append_singleton before registration ih =>
    rw [everywhere_append, everywhere_singleton, append_nil] at hc
    have hm := register_tally (app.registering before) registration
    rw [registering_concat]
    rcases ih hc.1 with hsame | hg
    · rcases register_grows ds hc.2 with hs | hs
      · exact .inl (hs.trans hsame)
      · exact .inr ((registering_tally app before).trans_lt hs)
    · exact .inr (hg.trans_le hm)

end Runs

private theorem tally_of_doorFingerprint {app later : App ι ρ δ}
    (hs : doorFingerprint later = doorFingerprint app) : tally later = tally app := by
  have hr : later.router.routes.length = app.router.routes.length :=
    congrArg Fingerprint.routes hs
  have hincluded : includedCount later.included = includedCount app.included :=
    congrArg Fingerprint.includedCount hs
  have hm : later.mounts.length = app.mounts.length := congrArg Fingerprint.mounts hs
  simp only [tally, hr, hincluded, hm]

/-- In every run of registrations that are all counted, the fingerprint changes whenever the
collected routes do, and the next in-process request runs against the routes as they are. -/
theorem fingerprint_tracks_routes (describe : List ι → ρ → δ) {app : App ι ρ δ}
    {registrations : List (Registration ι ρ δ)}
    (hcounted : Everywhere (fun before => Counted (app.registering before)) registrations) :
    (collectAllRoutes describe (app.registering registrations) ≠ collectAllRoutes describe app →
        doorFingerprint (app.registering registrations) ≠ doorFingerprint app) ∧
      (ensureOneshotRegistered describe (app.registering registrations)
          (some (ensureOneshotRegistered describe app none))).routes =
        collectAllRoutes describe (app.registering registrations) := by
  have ht : doorFingerprint (app.registering registrations) = doorFingerprint app →
      collectAllRoutes describe (app.registering registrations) =
        collectAllRoutes describe app := by
    intro hs
    have hc := tally_of_doorFingerprint hs
    rcases registering_grows describe hcounted with hr | hg
    · exact hr
    · omega
  refine ⟨fun hd hs => hd (ht hs), ?_⟩
  by_cases hf : (ensureOneshotRegistered describe app none).fingerprint =
      doorFingerprint (app.registering registrations)
  · rw [ensureOneshotRegistered, if_pos hf]
    exact (ht hf.symm).symm
  · rw [ensureOneshotRegistered, if_neg hf]

section Inputs

def emptyRouter (id : Nat) : Router String String := .node id "" [] 0 []

def emptyApp : App String String String where
  router := emptyRouter 0
  included := []
  mounts := []
  httpMiddlewares := 0
  middlewareStack := 0
  rawAsgiMiddlewares := 0
  dependencyOverrides := []
  exceptionHandlers := 0
  sentryInstalled := false

def fullPath (edges : List String) (route : String) : String := String.join edges ++ route

end Inputs

/-- `app.include_router(sub)`, then a route on `sub`. -/
theorem late_route_on_included_router :
    (ensureOneshotRegistered fullPath
        (emptyApp.registering [.includeRouter (emptyRouter 1) true, .onRouter 1 (.route "/late")])
        (some (ensureOneshotRegistered fullPath emptyApp none))).routes =
      collectAllRoutes fullPath
        (emptyApp.registering
          [.includeRouter (emptyRouter 1) true, .onRouter 1 (.route "/late")]) := by
  refine (fingerprint_tracks_routes fullPath ?_).2
  simp only [everywhere_cons, everywhere_nil, and_true]
  exact ⟨trivial, .inr (.inl (by decide))⟩

/-- The same with `app.router.include_router(sub)`: the late route is collected, but the
fingerprint stays and the request runs against the router without it. -/
theorem late_route_below_root_router_missed :
    let app := emptyApp.register (.onRouter 0 (.router (emptyRouter 1) true))
    let later := app.register (.onRouter 1 (.route "/late"))
    collectAllRoutes fullPath app = [] ∧ collectAllRoutes fullPath later = ["/late"] ∧
      doorFingerprint later = doorFingerprint app ∧
      (ensureOneshotRegistered fullPath later
          (some (ensureOneshotRegistered fullPath app none))).routes = [] := by
  decide

end FastapiTurbo.DoorFingerprint
