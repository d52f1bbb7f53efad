import Mathlib.Data.List.Induction

/-! The nesting of middlewares that Tower layers stand for: `apply_middlewares`
(`server.rs`) wraps the router in them, and beside a raw ASGI middleware
`_asgi_oneshot_http_with_mw` (`applications.py`) composes their Starlette classes
instead. -/
namespace FastapiTurbo.MiddlewareNesting

open List

variable {κ : Type}

inductive TowerType where
  | cors
  | gzip
  | compress
  | trustedhost
  | httpsredirect
  | other (name : String)
  deriving DecidableEq

/-- A registration that `add_middleware` takes for a Tower layer. -/
structure Registration (κ : Type) where
  towerType : TowerType
  options : κ
  deriving DecidableEq

/-- An element of `_mw_registration_log`.  A raw middleware is a class whose constructor
takes an `app`. -/
inductive LogEntry (κ : Type) where
  | tower (registration : Registration κ)
  | raw

structure App (κ : Type) where
  middlewareStack : List (Registration κ)
  rawAsgiMiddlewares : Nat
  registrationLog : List (LogEntry κ)

def App.addMiddleware (app : App κ) (entry : LogEntry κ) : App κ :=
  let log := app.registrationLog ++ [entry]
  match entry with
  | .tower registration =>
    { app with
      middlewareStack := app.middlewareStack ++ [registration]
      registrationLog := log }
  | .raw => { app with rawAsgiMiddlewares := app.rawAsgiMiddlewares + 1, registrationLog := log }

def App.registering (entries : List (LogEntry κ)) : App κ :=
  entries.foldl App.addMiddleware ⟨[], 0, []⟩

section Layers

/-- A layer of the router: that of a middleware, or the one that `apply_middlewares`
puts around it to bring the response in line with Starlette's. -/
inductive Layer (κ : Type) where
  | middleware (registration : Registration κ)
  | companion (registration : Registration κ)

def buildMiddlewareConfig (stack : List (Registration κ)) : List (Registration κ) :=
  stack.filter fun registration => registration.towerType ≠ .other ""

def TowerType.isKnown : TowerType → Bool
  | .other _ => false
  | _ => true

/-- `parse_middleware_configs`, which skips the types that it does not know. -/
def parseMiddlewareConfigs (configs : List (Registration κ)) : List (Registration κ) :=
  configs.filter fun config => config.towerType.isKnown

def layersOf (config : Registration κ) : List (Layer κ) :=
  match config.towerType with
  | .cors | .gzip | .compress => [.companion config, .middleware config]
  | _ => [.middleware config]

/-- `apply_middlewares`: the layers around the router, the outermost first. -/
def applyMiddlewares (configs : List (Registration κ)) : List (Layer κ) :=
  configs.reverse.foldl (fun app config => layersOf config ++ app) []

def Layer.registration? : Layer κ → Option (Registration κ)
  | .middleware registration => some registration
  | .companion _ => none

/-- The middlewares of an application that is served on its own layers, the outermost
first. -/
def towerNesting (app : App κ) : List (Registration κ) :=
  (applyMiddlewares (parseMiddlewareConfigs (buildMiddlewareConfig app.middlewareStack))).filterMap
    Layer.registration?

end Layers

section Mixed

/-- `_resolve_tower_bound_to_asgi_class` finds a class. -/
def TowerType.isSubstituted : TowerType → Bool
  | .cors | .gzip | .httpsredirect => true
  | _ => false

def LogEntry.registration? : LogEntry κ → Option (Registration κ)
  | .tower registration => some registration
  | .raw => none

def App.doorHasTowerRawMix (app : App κ) : Bool :=
  app.rawAsgiMiddlewares ≠ 0 && app.registrationLog.any (·.registration?.isSome)

def LogEntry.isOuter : LogEntry κ → Bool
  | .tower registration => registration.towerType.isSubstituted
  | .raw => true

def App.doorOuterMwList (app : App κ) : List (LogEntry κ) :=
  if app.doorHasTowerRawMix then app.registrationLog.filter LogEntry.isOuter else []

variable (accepts : Registration κ → Bool)

/-- The loop of `_asgi_oneshot_http_with_mw` around what is composed already.  `accepts`
tells whether the class takes the options of its registration; if not, the second
attempt fails as well, for want of an `app`. -/
def composeFrom (composed : List (LogEntry κ)) : List (LogEntry κ) → Option (List (LogEntry κ))
  | [] => some composed
  | .raw :: rest => composeFrom (.raw :: composed) rest
  | .tower registration :: rest =>
    if accepts registration then composeFrom (.tower registration :: composed) rest else none

/-- The Tower-bound middlewares in the outer chain of the in-process door, the outermost
first; `none` where the chain cannot be built. -/
def mixedNesting (app : App κ) : Option (List (Registration κ)) :=
  (composeFrom accepts [] app.doorOuterMwList).map (·.filterMap LogEntry.registration?)

end Mixed

section Compare

theorem registering_eq (entries : List (LogEntry κ)) :
    App.registering entries =
      ⟨entries.filterMap LogEntry.registration?, entries.countP (·.registration?.isNone),
        entries⟩ := by
  induction entries using List.reverseRecOn with
  | nil => rfl
  | append_singleton entries entry ih =>
    rw [App.registering, foldl_append]
    change (App.registering entries).addMiddleware entry = _
    rw [ih]
    cases entry <;> simp [App.addMiddleware, LogEntry.registration?]

private theorem registration?_applyMiddlewares (configs : List (Registration κ)) :
    (applyMiddlewares configs).filterMap Layer.registration? = configs := by
  have hl (config : Registration κ) :
      (layersOf config).filterMap Layer.registration? = [config] := by
    unfold layersOf
    split <;> rfl
  have hf (wrapped : List (Layer κ)) (rest : List (Registration κ)) :
      (rest.reverse.foldl (fun app config => layersOf config ++ app) wrapped).filterMap
          Layer.registration? = rest ++ wrapped.filterMap Layer.registration? := by
    induction rest generalizing wrapped with
    | nil => rfl
    | cons config rest ih =>
      rw [reverse_cons, foldl_append, foldl_cons, foldl_nil, filterMap_append, hl, ih]
      rfl
  rw [applyMiddlewares, hf]
  exact append_nil configs

theorem towerNesting_registering (entries : List (LogEntry κ)) :
    towerNesting (App.registering entries) =
      (entries.filterMap LogEntry.registration?).filter (·.towerType.isKnown) := by
  rw [towerNesting, registration?_applyMiddlewares, registering_eq, parseMiddlewareConfigs,
    buildMiddlewareConfig, filter_filter]
  apply filter_congr
  intro registration _
  cases ht : registration.towerType <;> simp [TowerType.isKnown]

theorem composeFrom_eq (accepts : Registration κ → Bool) (composed entries : List (LogEntry κ)) :
    composeFrom accepts composed entries =
      if (entries.filterMap LogEntry.registration?).all accepts then
        some (entries.reverse ++ composed)
      else none := by
  induction entries generalizing composed with
  | nil => rfl
  | cons entry rest ih =>
    cases entry with
    | raw => simp [composeFrom, ih, LogEntry.registration?]
    | tower registration =>
      cases ha : accepts registration <;>
        simp [composeFrom, ih, LogEntry.registration?, ha]

theorem registration?_filter_isOuter (entries : List (LogEntry κ)) :
    (entries.filter LogEntry.isOuter).filterMap LogEntry.registration? =
      (entries.filterMap LogEntry.registration?).filter (·.towerType.isSubstituted) := by
  induction entries with
  | nil => rfl
  | cons entry rest ih =>
    cases entry with
    | raw =>
      rw [filter_cons_of_pos rfl, filterMap_cons_none rfl, filterMap_cons_none rfl, ih]
    | tower registration =>
      cases hs : registration.towerType.isSubstituted <;>
        simpa [LogEntry.isOuter, LogEntry.registration?, hs] using ih

def withRaw (before after : List (Registration κ)) : List (LogEntry κ) :=
  before.map .tower ++ .raw :: after.map .tower

theorem registration?_map_tower (registrations : List (Registration κ)) :
    (registrations.map LogEntry.tower).filterMap LogEntry.registration? = registrations := by
  rw [filterMap_map]
  exact filterMap_some

private theorem registration?_withRaw (before after : List (Registration κ)) :
    (withRaw before after).filterMap LogEntry.registration? = before ++ after := by
  rw [withRaw, filterMap_append, registration?_map_tower,
    filterMap_cons_none rfl, registration?_map_tower]

theorem mixedNesting_withRaw (accepts : Registration κ → Bool)
    (before after : List (Registration κ)) :
    mixedNesting accepts (App.registering (withRaw before after)) =
      if ((before ++ after).filter (·.towerType.isSubstituted)).all accepts then
        some ((before ++ after).filter (·.towerType.isSubstituted)).reverse
      else none := by
  by_cases he : before ++ after = []
  · obtain ⟨rfl, rfl⟩ := append_eq_nil_iff.1 he
    rfl
  · have hmix : (App.registering (withRaw before after)).doorHasTowerRawMix = true := by
      have ht : ((withRaw before after).any (·.registration?.isSome)) = true := by
        obtain ⟨registration, hmem⟩ := exists_mem_of_ne_nil _ he
        rw [← registration?_withRaw, mem_filterMap] at hmem
        obtain ⟨entry, hentry, hr⟩ := hmem
        exact any_eq_true.2 ⟨entry, hentry, by simp [hr]⟩
      have hraw : LogEntry.raw ∈ withRaw before after := by simp [withRaw]
      have hc : (withRaw before after).countP (·.registration?.isNone) ≠ 0 := by
        rw [← Nat.pos_iff_ne_zero, countP_pos_iff]
        exact ⟨.raw, hraw, rfl⟩
      simp [App.doorHasTowerRawMix, registering_eq, ht, hc]
    have hl : (App.registering (withRaw before after)).doorOuterMwList =
        (withRaw before after).filter LogEntry.isOuter := by
      rw [App.doorOuterMwList, if_pos hmix, registering_eq]
    have hs := registration?_filter_isOuter (withRaw before after)
    rw [registration?_withRaw] at hs
    rw [mixedNesting, hl, composeFrom_eq, hs]
    split
    · rw [Option.map_some, append_nil, filterMap_reverse, hs]
    · rfl

theorem isKnown_of_isSubstituted {towerType : TowerType}
    (hs : towerType.isSubstituted = true) : towerType.isKnown = true := by
  cases towerType <;> simp_all [TowerType.isSubstituted, TowerType.isKnown]

private theorem reverse_substituted_eq_iff (registrations : List (Registration κ)) :
    (registrations.filter (·.towerType.isSubstituted)).reverse =
        registrations.filter (·.towerType.isKnown) ↔
      (∀ registration ∈ registrations, registration.towerType.isKnown = true →
        registration.towerType.isSubstituted = true) ∧
      (registrations.filter (·.towerType.isKnown)).reverse =
        registrations.filter (·.towerType.isKnown) := by
  have hw : registrations.filter (·.towerType.isSubstituted) =
      (registrations.filter (·.towerType.isKnown)).filter (·.towerType.isSubstituted) := by
    rw [filter_filter]
    apply filter_congr
    intro registration _
    cases hs : registration.towerType.isSubstituted with
    | false => simp
    | true => simp [isKnown_of_isSubstituted hs]
  constructor
  · intro hr
    -- nothing is left out, since as many are composed as there are layers
    have hl : ((registrations.filter (·.towerType.isKnown)).filter
        (·.towerType.isSubstituted)).length =
        (registrations.filter (·.towerType.isKnown)).length := by
      rw [← hw, ← length_reverse, hr]
    have hall := length_filter_eq_length_iff.1 hl
    refine ⟨fun registration hmem hknown => hall registration (mem_filter.2 ⟨hmem, hknown⟩), ?_⟩
    have hk := filter_eq_self.2 hall
    rw [← hk, ← hw, hr, hw, hk]
  · rintro ⟨hall, hp⟩
    have hk : registrations.filter (·.towerType.isSubstituted) =
        registrations.filter (·.towerType.isKnown) := by
      rw [hw, filter_eq_self]
      intro registration hmem
      exact hall registration (mem_filter.1 hmem).1 (mem_filter.1 hmem).2
    rw [hk, hp]

/-- A raw middleware leaves the nesting of the others as it is exactly if every layer has
a Starlette class, the classes take their options, and the layers read the same from
the outside in as from the inside out. -/
theorem mixed_nesting_agrees_iff (accepts : Registration κ → Bool)
    (before after : List (Registration κ)) :
    mixedNesting accepts (App.registering (withRaw before after)) =
        some (towerNesting (App.registering ((before ++ after).map .tower))) ↔
      (∀ registration ∈ before ++ after, registration.towerType.isKnown = true →
        registration.towerType.isSubstituted = true ∧ accepts registration = true) ∧
      ((before ++ after).filter (·.towerType.isKnown)).reverse =
        (before ++ after).filter (·.towerType.isKnown) := by
  rw [mixedNesting_withRaw, towerNesting_registering, registration?_map_tower]
  generalize before ++ after = registrations
  have hr := reverse_substituted_eq_iff registrations
  constructor
  · intro hsame
    split at hsame
    next ha =>
      obtain ⟨hall, hp⟩ := hr.1 (Option.some.inj hsame)
      refine ⟨fun registration hmem hk => ?_, hp⟩
      have hs := hall registration hmem hk
      exact ⟨hs, all_eq_true.1 ha registration
        (mem_filter.2 ⟨hmem, hs⟩)⟩
    next => simp at hsame
  · rintro ⟨hall, hp⟩
    have ha : (registrations.filter (·.towerType.isSubstituted)).all accepts = true := by
      rw [all_eq_true]
      intro registration hmem
      obtain ⟨hmem, hs⟩ := mem_filter.1 hmem
      exact (hall registration hmem (isKnown_of_isSubstituted hs)).2
    rw [if_pos ha, hr.2 ⟨fun registration hmem hk =>
      (hall registration hmem hk).1, hp⟩]

def corsThenGzip : List (Registration Unit) :=
  [⟨.cors, ()⟩, ⟨.gzip, ()⟩]

/-- CORS and then GZip: CORS is the outer one of the two layers, and the inner one
beside a raw middleware. -/
theorem raw_middleware_swaps_layers :
    towerNesting (App.registering (corsThenGzip.map .tower)) = [⟨.cors, ()⟩, ⟨.gzip, ()⟩] ∧
      mixedNesting (fun _ => true) (App.registering (withRaw corsThenGzip [])) =
        some [⟨.gzip, ()⟩, ⟨.cors, ()⟩] := by
  decide

end Compare

end FastapiTurbo.MiddlewareNesting
