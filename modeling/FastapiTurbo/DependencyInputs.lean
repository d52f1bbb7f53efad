import FastapiTurbo.HandleRequest
import FastapiTurbo.Py
import FastapiTurbo.Lib.Lists

/-! Whether a dependency is called with all of its inputs.  What the dependency
loop has resolved, cached and given up is read off the parameters before it, and
the loop is followed through the list. -/
namespace FastapiTurbo.DependencyInputs

open Lib Py Coercion Extract List
open Introspection HandleRequest

variable {ν χ δ : Type}

section Static

variable (extractor : Extractor ν δ) (buildInjectedObject : InjectedParam → Outcome ν χ)

def Fails (param : FieldParam) : Prop :=
  param.isHandlerParam = false ∧
    ∃ error errors, extractor.extract param = .reject (error :: errors)

def FailedKey (before : List (Param ν χ)) (key : String) : Prop :=
  ∃ param, .field param ∈ before ∧ Fails extractor param ∧ param.name = key

def SourceFailed (before : List (Param ν χ)) (param : DependencyParam ν χ) : Prop :=
  ∃ input ∈ param.inputNames, FailedKey extractor before input.2

def Resolves (before : List (Param ν χ)) : Param ν χ → Prop
  | .dependency param => ¬SourceFailed extractor before param
  | .injected param => param.isHandlerParam = false
  | .field param => param.isHandlerParam = false ∧ ¬Fails extractor param

def Bound (before : List (Param ν χ)) (key : String) : Prop :=
  Somewhere (fun earlier param => param.name = key ∧ Resolves extractor earlier param) before

def CachedId (before : List (Param ν χ)) (id : UInt64) : Prop :=
  Somewhere (fun earlier param => ∃ dep, param = .dependency dep ∧ dep.callableId = some id ∧
    ¬SourceFailed extractor earlier dep) before

/-- The dependency is skipped for an input of its own, it is served from the cache,
or every key that it is wired to holds a value. -/
def Supplied (before : List (Param ν χ)) : Param ν χ → Prop
  | .dependency param =>
    SourceFailed extractor before param ∨
      (∃ id, param.callableId = some id ∧ CachedId extractor before id) ∨
      ∀ input ∈ param.inputNames, Bound extractor before input.2
  | _ => True

def Skipped (before : List (Param ν χ)) (key : String) : Prop :=
  Somewhere (fun earlier param => ∃ dep, param = .dependency dep ∧ dep.name = key ∧
    SourceFailed extractor earlier dep) before

/-- The dependency has a failed input of its own, it is served from the cache, or no
skipped dependency leaves one of its inputs without a value. -/
def Fed (before : List (Param ν χ)) : Param ν χ → Prop
  | .dependency param =>
    SourceFailed extractor before param ∨
      (∃ id, param.callableId = some id ∧ CachedId extractor before id) ∨
      ∀ input ∈ param.inputNames,
        Skipped extractor before input.2 → Bound extractor before input.2
  | _ => True

def Halts : Param ν χ → Prop
  | .injected param =>
    param.isHandlerParam = false ∧ ∃ error, buildInjectedObject param = .raised error
  | _ => False

def NoneFailed (before : List (Param ν χ)) : Prop :=
  ∀ param, .field param ∈ before → ¬Fails extractor param

/-- As far as the loop gets, every dependency is fed, and it is not cut short once an
input has failed. -/
def InputsSupplied (params : List (Param ν χ)) : Prop :=
  Everywhere (fun before param => (∀ other ∈ before, ¬Halts buildInjectedObject other) →
    Fed extractor before param ∧
      (Halts buildInjectedObject param → NoneFailed extractor before)) params

end Static

def Raises (callable : Callable ν χ) (kwargs : Dict String ν) : Prop :=
  match callable with
  | .function call | .coroutine call => ∃ error, call kwargs = .raised error
  | .generator enter => ∃ error, enter kwargs = .raised error

def SafeWhenSupplied : Param ν χ → Prop
  | .dependency param =>
    ∀ kwargs : Dict String ν, (∀ input ∈ param.inputNames, kwargs.contains input.1 = true) →
      ¬Raises param.callable kwargs
  | _ => True

def CallSupplied (call : Invocation ν χ) : Prop :=
  ∀ input ∈ call.param.inputNames, call.resolved.contains input.2 = true

section

variable (extractor : Extractor ν δ) (before : List (Param ν χ))

theorem failedKey_concat (param : Param ν χ) (key : String) :
    FailedKey extractor (before ++ [param]) key ↔
      FailedKey extractor before key ∨
        ∃ fd, param = .field fd ∧ Fails extractor fd ∧ fd.name = key := by
  constructor
  · rintro ⟨fd, hmem, hf⟩
    rcases mem_append.1 hmem with hb | hl
    · exact .inl ⟨fd, hb, hf⟩
    · exact .inr ⟨fd, (mem_singleton.1 hl).symm, hf⟩
  · rintro (⟨fd, hmem, hf⟩ | ⟨fd, rfl, hf⟩)
    · exact ⟨fd, mem_append_left _ hmem, hf⟩
    · exact ⟨fd, by simp, hf⟩

theorem noneFailed_concat (param : Param ν χ) :
    NoneFailed extractor (before ++ [param]) ↔
      NoneFailed extractor before ∧ ∀ fd, param = .field fd → ¬Fails extractor fd := by
  constructor
  · intro hn
    refine ⟨fun fd hmem => hn fd (mem_append_left _ hmem), ?_⟩
    rintro fd rfl
    exact hn fd (by simp)
  · rintro ⟨hb, hl⟩ fd hmem
    rcases mem_append.1 hmem with hmem | hmem
    · exact hb fd hmem
    · exact hl fd (mem_singleton.1 hmem).symm

theorem failedKey_concat_of_not_fails {param : Param ν χ}
    (hp : ∀ fd, param = .field fd → ¬Fails extractor fd)
    (key : String) :
    FailedKey extractor (before ++ [param]) key ↔ FailedKey extractor before key := by
  rw [failedKey_concat]
  refine ⟨?_, .inl⟩
  rintro (hkey | ⟨fd, hs, hf, -⟩)
  · exact hkey
  · exact absurd hf (hp fd hs)

theorem noneFailed_concat_of_not_fails {param : Param ν χ}
    (hp : ∀ fd, param = .field fd → ¬Fails extractor fd) :
    NoneFailed extractor (before ++ [param]) ↔ NoneFailed extractor before := by
  rw [noneFailed_concat]
  exact ⟨And.left, fun hn => ⟨hn, hp⟩⟩

theorem bound_concat (param : Param ν χ) (key : String) :
    Bound extractor (before ++ [param]) key ↔
      Bound extractor before key ∨ param.name = key ∧ Resolves extractor before param :=
  somewhere_concat _ before param

theorem cachedId_concat (param : Param ν χ) (id : UInt64) :
    CachedId extractor (before ++ [param]) id ↔
      CachedId extractor before id ∨ ∃ dep, param = .dependency dep ∧ dep.callableId = some id ∧
        ¬SourceFailed extractor before dep :=
  somewhere_concat _ before param

end

structure Tracks (extractor : Extractor ν δ) (before : List (Param ν χ))
    (state : LoopState ν χ δ) : Prop where
  resolved : ∀ key, state.resolved.contains key = true ↔ Bound extractor before key
  failed : ∀ key, key ∈ state.failedSources ↔ FailedKey extractor before key
  cached : ∀ id, (state.depCache.get? id).isSome = true ↔ CachedId extractor before id
  cacheResolved : ∀ id key, state.depCache.get? id = some key →
    state.resolved.contains key = true
  errors : state.errors = [] ↔ NoneFailed extractor before

theorem tracks_initial (extractor : Extractor ν δ) :
    Tracks extractor ([] : List (Param ν χ)) .initial where
  resolved key := by simp [LoopState.initial, Dict.contains, Bound]
  failed key := by simp [LoopState.initial, FailedKey]
  cached id := by simp [LoopState.initial, Dict.get?, CachedId]
  cacheResolved id key hget := by simp [LoopState.initial, Dict.get?] at hget
  errors := by simp [LoopState.initial, NoneFailed]

section Step

variable {extractor : Extractor ν δ} {before : List (Param ν χ)} {state : LoopState ν χ δ}

variable (ht : Tracks extractor before state)
include ht

theorem Tracks.hasFailedSource_iff (param : DependencyParam ν χ) :
    hasFailedSource state param = true ↔ SourceFailed extractor before param := by
  unfold hasFailedSource SourceFailed
  simp only [any_eq_true, contains_iff_mem, ht.failed]

theorem Tracks.cachedValue_isSome (param : DependencyParam ν χ) :
    (cachedValue state param).isSome = true ↔
      ∃ id, param.callableId = some id ∧ CachedId extractor before id := by
  unfold cachedValue
  cases hid : param.callableId with
  | none => simp
  | some id =>
    cases hkey : state.depCache.get? id with
    | none =>
      have hc := ht.cached id
      simpa [hkey] using hc
    | some key =>
      have hc := ht.cached id
      have hr := ht.cacheResolved id key hkey
      rw [Dict.contains_eq_isSome] at hr
      simpa [hkey, hr] using hc

theorem Tracks.bind (param : Param ν χ) (value : ν) (hr : Resolves extractor before param)
    (hf : ∀ field, param = .field field → ¬Fails extractor field)
    (hdep : ∀ dep id, param = .dependency dep → dep.callableId = some id →
      CachedId extractor before id) :
    Tracks extractor (before ++ [param])
      { state with resolved := state.resolved.set param.name value } where
  resolved key := by
    rw [Dict.contains_set, ht.resolved, bound_concat]
    simp only [hr, and_true, eq_comm, or_comm]
  failed key := by
    rw [failedKey_concat_of_not_fails extractor before hf, ht.failed]
  cached id := by
    rw [ht.cached, cachedId_concat]
    refine ⟨.inl, ?_⟩
    rintro (hid | ⟨dep, hp, hid, -⟩)
    · exact hid
    · exact hdep dep id hp hid
  cacheResolved id key hget := (Dict.contains_set ..).2 (.inr (ht.cacheResolved id key hget))
  errors := by
    rw [noneFailed_concat_of_not_fails extractor before hf, ht.errors]

theorem Tracks.skip (param : Param ν χ) (hr : ¬Resolves extractor before param)
    (hf : ∀ fd, param = .field fd → ¬Fails extractor fd) :
    Tracks extractor (before ++ [param]) state where
  resolved key := by
    rw [ht.resolved, bound_concat]
    simp [hr]
  failed key := by
    rw [failedKey_concat_of_not_fails extractor before hf, ht.failed]
  cached id := by
    rw [ht.cached, cachedId_concat]
    refine ⟨.inl, ?_⟩
    rintro (hid | ⟨dep, rfl, -, hs⟩)
    · exact hid
    · exact absurd hs hr
  cacheResolved := ht.cacheResolved
  errors := by
    rw [noneFailed_concat_of_not_fails extractor before hf, ht.errors]

theorem Tracks.fail (param : FieldParam) (hf : Fails extractor param) (error : δ) (errs : List δ) :
    Tracks extractor (before ++ [.field param])
      { state with
        errors := state.errors ++ error :: errs
        failedSources := param.name :: state.failedSources } where
  resolved key := by
    rw [ht.resolved, bound_concat]
    simp [Resolves, hf]
  failed key := by
    rw [mem_cons, ht.failed, failedKey_concat]
    constructor
    · rintro (rfl | hkey)
      · exact .inr ⟨param, rfl, hf, rfl⟩
      · exact .inl hkey
    · rintro (hkey | ⟨fd, hs, -, rfl⟩)
      · exact .inr hkey
      · cases hs
        exact .inl rfl
  cached id := by
    rw [ht.cached, cachedId_concat]
    simp
  cacheResolved := ht.cacheResolved
  errors := by
    rw [noneFailed_concat]
    simp [hf]

theorem Tracks.called (param : DependencyParam ν χ) (hsource : ¬SourceFailed extractor before param)
    (value : ν) (genDeps : List (LiveGenerator χ)) (calls : List (Invocation ν χ)) :
    Tracks extractor (before ++ [.dependency param])
      { state with
        resolved := state.resolved.set param.name value
        depCache := cacheInsert state.depCache param
        genDeps, calls } where
  resolved key := by
    rw [Dict.contains_set, ht.resolved, bound_concat]
    simp only [Param.name, Resolves, hsource, not_false_eq_true, and_true, eq_comm, or_comm]
  failed key := by
    rw [failedKey_concat_of_not_fails extractor before (by simp), ht.failed]
  cached id := by
    rw [cachedId_concat, ← ht.cached]
    unfold cacheInsert
    cases hid : param.callableId with
    | none => simp [hid]
    | some own =>
      rw [Dict.get?_set]
      by_cases hs : id = own
      · simp [hs, hid, hsource]
      · have hne : own ≠ id := fun h => hs h.symm
        simp [hs, hid, hne]
  cacheResolved id key hget := by
    rw [Dict.contains_set]
    unfold cacheInsert at hget
    cases hid : param.callableId with
    | none =>
      rw [hid] at hget
      exact .inr (ht.cacheResolved id key hget)
    | some own =>
      rw [hid] at hget
      simp only [Dict.get?_set] at hget
      by_cases hs : id = own
      · simp only [hs, if_true, Option.some.injEq] at hget
        exact .inl hget.symm
      · exact .inr (ht.cacheResolved id key (by simpa [hs] using hget))
  errors := by
    rw [noneFailed_concat_of_not_fails extractor before (by simp), ht.errors]

end Step

theorem contains_depKwargs (resolved : Dict String ν) (inputNames : List (String × String))
    (hr : ∀ input ∈ inputNames, resolved.contains input.2 = true) :
    ∀ input ∈ inputNames, (depKwargs resolved inputNames).contains input.1 = true := by
  suffices hf : ∀ kwargs : Dict String ν, ∀ name,
      (kwargs.contains name = true ∨ ∃ input ∈ inputNames, input.1 = name) →
        Dict.contains (inputNames.foldl (bindInput resolved) kwargs) name = true from
    fun input hmem => hf [] input.1 (.inr ⟨input, hmem, rfl⟩)
  induction inputNames with
  | nil => simp
  | cons head rest ih =>
    intro kwargs name hn
    obtain ⟨value, hv⟩ := Option.isSome_iff_exists.1
      (Dict.contains_eq_isSome resolved head.2 ▸ hr head mem_cons_self)
    simp only [foldl_cons, bindInput, hv]
    refine ih (fun input hmem => hr input (mem_cons_of_mem head hmem)) _ name ?_
    rw [Dict.contains_set]
    rcases hn with hk | ⟨input, hmem, rfl⟩
    · exact .inl (.inr hk)
    · rcases mem_cons.1 hmem with rfl | hrest
      · exact .inl (.inl rfl)
      · exact .inr ⟨input, hrest, rfl⟩

theorem callDep_returned (param : DependencyParam ν χ) (kwargs : Dict String ν)
    (genDeps : List (LiveGenerator χ)) (hs : ¬Raises param.callable kwargs) :
    ∃ result, callDep param kwargs genDeps = .returned result := by
  unfold callDep
  cases hc : param.callable with
  | function call | coroutine call =>
    simp only [hc] at hs ⊢
    cases hcall : call kwargs with
    | returned value => exact ⟨_, rfl⟩
    | raised error => exact absurd ⟨error, hcall⟩ hs
  | generator enter =>
    simp only [hc, enterSyncGeneratorDep] at hs ⊢
    cases he : enter kwargs with
    | yielded value generator | returned value => exact ⟨_, rfl⟩
    | raised error => exact absurd ⟨error, he⟩ hs

def AllSupplied (calls : List (Invocation ν χ)) : Prop :=
  ∀ call ∈ calls, CallSupplied call

section Run

variable {extractor : Extractor ν δ} {buildInjectedObject : InjectedParam → Outcome ν χ}
  {before : List (Param ν χ)} {state : LoopState ν χ δ}

/-- The round goes through, and a call that it makes has all its inputs. -/
def Passes (extractor : Extractor ν δ) (before : List (Param ν χ)) (state : LoopState ν χ δ)
    (param : Param ν χ) (round : LoopState ν χ δ × Option (Answer ν χ δ)) : Prop :=
  ∃ next, round = (next, none) ∧ Tracks extractor (before ++ [param]) next ∧
    (AllSupplied state.calls → AllSupplied next.calls)

section

variable (ht : Tracks extractor before state)
include ht

theorem dependencyArm_passes (param : DependencyParam ν χ)
    (hsafe : SafeWhenSupplied (.dependency param))
    (hsupplied : Supplied extractor before (.dependency param)) :
    Passes extractor before state (.dependency param) (dependencyArm state param) := by
  have hf : ∀ fd, Param.dependency param = .field fd → ¬Fails extractor fd := by
    simp
  unfold dependencyArm
  by_cases hs : SourceFailed extractor before param
  · rw [if_pos ((ht.hasFailedSource_iff param).2 hs)]
    exact ⟨state, rfl, ht.skip _ (by simpa [Resolves] using hs) hf, id⟩
  · rw [if_neg (fun h => hs ((ht.hasFailedSource_iff param).1 h))]
    cases hc : cachedValue state param with
    | some value =>
      obtain ⟨own, hid, hown⟩ := (ht.cachedValue_isSome param).1 (by rw [hc]; rfl)
      refine ⟨_, rfl, ht.bind (.dependency param) value hs hf ?_, id⟩
      rintro dep id hsame hdep
      cases hsame
      cases hid.symm.trans hdep
      exact hown
    | none =>
      have hinputs : ∀ input ∈ param.inputNames, state.resolved.contains input.2 = true := by
        rcases hsupplied with hfailed | hhit | hb
        · exact absurd hfailed hs
        · have hsome := (ht.cachedValue_isSome param).2 hhit
          simp [hc] at hsome
        · exact fun input hmem => (ht.resolved input.2).2 (hb input hmem)
      obtain ⟨result, hr⟩ := callDep_returned param _ state.genDeps
        (hsafe _ (contains_depKwargs state.resolved param.inputNames hinputs))
      simp only [hr]
      refine ⟨_, rfl, ht.called param hs result.1 result.2 _, ?_⟩
      intro hcalls call hmem
      rcases mem_append.1 hmem with he | hl
      · exact hcalls call he
      · cases mem_singleton.1 hl
        exact hinputs

theorem injectedArm_passes (param : InjectedParam) (hinput : param.isHandlerParam = false)
    (hb : ¬Halts buildInjectedObject (.injected param)) :
    Passes extractor before state (.injected param)
      (injectedArm buildInjectedObject state param) := by
  unfold injectedArm
  cases hbuild : buildInjectedObject param with
  | raised error => exact absurd ⟨hinput, error, hbuild⟩ hb
  | returned object =>
    exact ⟨_, rfl, ht.bind (.injected param) object hinput (by simp) (by simp), id⟩

private theorem fieldArm_passes (param : FieldParam) (hinput : param.isHandlerParam = false)
    (hs : (.field param : Param ν χ).Settled) :
    Passes extractor before state (.field param) (fieldArm extractor state param) := by
  unfold fieldArm
  rcases hs with hh | ⟨hk, hd⟩
  · simp [hinput] at hh
  · rcases extractor.settles param hk hd with ⟨value, hb⟩ | ⟨error, errors, hr⟩
    · have hp : ¬Fails extractor param := by
        rintro ⟨-, error, errors, hr⟩
        simp [hb] at hr
      rw [hb]
      refine ⟨_, rfl, ht.bind (.field param) value ⟨hinput, hp⟩ ?_ (by simp), id⟩
      rintro fd hsame
      cases hsame
      exact hp
    · rw [hr]
      exact ⟨_, rfl, ht.fail param ⟨hinput, error, errors, hr⟩ error errors, id⟩

theorem loopStep_passes (param : Param ν χ) (hs : param.Settled) (hsafe : SafeWhenSupplied param)
    (hsupplied : Supplied extractor before param) (hg : ¬Halts buildInjectedObject param) :
    Passes extractor before state param
      (loopStep extractor buildInjectedObject state param) := by
  unfold loopStep
  cases param with
  | dependency param => exact dependencyArm_passes ht param hsafe hsupplied
  | injected param =>
    cases hinput : param.isHandlerParam with
    | false => simpa [hinput] using injectedArm_passes ht param hinput hg
    | true =>
      simp only [hinput]
      exact ⟨state, rfl, ht.skip _ (by simp [Resolves, hinput]) (by simp), id⟩
  | field param =>
    cases hinput : param.isHandlerParam with
    | false => simpa [hinput] using fieldArm_passes ht param hinput hs
    | true =>
      have hp : ∀ field, (.field param : Param ν χ) = .field field →
          ¬Fails extractor field := by
        rintro field hsame
        cases hsame
        simp [Fails, hinput]
      simp only [hinput]
      exact ⟨state, rfl, ht.skip _ (by simp [Resolves, hinput]) hp, id⟩

end

private theorem loopStep_calls_subset (param : Param ν χ) :
    state.calls ⊆ (loopStep extractor buildInjectedObject state param).1.calls := by
  cases param with
  | dependency param =>
    simp only [loopStep, dependencyArm]
    split
    · exact List.Subset.refl _
    · split
      · exact List.Subset.refl _
      · split <;> exact subset_append_left _ _
  | injected param =>
    simp only [loopStep, injectedArm]
    split
    · exact List.Subset.refl _
    · split <;> exact List.Subset.refl _
  | field param =>
    simp only [loopStep, fieldArm]
    split
    · exact List.Subset.refl _
    · split <;> exact List.Subset.refl _

theorem resolveParams_calls_subset (params : List (Param ν χ)) (state : LoopState ν χ δ) :
    state.calls ⊆ (resolveParams extractor buildInjectedObject params state).1.calls := by
  induction params generalizing state with
  | nil => exact List.Subset.refl _
  | cons param rest ih =>
    have hs : state.calls ⊆ (loopStep extractor buildInjectedObject state param).1.calls :=
      loopStep_calls_subset param
    unfold resolveParams
    split
    · rename_i hr
      simpa [hr] using hs
    · rename_i next hr
      rw [hr] at hs
      exact List.Subset.trans hs (ih next)

theorem loopStep_calls_unsupplied (buildInjectedObject : InjectedParam → Outcome ν χ)
    (htracks : Tracks extractor before state) (param : Param ν χ)
    (hs : ¬Supplied extractor before param) :
    ∃ call ∈ (loopStep extractor buildInjectedObject state param).1.calls,
      ¬CallSupplied call := by
  cases param with
  | injected param | field param => exact absurd trivial hs
  | dependency param =>
    simp only [Supplied, not_or] at hs
    obtain ⟨hsource, hc, hb⟩ := hs
    have hm : cachedValue state param = none := by
      rw [← Option.not_isSome_iff_eq_none, htracks.cachedValue_isSome]
      exact hc
    refine ⟨⟨param, state.resolved⟩, ?_, ?_⟩
    · simp only [loopStep, dependencyArm]
      rw [if_neg (fun h => hsource ((htracks.hasFailedSource_iff param).1 h)), hm]
      cases callDep param (depKwargs state.resolved param.inputNames) state.genDeps <;> simp
    · intro hcall
      exact hb fun input hmem => (htracks.resolved input.2).1 (hcall input hmem)

end Run

theorem supplied_iff_fed (extractor : Extractor ν δ) (before : List (Param ν χ)) (param : Param ν χ)
    (hw : Wired before param) : Supplied extractor before param ↔ Fed extractor before param := by
  cases param with
  | injected param | field param => exact Iff.rfl
  | dependency param =>
    unfold Supplied Fed
    by_cases hs : SourceFailed extractor before param
    · simp [hs]
    · refine or_congr Iff.rfl (or_congr Iff.rfl (forall₂_congr fun input hmem => ?_))
      refine ⟨fun hb _ => hb, fun hb => ?_⟩
      obtain ⟨source, hbefore, hn, hl⟩ := hw input hmem
      obtain ⟨earlier, after, rfl⟩ := append_of_mem hbefore
      by_cases hr : Resolves extractor earlier source
      · exact ⟨earlier, source, after, rfl, hn, hr⟩
      · cases source with
        | injected other => simp_all [Resolves, Param.isLoopParam]
        | field field =>
          have hf : Fails extractor field := by
            simp only [Resolves, not_and, Param.isLoopParam, Bool.not_eq_true'] at hr hl
            exact Classical.not_not.1 (hr hl)
          exact absurd ⟨input, hmem, field, hbefore, hf, hn⟩ hs
        | dependency dep =>
          exact hb ⟨earlier, .dependency dep, after, rfl, dep, rfl, hn, Classical.not_not.1 hr⟩

def SuppliedFrom (extractor : Extractor ν δ) (buildInjectedObject : InjectedParam → Outcome ν χ)
    (before rest : List (Param ν χ)) : Prop :=
  Everywhere (fun between param => (∀ other ∈ between, ¬Halts buildInjectedObject other) →
    Supplied extractor (before ++ between) param ∧
      (Halts buildInjectedObject param → NoneFailed extractor (before ++ between))) rest

theorem inputsSupplied_iff (extractor : Extractor ν δ)
    (buildInjectedObject : InjectedParam → Outcome ν χ) {params : List (Param ν χ)}
    (hw : Everywhere Wired params) :
    InputsSupplied extractor buildInjectedObject params ↔
      SuppliedFrom extractor buildInjectedObject [] params := by
  refine forall_congr' fun before => forall_congr' fun param => forall_congr' fun after => ?_
  refine imp_congr_right fun hs => imp_congr_right fun _ => ?_
  rw [nil_append, supplied_iff_fed extractor before param (hw before param after hs)]

section Whole

variable {extractor : Extractor ν δ} {buildInjectedObject : InjectedParam → Outcome ν χ}

private theorem suppliedFrom_cons (before : List (Param ν χ)) (param : Param ν χ)
    (rest : List (Param ν χ)) :
    SuppliedFrom extractor buildInjectedObject before (param :: rest) ↔
      (Supplied extractor before param ∧
        (Halts buildInjectedObject param → NoneFailed extractor before)) ∧
      (¬Halts buildInjectedObject param →
        SuppliedFrom extractor buildInjectedObject (before ++ [param]) rest) := by
  unfold SuppliedFrom
  rw [everywhere_cons]
  refine and_congr (by simp) ?_
  constructor
  · intro hr hg between other after hs hb
    have hall := hr between other after hs
    simp only [append_assoc]
    exact hall (by simpa [hg] using hb)
  · intro hr between other after hs hb
    have hg := hb param mem_cons_self
    have hall := hr hg between other after hs
      fun item hmem => hb item (mem_cons_of_mem param hmem)
    simpa only [append_assoc, singleton_append] using hall

theorem resolveParams_supplied_iff (before rest : List (Param ν χ)) (state : LoopState ν χ δ)
    (htracks : Tracks extractor before state) (hc : AllSupplied state.calls)
    (hsettled : ∀ param ∈ rest, param.Settled) (hsafe : ∀ param ∈ rest, SafeWhenSupplied param) :
    AllSupplied (resolveParams extractor buildInjectedObject rest state).1.calls ∧
        ((resolveParams extractor buildInjectedObject rest state).1.errors ≠ [] →
          (resolveParams extractor buildInjectedObject rest state).2 = none) ↔
      SuppliedFrom extractor buildInjectedObject before rest := by
  induction rest generalizing before state with
  | nil => simp [resolveParams, hc, SuppliedFrom, Everywhere]
  | cons param rest ih =>
    rw [suppliedFrom_cons]
    by_cases hh : Halts buildInjectedObject param
    · obtain ⟨answer, hr⟩ : ∃ answer,
          loopStep extractor buildInjectedObject state param = (state, some answer) := by
        cases param with
        | dependency param | field param => exact absurd hh id
        | injected param =>
          obtain ⟨hinput, error, hb⟩ := hh
          exact ⟨.dependencyError error, by simp [loopStep, hinput, injectedArm, hb]⟩
      have hs : Supplied extractor before param := by
        cases param with
        | dependency param => exact absurd hh id
        | field param | injected param => trivial
      simp [resolveParams, hr, hc, hh, hs, ← htracks.errors]
    · simp only [hh, false_implies, not_false_eq_true, true_implies]
      by_cases hs : Supplied extractor before param
      · obtain ⟨next, hr, hn, hm⟩ := loopStep_passes htracks param
          (hsettled param mem_cons_self) (hsafe param mem_cons_self) hs hh
        simp only [resolveParams, hr, hs, true_and]
        exact ih (before ++ [param]) next hn (hm hc)
          (fun other hmem => hsettled other (mem_cons_of_mem param hmem))
          (fun other hmem => hsafe other (mem_cons_of_mem param hmem))
      · simp only [hs, false_and, iff_false, not_and]
        intro hall
        obtain ⟨call, hmem, hcall⟩ :=
          loopStep_calls_unsupplied buildInjectedObject htracks param hs
        refine absurd (hall call ?_) hcall
        unfold resolveParams
        split
        · rename_i hr
          simpa [hr] using hmem
        · rename_i next hr
          rw [hr] at hmem
          exact resolveParams_calls_subset rest next hmem

def inputErrors (extractor : Extractor ν δ) : Param ν χ → List δ
  | .field param =>
    if param.isHandlerParam then []
    else
      match extractor.extract param with
      | .reject errors => errors
      | _ => []
  | _ => []

private theorem loopStep_errors {state next : LoopState ν χ δ} {param : Param ν χ}
    (hr : loopStep extractor buildInjectedObject state param = (next, none)) :
    next.errors = state.errors ++ inputErrors extractor param := by
  cases param with
  | dependency param =>
    simp only [loopStep, dependencyArm] at hr
    split at hr
    · simp_all [inputErrors]
    · split at hr
      · cases hr
        simp [inputErrors]
      · split at hr
        · cases hr
          simp [inputErrors]
        · simp at hr
  | injected param =>
    simp only [loopStep, injectedArm] at hr
    split at hr
    · simp_all [inputErrors]
    · split at hr
      · cases hr
        simp [inputErrors]
      · simp at hr
  | field param =>
    simp only [loopStep, fieldArm] at hr
    cases hinput : param.isHandlerParam with
    | true => simp_all [inputErrors]
    | false =>
      cases he : extractor.extract param with
      | reject errs =>
        cases errs <;> simp_all [inputErrors]
        simp [← hr]
      | _ => simp_all [inputErrors] <;> simp [← hr]

theorem resolveParams_errors (params : List (Param ν χ)) (state : LoopState ν χ δ)
    (hend : (resolveParams extractor buildInjectedObject params state).2 = none) :
    (resolveParams extractor buildInjectedObject params state).1.errors =
      state.errors ++ params.flatMap (inputErrors extractor) := by
  induction params generalizing state with
  | nil => simp [resolveParams]
  | cons param rest ih =>
    unfold resolveParams at hend ⊢
    split at hend
    · simp at hend
    · rename_i next hr
      simp only [ih next hend, loopStep_errors hr, flatMap_cons, append_assoc]

private theorem loopStep_ne_unprocessable (state : LoopState ν χ δ) (param : Param ν χ)
    (details : List δ) :
    (loopStep extractor buildInjectedObject state param).2 ≠ some (.unprocessable details) := by
  cases param with
  | dependency param =>
    simp only [loopStep, dependencyArm]
    split
    · simp
    · split
      · simp
      · split <;> simp
  | injected param =>
    simp only [loopStep, injectedArm]
    split
    · simp
    · split <;> simp
  | field param =>
    simp only [loopStep, fieldArm]
    split
    · simp
    · split <;> simp

private theorem resolveParams_ne_unprocessable (params : List (Param ν χ)) (state : LoopState ν χ δ)
    (details : List δ) :
    (resolveParams extractor buildInjectedObject params state).2 ≠
      some (.unprocessable details) := by
  induction params generalizing state with
  | nil => simp [resolveParams]
  | cons param rest ih =>
    have hs : (loopStep extractor buildInjectedObject state param).2 ≠
        some (.unprocessable details) := loopStep_ne_unprocessable state param details
    unfold resolveParams
    split
    · rename_i hr
      simpa [hr] using hs
    · exact ih _

end Whole

private theorem handleRequest_unprocessable_iff (extractor : Exchange ν χ δ)
    (he : extractor.resolve.1.errors ≠ []) :
    (handleRequest extractor).answer =
        .unprocessable (extractor.params.flatMap (inputErrors extractor.extractor)) ↔
      extractor.resolve.2 = none := by
  unfold handleRequest
  cases hr : extractor.resolve with
  | mk state answer =>
    cases answer with
    | some answer =>
      have ho : extractor.resolve.2 ≠ some (.unprocessable _) :=
        resolveParams_ne_unprocessable extractor.params .initial
          (extractor.params.flatMap (inputErrors extractor.extractor))
      rw [hr] at ho
      simpa [closeAll] using ho
    | none =>
      have hall : extractor.resolve.1.errors =
          extractor.params.flatMap (inputErrors extractor.extractor) :=
        resolveParams_errors extractor.params .initial (congrArg Prod.snd hr)
      rw [hr] at he hall
      simpa [Exchange.callHandler, closeAll, he] using hall

/-- Dependencies are called with all their inputs, and a failed input is answered
with the errors of all of them, exactly if as far as the loop gets no dependency is
called after one that feeds it was skipped, and no framework object fails to build
after a failed input. -/
theorem dependencies_called_with_inputs_iff (exchange : Exchange ν χ δ) (route : Route ν χ)
    (hroute : extractParamsFromRoute route = some exchange.params)
    (hsafe : ∀ param ∈ exchange.params, SafeWhenSupplied param) :
    AllSupplied exchange.resolve.1.calls ∧
        (exchange.resolve.1.errors ≠ [] →
          (handleRequest exchange).answer =
            .unprocessable (exchange.params.flatMap (inputErrors exchange.extractor))) ↔
      InputsSupplied exchange.extractor exchange.buildInjectedObject exchange.params := by
  have hrun : _ ↔ SuppliedFrom exchange.extractor exchange.buildInjectedObject [] exchange.params :=
    resolveParams_supplied_iff [] exchange.params .initial (tracks_initial exchange.extractor)
      (by simp [AllSupplied, LoopState.initial]) (extractParamsFromRoute_settled hroute) hsafe
  rw [inputsSupplied_iff _ _ (extractParamsFromRoute_wired hroute), ← hrun]
  refine and_congr Iff.rfl (imp_congr_right fun he => ?_)
  exact handleRequest_unprocessable_iff exchange he

def typeError (text : String) : PyErr :=
  ⟨["TypeError", "Exception", "BaseException", "object"], text⟩

def identity (argument : String) : Callable Value PyErr :=
  .function fun kwargs =>
    match kwargs.get? argument with
    | some value => .returned value
    | none => .raised (typeError ("missing 1 required positional argument: " ++ argument))

def namedSignature (name : Option String) (call : Callable Value PyErr) (callId : UInt64) :
    Signature Value PyErr where
  name
  call
  callId
  useCache := true
  cacheScopes := []
  scopesHash := 0
  isFunctionScope := false
  requestParam := none
  httpConnectionParam := none
  responseParam := none
  backgroundTasksParam := none
  securityScopesParam := none
  websocketParam := none
  oauthScopes := []
  pathParams := []
  queryParams := []
  headerParams := []
  cookieParams := []
  bodyParams := []

def tokenField : ModelField Value PyErr where
  name := "token"
  typeHint := .str
  required := true
  defaultValue := none
  aliasName := none
  validator := none
  isPlainIntOrStr := false
  builder := none

/-- `def get_user(token: Annotated[str, Depends(get_token)])` with `def get_token(token: str)`:
neither parameter has a default. -/
def userRoute : Route Value PyErr where
  fields := []
  fields_handler := by simp
  specials := []
  specials_handler := by simp
  dependencies := [
    .node (namedSignature (some "user") (identity "token") 1) [
      .node { namedSignature (some "token") (identity "token") 2 with
        queryParams := [tokenField] } []]]

def userExchange (request : Request) : Exchange Value PyErr ErrorDetail where
  params := (extractParamsFromRoute userRoute).getD []
  extractor := singleExtractor (fun _ => none) request
  buildInjectedObject := fun _ => .returned (.atom .none)
  extractFull := .returned []
  injectFrameworkObjects := .returned
  handler := fun kwargs => .returned ((kwargs.get? "user").getD (.atom .none))
  isStreaming := fun _ => false
  fastapiError := typeError ""

private theorem identity_safe (argument : String) (kwargs : Dict String Value)
    (hk : kwargs.contains argument = true) : ¬Raises (identity argument) kwargs := by
  rw [Dict.contains_eq_isSome, Option.isSome_iff_exists] at hk
  obtain ⟨value, hv⟩ := hk
  simp [Raises, identity, hv]

theorem userExchange_safe (request : Request) :
    ∀ param ∈ (userExchange request).params, SafeWhenSupplied param := by
  have hp : (userExchange request).params = [
      .field ((paramFromField tokenField .query (some "_dep0_0__token")).get rfl),
      .dependency ⟨"_dep0_0", identity "token", some 2, [("token", "_dep0_0__token")],
        false, false⟩,
      .dependency ⟨"user", identity "token", some 1, [("token", "_dep0_0")], true, false⟩] := by
    rfl
  rw [hp]
  simp only [mem_cons, not_mem_nil, or_false]
  rintro param (rfl | rfl | rfl)
  · trivial
  · exact fun kwargs hinputs => identity_safe "token" kwargs (hinputs _ mem_cons_self)
  · exact fun kwargs hinputs => identity_safe "token" kwargs (hinputs _ mem_cons_self)

def tokenRequest : Request :=
  { emptyRequest with queryParams := fun name => if name = "token" then some "t" else none }

theorem token_supplies_user :
    extractParamsFromRoute userRoute = some (userExchange tokenRequest).params ∧
      InputsSupplied (userExchange tokenRequest).extractor
        (userExchange tokenRequest).buildInjectedObject (userExchange tokenRequest).params := by
  refine ⟨rfl, ?_⟩
  refine (dependencies_called_with_inputs_iff (userExchange tokenRequest) userRoute rfl
    (userExchange_safe tokenRequest)).1 ⟨?_, fun he => absurd rfl he⟩
  unfold AllSupplied CallSupplied
  decide

/-- Without its token `get_token` is skipped, `get_user` is called without it, and
its exception takes the place of the 422. -/
theorem missing_token_is_masked :
    (∀ param ∈ (userExchange emptyRequest).params, SafeWhenSupplied param) ∧
      (userExchange emptyRequest).resolve.1.errors = [.missing "query" "token"] ∧
      ¬AllSupplied (userExchange emptyRequest).resolve.1.calls ∧
      (handleRequest (userExchange emptyRequest)).answer =
        .dependencyError (typeError "missing 1 required positional argument: token") := by
  refine ⟨userExchange_safe emptyRequest, rfl, ?_, rfl⟩
  unfold AllSupplied CallSupplied
  decide

end FastapiTurbo.DependencyInputs
