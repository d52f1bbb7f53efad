import FastapiTurbo.RouterTable
import Mathlib.Data.List.Pairwise

/-! The insertion of the converted paths into axum's routers, which panics where two of
them differ in nothing but the names of their parameters. -/
namespace FastapiTurbo.RouterConflicts

open Lib RouterTable List

variable {σ : Type}

def insertPath (router : List AxumPath) (path : AxumPath) : Option (List AxumPath) :=
  if router.any fun other => other.shape = path.shape then none
  else some (router ++ [path])

def insertAll : List AxumPath → List AxumPath → Option (List AxumPath)
  | router, [] => some router
  | router, path :: rest => (insertPath router path).bind fun router => insertAll router rest

/-- The two routers are filled one after the other, and the first is merged into the
second. -/
def registerAll (routers : Routers σ) : Option (List AxumPath) :=
  (insertAll [] (routers.http.map Prod.fst)).bind fun http =>
    (insertAll [] (routers.ws.map Prod.fst)).bind fun ws => insertAll ws http

def Compatible (paths : List AxumPath) : Prop :=
  paths.Pairwise fun one other => one.shape ≠ other.shape

theorem compatible_append_comm (one other : List AxumPath) :
    Compatible (one ++ other) ↔ Compatible (other ++ one) :=
  pairwise_append_comm fun hne => hne.symm

theorem insertAll_eq {router paths result : List AxumPath}
    (hinsert : insertAll router paths = some result) : result = router ++ paths := by
  induction paths generalizing router with
  | nil => simpa [insertAll, eq_comm] using hinsert
  | cons path rest ih =>
    obtain ⟨next, hn, hr⟩ := Option.bind_eq_some_iff.1 hinsert
    unfold insertPath at hn
    split at hn
    · simp at hn
    · rw [ih hr, ← Option.some.inj hn, append_assoc]
      rfl

private theorem insertAll_isSome_iff (router paths : List AxumPath) (hr : Compatible router) :
    (insertAll router paths).isSome = true ↔ Compatible (router ++ paths) := by
  induction paths generalizing router with
  | nil => simpa [insertAll] using hr
  | cons path rest ih =>
    unfold insertAll insertPath
    split
    next hc =>
      obtain ⟨other, hmem, hs⟩ := any_eq_true.1 hc
      have hnot : ¬Compatible (router ++ path :: rest) := fun hp =>
        (pairwise_append.1 hp).2.2 other hmem path mem_cons_self
          (of_decide_eq_true hs)
      simp [hnot]
    next hn =>
      have hnext : Compatible (router ++ [path]) := by
        refine pairwise_append.2 ⟨hr, by simp, fun other hmem new hnew hs => hn ?_⟩
        rw [mem_singleton.1 hnew] at hs
        exact any_eq_true.2 ⟨other, hmem, decide_eq_true hs⟩
      rw [Option.bind_some, ih (router ++ [path]) hnext, append_assoc]
      rfl

theorem registerAll_isSome_iff (routers : Routers σ) :
    (registerAll routers).isSome = true ↔ Compatible routers.inserted := by
  have hh := insertAll_isSome_iff [] (routers.http.map Prod.fst) .nil
  have hws := insertAll_isSome_iff [] (routers.ws.map Prod.fst) .nil
  rw [nil_append] at hh hws
  unfold registerAll Routers.inserted
  rw [compatible_append_comm]
  cases hinsert : insertAll [] (routers.http.map Prod.fst) with
  | none =>
    rw [hinsert] at hh
    have hnot : ¬Compatible (routers.ws.map Prod.fst ++ routers.http.map Prod.fst) :=
      fun hall => Bool.noConfusion (hh.2 (pairwise_append.1 hall).2.1)
    simp [hnot]
  | some http =>
    cases hm : insertAll [] (routers.ws.map Prod.fst) with
    | none =>
      rw [hm] at hws
      have hnot : ¬Compatible (routers.ws.map Prod.fst ++ routers.http.map Prod.fst) :=
        fun hall => Bool.noConfusion (hws.2 (pairwise_append.1 hall).1)
      simp [hnot]
    | some ws =>
      rw [hm] at hws
      rw [Option.bind_some, Option.bind_some, insertAll_eq hinsert, insertAll_eq hm,
        nil_append, nil_append]
      exact insertAll_isSome_iff _ _ (hws.1 rfl)

def SameRequests (one other : AxumPath) : Prop :=
  ∀ request, one.pattern.accepts '/' request = other.pattern.accepts '/' request

private theorem exists_other_char (char : Char) : ∃ other, other ≠ char ∧ other ≠ '/' := by
  by_cases hc : char = 'a'
  · exact ⟨'b', by rw [hc]; decide, by decide⟩
  · exact ⟨'a', fun hs => hc hs.symm, by decide⟩

theorem sameRequests_iff (one other : AxumPath) :
    SameRequests one other ↔ one.shape = other.shape :=
  ⟨PathPattern.shape_of_accepts exists_other_char one.separated other.separated,
    fun hs request => PathPattern.accepts_of_shape hs request⟩

/-- Routes whose paths differ only in the names of parameters do not differ at all. -/
def NamesAgree (routes : List (RouteInfo σ)) : Prop :=
  ∀ one ∈ routes, ∀ other ∈ routes, one.isRegistered = true → other.isRegistered = true →
    one.axumPath.shape = other.axumPath.shape → one.axumPath = other.axumPath

theorem forall_inserted_iff (routes : List (RouteInfo σ)) :
    (∀ one ∈ (buildRouter routes).inserted, ∀ other ∈ (buildRouter routes).inserted,
      one.shape = other.shape → one = other) ↔ NamesAgree routes := by
  constructor
  · intro hall one hone other ho honeReg hotherReg
    exact hall _ ((mem_inserted_iff routes _).2 ⟨one, hone, honeReg, rfl⟩) _
      ((mem_inserted_iff routes _).2 ⟨other, ho, hotherReg, rfl⟩)
  · intro hn path hp path' hpath'
    obtain ⟨one, hone, honeReg, rfl⟩ := (mem_inserted_iff routes path).1 hp
    obtain ⟨other, ho, hotherReg, rfl⟩ := (mem_inserted_iff routes path').1 hpath'
    exact hn one hone other ho honeReg hotherReg

theorem compatible_iff_of_nodup {paths : List AxumPath} (hn : paths.Nodup) :
    Compatible paths ↔ ∀ one ∈ paths, ∀ other ∈ paths,
      one.shape = other.shape → one = other := by
  constructor
  · intro hc one hone other ho hs
    have hsymm : Std.Symm fun one other : AxumPath => one.shape ≠ other.shape :=
      ⟨fun _ _ hne => hne.symm⟩
    exact Classical.byContradiction fun hne => hc.forall hone ho hne hs
  · intro hall
    exact hn.imp_of_mem fun hone ho hne hs => hne (hall _ hone _ ho hs)

theorem registerAll_isSome_iff_namesAgree (routes : List (RouteInfo σ)) :
    (registerAll (buildRouter routes)).isSome = true ↔ NamesAgree routes := by
  rw [registerAll_isSome_iff, compatible_iff_of_nodup (inserted_nodup routes),
    forall_inserted_iff]

/-- Registration goes through, and no two of the inserted paths stand for the same
requests, in exactly the lists of routes whose parameter names agree. -/
theorem no_conflicting_route_iff (routes : List (RouteInfo σ)) :
    ((∀ one ∈ (buildRouter routes).inserted, ∀ other ∈ (buildRouter routes).inserted,
        SameRequests one other → one = other) ↔ NamesAgree routes) ∧
      ((registerAll (buildRouter routes)).isSome = true ↔ NamesAgree routes) := by
  constructor
  · rw [← forall_inserted_iff]
    simp only [sameRequests_iff]
  · exact registerAll_isSome_iff_namesAgree routes

def getItem : RouteInfo Nat where
  path := "/items/{id}".toList
  methods := [.get]
  isWebsocket := false
  state := 0
  wellFormed := by decide
  distinct := by decide

def putItem : RouteInfo Nat where
  path := "/items/{item_id}".toList
  methods := [.put]
  isWebsocket := false
  state := 1
  wellFormed := by decide
  distinct := by decide

/-- A `GET` and a `PUT` of one resource whose parameter is called by two names. -/
theorem renamed_parameter_panics :
    getItem.axumPath ∈ (buildRouter [getItem, putItem]).inserted ∧
      putItem.axumPath ∈ (buildRouter [getItem, putItem]).inserted ∧
      getItem.axumPath ≠ putItem.axumPath ∧ SameRequests getItem.axumPath putItem.axumPath ∧
      registerAll (buildRouter [getItem, putItem]) = none := by
  refine ⟨by decide, by decide, by decide, (sameRequests_iff _ _).2 (by decide), by decide⟩

end FastapiTurbo.RouterConflicts
