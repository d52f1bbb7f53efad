import FastapiTurbo.Lifespans
import Mathlib.Data.List.Basic

/-! The walks over the routers of an application that order its startup and shutdown handlers
and merge the states of its lifespans (`applications.py`). -/
namespace FastapiTurbo.LifecycleOrder

open Lib Py Lifespans List

section Handlers

inductive Router (η : Type) where
  | node (onStartup onShutdown : List η) (included : List (Router η))

structure App (η : Type) where
  onStartup : List η
  onShutdown : List η
  router : Router η
  included : List (Router η)

variable {η : Type}

mutual

def startupWalk : Router η → List η
  | .node onStartup _ included => onStartup ++ startupWalks included

def startupWalks : List (Router η) → List η
  | [] => []
  | child :: rest => startupWalk child ++ startupWalks rest

end

mutual

def shutdownWalk : Router η → List η
  | .node _ onShutdown included => shutdownWalks included ++ onShutdown

def shutdownWalks : List (Router η) → List η
  | [] => []
  | child :: rest => shutdownWalk child ++ shutdownWalks rest

end

def collectStartupHandlers (app : App η) : List η :=
  app.onStartup ++ startupWalk app.router ++ startupWalks app.included

def collectShutdownHandlers (app : App η) : List η :=
  shutdownWalks app.included ++ shutdownWalk app.router ++ app.onShutdown

mutual

/-- Every router has one handler of each kind, both known by the router. -/
def Router.Single : Router η → Prop
  | .node onStartup onShutdown included =>
    (∃ node, onStartup = [node] ∧ onShutdown = [node]) ∧ AllSingle included

def AllSingle : List (Router η) → Prop
  | [] => True
  | child :: rest => child.Single ∧ AllSingle rest

end

def App.Single (app : App η) : Prop :=
  (∃ node, app.onStartup = [node] ∧ app.onShutdown = [node]) ∧ app.router.Single ∧
    AllSingle app.included

mutual

/-- No router includes two others. -/
def Router.Linear : Router η → Prop
  | .node _ _ included => included.length ≤ 1 ∧ AllLinear included

def AllLinear : List (Router η) → Prop
  | [] => True
  | child :: rest => child.Linear ∧ AllLinear rest

end

def App.Linear (app : App η) : Prop :=
  app.router.Linear ∧ app.included.length ≤ 1 ∧ AllLinear app.included

mutual

theorem shutdownWalk_perm : ∀ {router : Router η}, router.Single →
    (shutdownWalk router).Perm (startupWalk router)
  | .node _ _ included, ⟨⟨node, hs, hshares⟩, hincluded⟩ => by
    subst hs hshares
    rw [shutdownWalk, startupWalk]
    exact ((shutdownWalks_perm hincluded).append_right [node]).trans perm_append_comm

theorem shutdownWalks_perm : ∀ {routers : List (Router η)}, AllSingle routers →
    (shutdownWalks routers).Perm (startupWalks routers)
  | [], _ => List.Perm.refl []
  | child :: rest, ⟨hc, hr⟩ => by
    rw [shutdownWalks, startupWalks]
    exact (shutdownWalk_perm hc).append (shutdownWalks_perm hr)

end

theorem startupWalk_ne_nil {router : Router η} (hs : router.Single) : startupWalk router ≠ [] := by
  obtain ⟨onStartup, onShutdown, included⟩ := router
  obtain ⟨⟨node, hstart, -⟩, -⟩ := hs
  simp [startupWalk, hstart]

/-- Two siblings are visited in the same order both times. -/
theorem shutdownWalks_ne_reverse {first second : Router η} {rest : List (Router η)}
    (hf : first.Single)
    (hsecond : second.Single) (hn : (startupWalks (first :: second :: rest)).Nodup) :
    shutdownWalks (first :: second :: rest) ≠ (startupWalks (first :: second :: rest)).reverse := by
  intro hs
  rw [startupWalks] at hs hn
  rw [shutdownWalks, reverse_append] at hs
  have ho : startupWalks (second :: rest) ≠ [] := by
    simp [startupWalks, startupWalk_ne_nil hsecond]
  have hnode : shutdownWalk first ≠ [] := fun hnil =>
    startupWalk_ne_nil hf (hnil ▸ shutdownWalk_perm hf).nil_eq.symm
  obtain ⟨node, tail, hw⟩ := exists_cons_of_ne_nil hnode
  obtain ⟨other, tail', hr⟩ := exists_cons_of_ne_nil
    (mt reverse_eq_nil_iff.1 ho)
  rw [hw, hr, cons_append, cons_append, List.cons.injEq] at hs
  have hone : node ∈ startupWalk first :=
    (shutdownWalk_perm hf).subset (hw ▸ mem_cons_self)
  have htwo : node ∈ startupWalks (second :: rest) :=
    mem_reverse.1 (hr ▸ hs.1 ▸ mem_cons_self)
  exact (nodup_append.1 hn).2.2 node hone node htwo rfl

mutual

theorem shutdownWalk_eq_iff : ∀ {router : Router η}, router.Single →
    (startupWalk router).Nodup →
    (shutdownWalk router = (startupWalk router).reverse ↔ router.Linear)
  | .node _ _ included, ⟨⟨node, hs, hshares⟩, hincluded⟩, hn => by
    subst hs hshares
    rw [startupWalk] at hn ⊢
    rw [shutdownWalk, reverse_append, reverse_singleton, append_left_inj, Router.Linear]
    exact shutdownWalks_eq_iff hincluded (nodup_append.1 hn).2.1

theorem shutdownWalks_eq_iff : ∀ {routers : List (Router η)}, AllSingle routers →
    (startupWalks routers).Nodup →
    (shutdownWalks routers = (startupWalks routers).reverse ↔
      routers.length ≤ 1 ∧ AllLinear routers)
  | [], _, _ => by simp [shutdownWalks, startupWalks, AllLinear]
  | [child], ⟨hc, _⟩, hn => by
    simp only [startupWalks, append_nil] at hn
    simpa [shutdownWalks, startupWalks, AllLinear] using shutdownWalk_eq_iff hc hn
  | first :: second :: rest, ⟨hf, hs, _⟩, hn => by
    have hne := shutdownWalks_ne_reverse hf hs hn
    simp [hne]

end

/-- With one handler of each kind at every node, the shutdown goes through the nodes in the
reverse order of the startup exactly if neither the application nor a router includes two
routers. -/
theorem shutdown_reverses_startup_iff {app : App η} (hsingle : app.Single)
    (hnodup : (collectStartupHandlers app).Nodup) :
    collectShutdownHandlers app = (collectStartupHandlers app).reverse ↔ app.Linear := by
  obtain ⟨⟨node, hs, hshares⟩, hr, hincluded⟩ := hsingle
  unfold collectStartupHandlers at hnodup ⊢
  rw [hs, append_assoc] at hnodup
  obtain ⟨-, hw, -⟩ := nodup_append.1 hnodup
  obtain ⟨hnodupOwn, hnodupIncluded, -⟩ := nodup_append.1 hw
  rw [collectShutdownHandlers, hs, hshares, reverse_append, reverse_append,
    reverse_singleton, append_assoc, App.Linear,
    ← shutdownWalk_eq_iff hr hnodupOwn, ← shutdownWalks_eq_iff hincluded hnodupIncluded]
  constructor
  · intro hsame
    obtain ⟨hone, hrest⟩ := append_inj hsame (by
      rw [length_reverse, (shutdownWalks_perm hincluded).length_eq])
    exact ⟨(append_inj hrest (by
      rw [length_reverse, (shutdownWalk_perm hr).length_eq])).1, hone⟩
  · rintro ⟨hone, ho⟩
    rw [hone, ho]

def chainedApp : App String where
  onStartup := ["app"]
  onShutdown := ["app"]
  router := .node ["root"] ["root"] []
  included := [.node ["api"] ["api"] [.node ["users"] ["users"] []]]

theorem chained_app_reversed :
    collectShutdownHandlers chainedApp = (collectStartupHandlers chainedApp).reverse := by
  have hs : chainedApp.Single := by
    simp [chainedApp, App.Single, Router.Single, AllSingle]
  have hl : chainedApp.Linear := by
    simp [chainedApp, App.Linear, Router.Linear, AllLinear]
  exact (shutdown_reverses_startup_iff hs (by decide)).2 hl

/-- Two routers beside each other start and stop in the same order. -/
theorem siblings_not_reversed :
    let app : App String := ⟨["app"], ["app"], .node ["root"] ["root"] [],
      [.node ["users"] ["users"] [], .node ["items"] ["items"] []]⟩
    collectStartupHandlers app = ["app", "root", "users", "items"] ∧
      collectShutdownHandlers app = ["users", "items", "root", "app"] := by
  decide

end Handlers

section States

variable {υ : Type}

/-- What entering a lifespan adds to the state, where nothing raises. -/
def yields : Lifespan υ → Dict Name υ
  | .returned produced =>
    match (wrap produced).aenter with
    | .returned (.mapping entries) => update [] entries
    | _ => []
  | .raised _ => []

/-- The lifespan yields a state or something falsy, and raises nothing. -/
def Enters (lifespan : Lifespan υ) : Prop :=
  ∃ produced, lifespan = .returned produced ∧ (wrap produced).merges = true

mutual

def lineages : Lifespans.Router υ → List (List (Option (Lifespan υ)))
  | .node lifespan included => [lifespan] :: (allLineages included).map (lifespan :: ·)

def allLineages : List (Lifespans.Router υ) → List (List (Option (Lifespan υ)))
  | [] => []
  | child :: rest => lineages child ++ allLineages rest

end

def includedRouters : Lifespans.App υ → List (Lifespans.Router υ)
  | ⟨.node _ inner, included, _⟩ => inner ++ included

/-- Each included router with its ancestors, the application first. -/
def appLineages (app : Lifespans.App υ) : List (List (Option (Lifespan υ))) :=
  (allLineages (includedRouters app)).map (app.lifespan :: ·)

/-- The key is yielded by the last router of the lineage and by one above it, of which the
outermost yields this value. -/
def Shared (lineage : List (Option (Lifespan υ))) (key : Name) (value : υ) : Prop :=
  ∃ front ancestor between router, lineage = front ++ some ancestor :: (between ++ [some router]) ∧
    (∀ lifespan, some lifespan ∈ front → (yields lifespan).get? key = none) ∧
    (yields ancestor).get? key = some value ∧ ((yields router).get? key).isSome = true

/-- The lifespan of the router at the end of a lineage. -/
def ownLifespan (lineage : List (Option (Lifespan υ))) : Option (Lifespan υ) :=
  lineage.getLast?.join

/-- The lifespans of the included routers, each one before those of the routers in it. -/
def inPreOrder (app : Lifespans.App υ) : List (Lifespan υ) :=
  (allLineages (includedRouters app)).filterMap ownLifespan

/-- What the last of the lifespans that yield the key yields for it. -/
def lastYielded (lifespans : List (Lifespan υ)) (key : Name) : Option υ :=
  lifespans.reverse.findSome? fun lifespan => (yields lifespan).get? key

theorem get?_update (merged entries : Dict Name υ) (key : Name) :
    (update merged entries).get? key =
      ((update [] entries).get? key).or (merged.get? key) := by
  induction entries generalizing merged with
  | nil => rfl
  | cons entry rest ih =>
    change (update (merged.set entry.1 entry.2) rest).get? key =
      ((update (Dict.set [] entry.1 entry.2) rest).get? key).or (merged.get? key)
    rw [ih, ih (Dict.set [] entry.1 entry.2), Option.or_assoc, Dict.get?_set, Dict.get?_set]
    split <;> rfl

private theorem lastYielded_cons (lifespan : Lifespan υ) (rest : List (Lifespan υ)) (key : Name) :
    lastYielded (lifespan :: rest) key =
      (lastYielded rest key).or ((yields lifespan).get? key) := by
  simp [lastYielded, findSome?_append]

/-- Entering the lifespans leaves under each key what the last of them yields for it. -/
theorem enterAll_outcome {lifespans : List (Lifespan υ)}
    (he : ∀ lifespan ∈ lifespans, Enters lifespan) (place : Nat) (merged : Dict Name υ) :
    ∃ mappings final, wrapAll lifespans = .returned mappings ∧
      (enterAll place mappings merged).outcome = .returned final ∧
      ∀ key, final.get? key = (lastYielded lifespans key).or (merged.get? key) := by
  induction lifespans generalizing place merged with
  | nil => exact ⟨[], merged, rfl, rfl, fun key => rfl⟩
  | cons lifespan rest ih =>
    rw [forall_mem_cons] at he
    obtain ⟨⟨produced, rfl, hm⟩, hr⟩ := he
    have hs : ∃ mid,
        (∀ mappings, (enterAll place (wrap produced :: mappings) merged).outcome =
          (enterAll (place + 1) mappings mid).outcome) ∧
        ∀ key, mid.get? key =
          ((yields (.returned produced)).get? key).or (merged.get? key) := by
      cases hy : (wrap produced).aenter with
      | raised error => simp [ContextManager.merges, hy] at hm
      | returned yielded =>
        cases yielded with
        | unmergeable error => simp [ContextManager.merges, hy] at hm
        | falsy =>
          refine ⟨merged, fun mappings => ?_, fun key => ?_⟩
          · simp [enterAll, hy, Yielded.mergeInto]
          · simp [yields, hy, Dict.get?]
        | mapping entries =>
          refine ⟨update merged entries, fun mappings => ?_, fun key => ?_⟩
          · simp [enterAll, hy, Yielded.mergeInto]
          · simp only [yields, hy]
            exact get?_update merged entries key
    obtain ⟨mid, hentered, hb⟩ := hs
    obtain ⟨mappings, final, hw, ho, hf⟩ := ih hr (place + 1) mid
    refine ⟨wrap produced :: mappings, final, by rw [wrapAll, hw], ?_, fun key => ?_⟩
    · rw [hentered, ho]
    · rw [hf, hb, lastYielded_cons, Option.or_assoc]

private theorem ne_nil_of_mem_lineages {router : Lifespans.Router υ}
    {lineage : List (Option (Lifespan υ))} (hl : lineage ∈ lineages router) : lineage ≠ [] := by
  obtain ⟨lifespan, included⟩ := router
  rw [lineages, mem_cons, mem_map] at hl
  rcases hl with rfl | ⟨_, _, rfl⟩ <;> simp

private theorem ne_nil_of_mem_allLineages {routers : List (Lifespans.Router υ)}
    {lineage : List (Option (Lifespan υ))} (hl : lineage ∈ allLineages routers) :
    lineage ≠ [] := by
  induction routers with
  | nil => simp [allLineages] at hl
  | cons child rest ih =>
    rw [allLineages, mem_append] at hl
    exact hl.elim ne_nil_of_mem_lineages ih

private theorem ownLifespan_cons {ancestor : Option (Lifespan υ)}
    {lineage : List (Option (Lifespan υ))} (hn : lineage ≠ []) :
    ownLifespan (ancestor :: lineage) = ownLifespan lineage := by
  obtain ⟨next, rest, rfl⟩ := exists_cons_of_ne_nil hn
  rw [ownLifespan, getLast?_cons_cons, ownLifespan]

mutual

private theorem walk_eq_lineages : ∀ router : Lifespans.Router υ,
    walk router = (lineages router).filterMap ownLifespan
  | .node lifespan included => by
    have hincluded : ((allLineages included).map (lifespan :: ·)).filterMap ownLifespan =
        (allLineages included).filterMap ownLifespan := by
      rw [filterMap_map]
      exact filterMap_congr fun _ hl => ownLifespan_cons (ne_nil_of_mem_allLineages hl)
    rw [walk, lineages, walkAll_eq_lineages included, ← hincluded]
    cases lifespan <;> rfl

/-- The walk visits the routers in the order of their lineages. -/
theorem walkAll_eq_lineages : ∀ routers : List (Lifespans.Router υ),
    walkAll routers = (allLineages routers).filterMap ownLifespan
  | [] => rfl
  | child :: rest => by
    rw [walkAll, allLineages, filterMap_append, walk_eq_lineages child, walkAll_eq_lineages rest]

end

private theorem walkAll_append (front back : List (Lifespans.Router υ)) :
    walkAll (front ++ back) = walkAll front ++ walkAll back := by
  induction front with
  | nil => rfl
  | cons router rest ih => rw [cons_append, walkAll, walkAll, ih, append_assoc]

theorem collectLifespans_eq (app : Lifespans.App υ) :
    collectLifespans app = inPreOrder app ++ app.lifespan.toList := by
  obtain ⟨⟨own, inner⟩, included, lifespan⟩ := app
  rw [collectLifespans, inPreOrder, includedRouters, ← walkAll_eq_lineages, walkAll_append]

def startedState (twin : Twin) (app : Lifespans.App υ) (attributes : Dict String υ) :
    Dict Name υ :=
  (twin.startup (collectLifespans app) ⟨[], [], attributes⟩).1.appState

private theorem get?_startedState {app : Lifespans.App υ}
    (he : ∀ lifespan ∈ collectLifespans app, Enters lifespan)
    (twin : Twin) (attributes : Dict String υ) (key : Name) :
    (startedState twin app attributes).get? key =
      (app.lifespan.bind fun lifespan => (yields lifespan).get? key).or
        (lastYielded (inPreOrder app) key) := by
  have hl : (startedState twin app attributes).get? key =
      lastYielded (collectLifespans app) key := by
    obtain ⟨mappings, final, hw, ho, hf⟩ := enterAll_outcome he 0 []
    unfold startedState
    rw [twin.startup_eq, lifespanStartup]
    cases hli : collectLifespans app with
    | nil => rfl
    | cons lifespan rest =>
      rw [hli] at hw hf
      simp only [hw, ho, installState, isEmpty_nil, isEmpty_cons,
        Bool.not_true, Bool.false_eq_true, if_false]
      rw [hf]
      exact Option.or_none
  rw [hl, collectLifespans_eq, lastYielded, reverse_append, findSome?_append]
  cases app.lifespan with
  | none => rfl
  | some lifespan => simp [lastYielded]

/-- A startup keeps the outermost ancestor's value under every key that a router shares with an
ancestor exactly if, for each of them, the application itself yields the key, or the router that
yields it last in the pre-order of their nesting yields that value. -/
theorem ancestor_state_kept_iff {app : Lifespans.App υ}
    (henter : ∀ lifespan ∈ collectLifespans app, Enters lifespan) (twin : Twin)
    (attributes : Dict String υ) :
    (∀ lineage ∈ appLineages app, ∀ key value, Shared lineage key value →
        (startedState twin app attributes).get? key = some value) ↔
      ∀ lineage ∈ appLineages app, ∀ key value, Shared lineage key value →
        (∃ lifespan, app.lifespan = some lifespan ∧ ((yields lifespan).get? key).isSome = true) ∨
          lastYielded (inPreOrder app) key = some value := by
  refine forall₂_congr fun lineage hl => forall₃_congr fun key value hshares => ?_
  rw [get?_startedState henter]
  cases hown : app.lifespan.bind fun lifespan => (yields lifespan).get? key with
  | none =>
    have hs : ¬∃ lifespan, app.lifespan = some lifespan ∧
        ((yields lifespan).get? key).isSome = true := by
      rintro ⟨lifespan, happ, hso⟩
      rw [happ, Option.bind_some] at hown
      rw [hown] at hso
      cases hso
    simp [hs]
  | some own =>
    obtain ⟨lifespan, happ, hy⟩ := Option.bind_eq_some_iff.1 hown
    obtain ⟨chain, -, rfl⟩ := mem_map.1 hl
    obtain ⟨front, ancestor, between, router, heq, hf, hv, -⟩ := hshares
    -- The application is the head of the lineage, and no front of it yields the key.
    cases front with
    | cons first rest =>
      have hs := hf lifespan (by
        rw [cons_append, List.cons.injEq] at heq
        simp [← heq.1, happ])
      rw [hy] at hs
      cases hs
    | nil =>
      rw [nil_append, List.cons.injEq, happ, Option.some.injEq] at heq
      rw [← heq.1, hy] at hv
      simp only [Option.some_or, hv, true_iff]
      exact .inl ⟨lifespan, happ, by rw [hy]; rfl⟩

def yielding (key : String) (value : Nat) : Lifespan Nat :=
  .returned (.asyncManager ⟨.returned (.mapping [(.text key, value)]), fun _ => .returned ()⟩)

def nested (lifespan : Option (Lifespan Nat)) : Lifespans.App Nat where
  router := .node none []
  included := [.node (some (yielding "db" 1)) [.node (some (yielding "db" 2)) []]]
  lifespan := lifespan

private theorem get?_yielding (name : String) (value : Nat) (key : Name) :
    (yields (yielding name value)).get? key = if key = .text name then some value else none := by
  simp only [yields, yielding, wrap, update, foldl_cons, foldl_nil, Dict.get?_set]
  rfl

theorem app_state_kept :
    (startedState .worker (nested (some (yielding "db" 0))) []).get? (.text "db") = some 0 := by
  have he : ∀ lifespan ∈ collectLifespans (nested (some (yielding "db" 0))),
      Enters lifespan := by
    simp [nested, collectLifespans, walkAll, walk, yielding, Enters, wrap, ContextManager.merges]
  have hli : appLineages (nested (some (yielding "db" 0))) =
      [[some (yielding "db" 0), some (yielding "db" 1)],
        [some (yielding "db" 0), some (yielding "db" 1), some (yielding "db" 2)]] := by
    simp [appLineages, allLineages, lineages, includedRouters, nested]
  refine (ancestor_state_kept_iff he .worker []).2 ?_
    [some (yielding "db" 0), some (yielding "db" 1)] (by simp [hli]) _ 0
    ⟨[], yielding "db" 0, [], yielding "db" 1, rfl, by simp, by decide, by decide⟩
  rintro lineage hl key value ⟨front, ancestor, between, router, rfl, -, hv, -⟩
  have ha : ∃ number, ancestor = yielding "db" number := by
    have hmem : some ancestor ∈ front ++ some ancestor :: (between ++ [some router]) := by simp
    rw [hli] at hl
    simp only [mem_cons, not_mem_nil, or_false] at hl
    rcases hl with heq | heq
    · rw [heq] at hmem
      rcases (by simpa using hmem) with rfl | rfl <;> exact ⟨_, rfl⟩
    · rw [heq] at hmem
      rcases (by simpa using hmem) with rfl | rfl | rfl <;> exact ⟨_, rfl⟩
  obtain ⟨number, rfl⟩ := ha
  rw [get?_yielding] at hv
  refine .inl ⟨yielding "db" 0, rfl, ?_⟩
  rw [get?_yielding]
  split at hv
  · rename_i hkey
    rw [if_pos hkey]
    rfl
  · cases hv

/-- The nested router's value replaces the one of the router that includes it. -/
theorem nested_router_overwrites :
    Shared [none, some (yielding "db" 1), some (yielding "db" 2)] (.text "db") 1 ∧
      [none, some (yielding "db" 1), some (yielding "db" 2)] ∈ appLineages (nested none) ∧
      (startedState .worker (nested none) []).get? (.text "db") = some 2 :=
  ⟨⟨[none], yielding "db" 1, [], yielding "db" 2, rfl, by simp, by decide, by decide⟩,
    by simp [appLineages, allLineages, lineages, includedRouters, nested], by decide⟩

end States

end FastapiTurbo.LifecycleOrder
