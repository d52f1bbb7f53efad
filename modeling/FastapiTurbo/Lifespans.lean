import FastapiTurbo.Lib.Dict
import FastapiTurbo.Lib.Effects
import FastapiTurbo.Lib.Lists
import FastapiTurbo.Py

/-! The lifespans of an application (`applications.py`): how they are collected from the
routers, entered at startup and exited at shutdown. -/
namespace FastapiTurbo.Lifespans

open Lib Py List

variable {υ : Type}

/-- A key of the state that a lifespan yields: a string, or an object of another type. -/
inductive Name where
  | text (name : String)
  | other (typeName : String) (id : Nat)
  deriving DecidableEq

/-- What `__aenter__` gives: a falsy value, something that `dict.update` accepts, or
something that it rejects. -/
inductive Yielded (υ : Type) where
  | falsy
  | mapping (entries : Dict Name υ)
  | unmergeable (error : PyErr)

/-- How far a context manager has come: `__aenter__` was not called, raised or completed. -/
inductive Status where
  | untouched
  | failed
  | entered
  deriving DecidableEq

/-- What the two halves of an async context manager do when they are called; the second one
may be called without the first. -/
structure ContextManager (υ : Type) where
  aenter : Outcome (Yielded υ) PyErr
  aexit : Status → Outcome Unit PyErr

inductive Advance (υ : Type) where
  | yields (value : Yielded υ)
  | stops
  | raises (error : PyErr)

inductive Produced (υ : Type) where
  | asyncManager (manager : ContextManager υ)
  | asyncGenerator (first second : Advance υ)
  | generator (first second : Advance υ)
  | syncManager (enter : Outcome (Yielded υ) PyErr) (exit : Outcome Unit PyErr)
  | other (typeName : String)

/-- A lifespan callable, by what calling it with the application does. -/
abbrev Lifespan (υ : Type) := Outcome (Produced υ) PyErr

def attributeError (typeName missing : String) : PyErr :=
  ⟨["AttributeError", "Exception", "BaseException", "object"],
    "'" ++ typeName ++ "' object has no attribute '" ++ missing ++ "'"⟩

def Advance.enter (stopName : String) : Advance υ → Outcome (Yielded υ) PyErr
  | .yields value => .returned value
  | .stops => .raised ⟨runtimeErrorMro, "async generator raised " ++ stopName⟩
  | .raises error => .raised error

def Advance.exit : Advance υ → Outcome Unit PyErr
  | .raises error => .raised error
  | _ => .returned ()

/-- The async context manager that `@asynccontextmanager` makes of the two halves. -/
def generatorManager (enter : Outcome (Yielded υ) PyErr) (exit : Outcome Unit PyErr) :
    ContextManager υ where
  aenter := enter
  aexit
    | .entered => exit
    -- The generator has ended, which is what `__aexit__` waits for.
    | .failed => .returned ()
    -- It is started by `__aexit__`, and closed where it yields.
    | .untouched =>
      match enter, exit with
      | .raised error, _ | _, .raised error => .raised error
      | .returned _, .returned _ => .raised ⟨runtimeErrorMro, "generator didn't stop"⟩

def wrap : Produced υ → ContextManager υ
  | .asyncManager manager => manager
  | .asyncGenerator first second =>
    generatorManager (first.enter "StopAsyncIteration") second.exit
  | .generator first second => generatorManager (first.enter "StopIteration") second.exit
  | .syncManager enter exit => generatorManager enter exit
  | .other typeName =>
    ⟨.raised (attributeError typeName "__aenter__"),
      fun _ => .raised (attributeError typeName "__aexit__")⟩

def wrapAll : List (Lifespan υ) → Outcome (List (ContextManager υ)) PyErr
  | [] => .returned []
  | .raised error :: _ => .raised error
  | .returned produced :: rest =>
    match wrapAll rest with
    | .returned managers => .returned (wrap produced :: managers)
    | .raised error => .raised error

section Collect

inductive Router (υ : Type) where
  | node (lifespan : Option (Lifespan υ)) (included : List (Router υ))

structure App (υ : Type) where
  router : Router υ
  included : List (Router υ)
  lifespan : Option (Lifespan υ)

mutual

def walk : Router υ → List (Lifespan υ)
  | .node lifespan included => lifespan.toList ++ walkAll included

def walkAll : List (Router υ) → List (Lifespan υ)
  | [] => []
  | child :: rest => walk child ++ walkAll rest

end

/-- `_collect_lifespans`.  The lifespan of `app.router` itself is not looked at. -/
def collectLifespans : App υ → List (Lifespan υ)
  | ⟨.node _ inner, included, lifespan⟩ => walkAll inner ++ walkAll included ++ lifespan.toList

end Collect

/-- What the application keeps of its lifespans; `lifespanCms` is empty where the source
has `None`. -/
structure Held (υ : Type) where
  lifespanCms : List (ContextManager υ × Status)
  appState : Dict Name υ
  attributes : Dict String υ

def update (merged entries : Dict Name υ) : Dict Name υ :=
  entries.foldl (fun merged entry => merged.set entry.1 entry.2) merged

def Yielded.mergeInto (merged : Dict Name υ) : Yielded υ → Outcome (Dict Name υ) PyErr
  | .falsy => .returned merged
  | .mapping entries => .returned (update merged entries)
  | .unmergeable error => .raised error

def setAttributes : Dict Name υ → Dict String υ → Dict String υ × Outcome Unit PyErr
  | [], attributes => (attributes, .returned ())
  | (.text name, value) :: rest, attributes => setAttributes rest (attributes.set name value)
  | (.other typeName _, _) :: _, attributes =>
    (attributes, .raised ⟨["TypeError", "Exception", "BaseException", "object"],
      "attribute name must be string, not '" ++ typeName ++ "'"⟩)

structure Entering (υ : Type) where
  /-- The places of the managers whose `__aenter__` completed, in order. -/
  places : List Nat
  stored : List (ContextManager υ × Status)
  outcome : Outcome (Dict Name υ) PyErr

def withStatus (status : Status) (managers : List (ContextManager υ)) :
    List (ContextManager υ × Status) :=
  managers.map fun manager => (manager, status)

def enterAll : Nat → List (ContextManager υ) → Dict Name υ → Entering υ
  | _, [], merged => ⟨[], [], .returned merged⟩
  | place, manager :: rest, merged =>
    match manager.aenter with
    | .raised error => ⟨[], (manager, .failed) :: withStatus .untouched rest, .raised error⟩
    | .returned yielded =>
      match yielded.mergeInto merged with
      | .raised error =>
        ⟨[place], (manager, .entered) :: withStatus .untouched rest, .raised error⟩
      | .returned merged =>
        let later := enterAll (place + 1) rest merged
        ⟨place :: later.places, (manager, .entered) :: later.stored, later.outcome⟩

def exitOne (manager : ContextManager υ) (status : Status) (first : Option PyErr) :
    Outcome (Option PyErr) PyErr :=
  match manager.aexit status with
  | .returned _ => .returned first
  | .raised error =>
    if error.isInstance "Exception" then .returned (first.or (some error)) else .raised error

def exitAll : List ((ContextManager υ × Status) × Nat) → Option PyErr →
    Eff Nat PyErr (Option PyErr)
  | [], first => pure first
  | ((manager, status), place) :: rest, first => do
      Eff.perform place
      let first ← Eff.ofOutcome (exitOne manager status first)
      exitAll rest first

/-- The end of `_enter_all`: the merged state is installed if every manager was entered. -/
def installState (held : Held υ) (merged : Outcome (Dict Name υ) PyErr) :
    Held υ × Outcome Unit PyErr :=
  match merged with
  | .raised error => (held, .raised error)
  | .returned merged =>
    let (attributes, outcome) := setAttributes merged held.attributes
    ({ held with appState := merged, attributes }, outcome)

/-- Both startup twins.  The managers are stored before the first of them is entered. -/
def lifespanStartup (lifespans : List (Lifespan υ)) (held : Held υ) :
    Held υ × Eff Nat PyErr Unit :=
  if !held.lifespanCms.isEmpty then (held, pure ())
  else if lifespans.isEmpty then (held, pure ())
  else
    match wrapAll lifespans with
    | .raised error => (held, Eff.ofOutcome (.raised error))
    | .returned managers =>
      let entering := enterAll 0 managers []
      let (held, outcome) := installState
        { held with lifespanCms := entering.stored } entering.outcome
      (held, (Run.mk entering.places outcome : Eff Nat PyErr Unit))

def lifespanShutdown (held : Held υ) : Held υ × Eff Nat PyErr Unit :=
  if held.lifespanCms.isEmpty then (held, pure ())
  else
    let run := exitAll held.lifespanCms.zipIdx.reverse none
    match run.outcome with
    | .raised error => (held, run.settle fun _ => .raised error)
    | .returned none => ({ held with lifespanCms := [] }, run.settle fun _ => .returned ())
    | .returned (some error) =>
      ({ held with lifespanCms := [] }, run.settle fun _ => .raised error)

def runLifespanStartup (lifespans : List (Lifespan υ)) (held : Held υ) :
    Held υ × Eff Nat PyErr Unit :=
  lifespanStartup lifespans held

def asyncRunLifespanStartup (lifespans : List (Lifespan υ)) (held : Held υ) :
    Held υ × Eff Nat PyErr Unit :=
  lifespanStartup lifespans held

def runLifespanShutdown (held : Held υ) : Held υ × Eff Nat PyErr Unit :=
  lifespanShutdown held

def asyncRunLifespanShutdown (held : Held υ) : Held υ × Eff Nat PyErr Unit :=
  lifespanShutdown held

/-- The pair on the worker's loop, or the twins on the caller's. -/
inductive Twin where
  | worker
  | caller
  deriving DecidableEq

def Twin.startup : Twin → List (Lifespan υ) → Held υ → Held υ × Eff Nat PyErr Unit
  | .worker => runLifespanStartup
  | .caller => asyncRunLifespanStartup

def Twin.shutdown : Twin → Held υ → Held υ × Eff Nat PyErr Unit
  | .worker => runLifespanShutdown
  | .caller => asyncRunLifespanShutdown

theorem Twin.startup_eq (twin : Twin) :
    (twin.startup : List (Lifespan υ) → _) = lifespanStartup := by
  cases twin <;> rfl

theorem Twin.shutdown_eq (twin : Twin) : (twin.shutdown : Held υ → _) = lifespanShutdown := by
  cases twin <;> rfl

def ContextManager.enters (manager : ContextManager υ) : Bool :=
  match manager.aenter with
  | .returned _ => true
  | .raised _ => false

def ContextManager.merges (manager : ContextManager υ) : Bool :=
  match manager.aenter with
  | .returned (.unmergeable _) | .raised _ => false
  | _ => true

def ContextManager.exitCaught (manager : ContextManager υ) (status : Status) : Bool :=
  match manager.aexit status with
  | .returned _ => true
  | .raised error => error.isInstance "Exception"

theorem enterAll_cases (place : Nat) (manager : ContextManager υ) (rest : List (ContextManager υ))
    (merged : Dict Name υ) :
    manager.enters = false ∧ (enterAll place (manager :: rest) merged).places = [] ∧
        (enterAll place (manager :: rest) merged).stored =
          (manager, .failed) :: withStatus .untouched rest ∨
      manager.enters = true ∧ manager.merges = false ∧
        (enterAll place (manager :: rest) merged).places = [place] ∧
        (enterAll place (manager :: rest) merged).stored =
          (manager, .entered) :: withStatus .untouched rest ∨
      manager.enters = true ∧ manager.merges = true ∧
        ∃ later, (enterAll place (manager :: rest) merged).places =
            place :: (enterAll (place + 1) rest later).places ∧
          (enterAll place (manager :: rest) merged).stored =
            (manager, .entered) :: (enterAll (place + 1) rest later).stored := by
  cases ha : manager.aenter with
  | raised error => simp [ContextManager.enters, enterAll, ha]
  | returned yielded =>
    cases yielded with
    | unmergeable error =>
      simp [ContextManager.enters, ContextManager.merges, enterAll, ha, Yielded.mergeInto]
    | falsy =>
      refine .inr (.inr ⟨by simp [ContextManager.enters, ha],
        by simp [ContextManager.merges, ha], merged, ?_⟩)
      simp [enterAll, ha, Yielded.mergeInto]
    | mapping entries =>
      refine .inr (.inr ⟨by simp [ContextManager.enters, ha],
        by simp [ContextManager.merges, ha], update merged entries, ?_⟩)
      simp [enterAll, ha, Yielded.mergeInto]

section

variable (place : Nat) (managers : List (ContextManager υ)) (merged : Dict Name υ)

theorem enterAll_stored_length :
    (enterAll place managers merged).stored.length = managers.length := by
  induction managers generalizing place merged with
  | nil => rfl
  | cons manager rest ih =>
    rcases enterAll_cases place manager rest merged with
      ⟨-, -, hs⟩ | ⟨-, -, -, hs⟩ | ⟨-, -, later, -, hs⟩
    · simp [hs, withStatus]
    · simp [hs, withStatus]
    · simp [hs, ih]

theorem enterAll_isPrefix :
    (enterAll place managers merged).places <+: List.range' place managers.length := by
  induction managers generalizing place merged with
  | nil => exact nil_prefix
  | cons manager rest ih =>
    rw [length_cons, range'_succ]
    rcases enterAll_cases place manager rest merged with
      ⟨-, hp, -⟩ | ⟨-, -, hp, -⟩ | ⟨-, -, later, hp, -⟩
    · simp [hp]
    · simp [hp]
    · simpa [hp] using ih (place + 1) later

theorem enterAll_eq_iff :
    (enterAll place managers merged).places = List.range' place managers.length ↔
      (∀ manager ∈ managers, manager.enters = true) ∧
        ∀ manager ∈ managers.dropLast, manager.merges = true := by
  induction managers generalizing place merged with
  | nil => exact iff_of_true rfl (by simp)
  | cons manager rest ih =>
    rw [length_cons, range'_succ]
    rcases enterAll_cases place manager rest merged with
      ⟨he, hp, -⟩ | ⟨he, hm, hp, -⟩ | ⟨he, hm, later, hp, -⟩
    · simp [hp, he]
    · -- It does not matter whether what the last manager yields can be merged.
      cases rest <;> simp [hp, he, hm]
    · cases rest <;> simp_all

theorem enterAll_stored
    (hall : (enterAll place managers merged).places = List.range' place managers.length) :
    (enterAll place managers merged).stored = withStatus .entered managers := by
  induction managers generalizing place merged with
  | nil => rfl
  | cons manager rest ih =>
    rw [length_cons, range'_succ] at hall
    rcases enterAll_cases place manager rest merged with
      ⟨-, hp, -⟩ | ⟨-, -, hp, hs⟩ | ⟨-, -, later, hp, hs⟩
    · simp [hp] at hall
    · obtain rfl : rest = [] := by simpa [hp] using hall
      exact hs
    · rw [hp, List.cons.injEq] at hall
      rw [hs, ih (place + 1) later hall.2]
      rfl

end

theorem exitAll_cases (manager : ContextManager υ) (status : Status) (place : Nat)
    (rest : List ((ContextManager υ × Status) × Nat)) (first : Option PyErr) :
    manager.exitCaught status = false ∧
        (exitAll (((manager, status), place) :: rest) first).effects = [place] ∨
      manager.exitCaught status = true ∧
        ∃ later, (exitAll (((manager, status), place) :: rest) first).effects =
          place :: (exitAll rest later).effects := by
  cases ha : manager.aexit status with
  | returned value =>
    refine .inr ⟨by simp [ContextManager.exitCaught, ha], first, ?_⟩
    simp [exitAll, exitOne, ha]
  | raised error =>
    cases he : error.isInstance "Exception" with
    | false =>
      simp [ContextManager.exitCaught, exitAll, exitOne, ha, he]
    | true =>
      refine .inr ⟨by simp [ContextManager.exitCaught, ha, he], first.or (some error), ?_⟩
      simp [exitAll, exitOne, ha, he]

theorem exitAll_isPrefix (placed : List ((ContextManager υ × Status) × Nat))
    (first : Option PyErr) : (exitAll placed first).effects <+: placed.map Prod.snd := by
  induction placed generalizing first with
  | nil => exact nil_prefix
  | cons head rest ih =>
    obtain ⟨⟨manager, status⟩, place⟩ := head
    rcases exitAll_cases manager status place rest first with ⟨-, he⟩ | ⟨-, later, he⟩
    · simp [he]
    · simpa [he] using ih later

theorem exitAll_eq_iff (placed : List ((ContextManager υ × Status) × Nat)) (first : Option PyErr) :
    (exitAll placed first).effects = placed.map Prod.snd ↔
      ∀ head ∈ placed.dropLast, head.1.1.exitCaught head.1.2 = true := by
  induction placed generalizing first with
  | nil => exact iff_of_true rfl (by simp)
  | cons head rest ih =>
    obtain ⟨⟨manager, status⟩, place⟩ := head
    rcases exitAll_cases manager status place rest first with
      ⟨hc, he⟩ | ⟨hc, later, he⟩
    · cases rest <;> simp [he, hc]
    · cases rest <;> simp_all

theorem exitAll_ne_nil {placed : List ((ContextManager υ × Status) × Nat)} (hp : placed ≠ [])
    (first : Option PyErr) : (exitAll placed first).effects ≠ [] := by
  cases placed with
  | nil => exact absurd rfl hp
  | cons head rest => simp [exitAll]

/-- Every manager is entered, what they yield is merged but for the last one's, and no exit
but the last one's lets an exception through.  The last exit is that of the first manager. -/
structure Paired (managers : List (ContextManager υ)) : Prop where
  entered : ∀ manager ∈ managers, manager.enters = true
  merged : ∀ manager ∈ managers.dropLast, manager.merges = true
  exited : ∀ manager ∈ managers.tail, manager.exitCaught .entered = true

private theorem exitAll_reverse_eq_iff (managers : List (ContextManager υ)) :
    (exitAll (withStatus .entered managers).zipIdx.reverse none).effects =
        (List.range' 0 managers.length).reverse ↔
      ∀ manager ∈ managers.tail, manager.exitCaught .entered = true := by
  have hp : (withStatus .entered managers).zipIdx.reverse.map Prod.snd =
      (List.range' 0 managers.length).reverse := by
    rw [map_reverse, zipIdx_map_snd, withStatus, length_map]
  have ht : (withStatus .entered managers).zipIdx.tail.map Prod.fst =
      withStatus .entered managers.tail := by
    rw [map_tail, zipIdx_map_fst, withStatus, withStatus, map_tail]
  rw [← hp, exitAll_eq_iff, dropLast_reverse]
  have hc := @List.forall_mem_map _ _ Prod.fst (withStatus .entered managers).zipIdx.tail
    (fun stored => stored.1.exitCaught stored.2 = true)
  rw [ht] at hc
  simp only [mem_reverse]
  rw [← hc]
  simp only [withStatus, forall_mem_map]

theorem exits_reverse_enters_iff (managers : List (ContextManager υ)) :
    (exitAll (enterAll 0 managers []).stored.zipIdx.reverse none).effects =
        (enterAll 0 managers []).places.reverse ↔
      Paired managers := by
  constructor
  · intro he
    by_cases hmanagers : managers = []
    · subst hmanagers
      constructor <;> simp
    · -- The last manager is exited first, so it was entered, and with it all the others.
      have hl := enterAll_stored_length 0 managers []
      have hs := enterAll_isPrefix 0 managers []
      have hends : (enterAll 0 managers []).places <:+ List.range' 0 managers.length := by
        have hexits := exitAll_isPrefix (enterAll 0 managers []).stored.zipIdx.reverse none
        rwa [he, map_reverse, zipIdx_map_snd, reverse_prefix, hl] at hexits
      have hstored : (enterAll 0 managers []).stored ≠ [] := by
        rwa [← length_pos_iff, hl, length_pos_iff]
      have hsome : (enterAll 0 managers []).places ≠ [] := by
        rw [← reverse_ne_nil_iff, ← he]
        exact exitAll_ne_nil (by simpa using hstored) none
      have hall := eq_of_prefix_of_suffix nodup_range' hsome hs hends
      obtain ⟨hentered, hm⟩ := (enterAll_eq_iff 0 managers []).1 hall
      rw [enterAll_stored 0 managers [] hall, hall] at he
      exact ⟨hentered, hm, (exitAll_reverse_eq_iff managers).1 he⟩
  · rintro ⟨hentered, hm, hexited⟩
    have hall := (enterAll_eq_iff 0 managers []).2 ⟨hentered, hm⟩
    rw [enterAll_stored 0 managers [] hall, hall, (exitAll_reverse_eq_iff managers).2 hexited]

private theorem installState_lifespanCms (held : Held υ) (merged : Outcome (Dict Name υ) PyErr) :
    (installState held merged).1.lifespanCms = held.lifespanCms := by
  cases merged <;> rfl

theorem lifespanStartup_of_wrapAll {lifespans : List (Lifespan υ)}
    {managers : List (ContextManager υ)}
    (hw : wrapAll lifespans = .returned managers) {held : Held υ} (hh : held.lifespanCms = []) :
    (lifespanStartup lifespans held).1.lifespanCms = (enterAll 0 managers []).stored ∧
      (lifespanStartup lifespans held).2.effects = (enterAll 0 managers []).places := by
  cases lifespans with
  | nil =>
    cases hw
    simp only [lifespanStartup, hh, isEmpty_nil, Bool.not_true, Bool.false_eq_true, if_false,
      if_true]
    exact ⟨rfl, rfl⟩
  | cons lifespan rest =>
    simp only [lifespanStartup, hh, hw, isEmpty_nil, isEmpty_cons, Bool.not_true,
      Bool.false_eq_true, if_false, installState_lifespanCms, true_and]
    rfl

theorem lifespanStartup_of_raised {lifespans : List (Lifespan υ)} {error : PyErr}
    (hw : wrapAll lifespans = .raised error) {held : Held υ} (hh : held.lifespanCms = []) :
    lifespanStartup lifespans held = (held, Eff.ofOutcome (.raised error)) := by
  cases lifespans with
  | nil => cases hw
  | cons lifespan rest =>
    simp only [lifespanStartup, hh, hw, isEmpty_nil, isEmpty_cons, Bool.not_true,
      Bool.false_eq_true, if_false]

private theorem effects_lifespanShutdown (held : Held υ) :
    (lifespanShutdown held).2.effects = (exitAll held.lifespanCms.zipIdx.reverse none).effects := by
  unfold lifespanShutdown
  cases hm : held.lifespanCms with
  | nil => rfl
  | cons manager rest =>
    simp only [isEmpty_cons, Bool.false_eq_true, if_false]
    split <;> rfl

/-- A startup and the shutdown after it exit the lifespans that were entered, each once and
in reverse, just if the managers are paired.  Where a lifespan callable raises there are
none. -/
theorem shutdown_exits_entered_iff (app : App υ) (twin : Twin) (appState : Dict Name υ)
    (attributes : Dict String υ) :
    (twin.shutdown (twin.startup (collectLifespans app) ⟨[], appState, attributes⟩).1).2.effects =
        (twin.startup (collectLifespans app) ⟨[], appState, attributes⟩).2.effects.reverse ↔
      ∀ managers, wrapAll (collectLifespans app) = .returned managers → Paired managers := by
  rw [twin.startup_eq, twin.shutdown_eq, effects_lifespanShutdown]
  cases hw : wrapAll (collectLifespans app) with
  | raised error =>
    rw [lifespanStartup_of_raised hw rfl]
    exact iff_of_true rfl (fun _ hr => nomatch hr)
  | returned managers =>
    obtain ⟨hs, he⟩ := @lifespanStartup_of_wrapAll υ _ _ hw ⟨[], appState, attributes⟩ rfl
    rw [hs, he, exits_reverse_enters_iff]
    simp

/-! When a startup returns. -/

def Name.isText : Name → Bool
  | .text _ => true
  | .other _ _ => false

def ContextManager.installs (manager : ContextManager υ) : Bool :=
  match manager.aenter with
  | .returned .falsy => true
  | .returned (.mapping entries) => entries.all fun entry => entry.1.isText
  | _ => false

def Installs (lifespans : List (Lifespan υ)) : Prop :=
  ∀ managers, wrapAll lifespans = .returned managers →
    ∀ manager ∈ managers, manager.installs = true

def AllText (dict : Dict Name υ) : Prop :=
  ∀ key ∈ dict.map Prod.fst, key.isText = true

private theorem allText_update {merged entries : Dict Name υ} (hm : AllText merged)
    (he : (entries.all fun entry => entry.1.isText) = true) : AllText (update merged entries) := by
  induction entries generalizing merged with
  | nil => exact hm
  | cons entry rest ih =>
    rw [all_cons, Bool.and_eq_true] at he
    refine ih ?_ he.2
    intro key hkey
    rw [Dict.keys_set, mem_addNew] at hkey
    rcases hkey with hkey | rfl
    · exact hm key hkey
    · exact he.1

theorem enterAll_returned (place : Nat) {managers : List (ContextManager υ)} {merged : Dict Name υ}
    (hinstalls : ∀ manager ∈ managers, manager.installs = true) (hm : AllText merged) :
    ∃ later, (enterAll place managers merged).outcome = .returned later ∧ AllText later := by
  induction managers generalizing place merged with
  | nil => exact ⟨merged, rfl, hm⟩
  | cons manager rest ih =>
    have hr := fun other ho => hinstalls other (mem_cons_of_mem _ ho)
    have hmanager := hinstalls manager mem_cons_self
    cases ha : manager.aenter with
    | raised error => simp [ContextManager.installs, ha] at hmanager
    | returned yielded =>
      cases yielded with
      | unmergeable error => simp [ContextManager.installs, ha] at hmanager
      | falsy => simpa [enterAll, ha, Yielded.mergeInto] using ih (place + 1) hr hm
      | mapping entries =>
        have he : (entries.all fun entry => entry.1.isText) = true := by
          simpa [ContextManager.installs, ha] using hmanager
        simpa [enterAll, ha, Yielded.mergeInto] using
          ih (place + 1) hr (allText_update hm he)

theorem setAttributes_returned {dict : Dict Name υ} (hd : AllText dict)
    (attributes : Dict String υ) : (setAttributes dict attributes).2 = .returned () := by
  induction dict generalizing attributes with
  | nil => rfl
  | cons entry rest ih =>
    obtain ⟨key, value⟩ := entry
    cases key with
    | text name => exact ih (fun key hkey => hd key (mem_cons_of_mem _ hkey)) _
    | other typeName id => exact absurd (hd _ mem_cons_self) (by simp [Name.isText])

theorem lifespanShutdown_held (held : Held υ) :
    (lifespanShutdown held).1 = held ∨ (lifespanShutdown held).1.lifespanCms = [] := by
  unfold lifespanShutdown
  split
  · exact .inl rfl
  · dsimp only
    split
    · exact .inl rfl
    · exact .inr rfl
    · exact .inr rfl

theorem lifespanStartup_of_stored (lifespans : List (Lifespan υ)) {held : Held υ}
    (hh : held.lifespanCms ≠ []) : lifespanStartup lifespans held = (held, pure ()) := by
  simp [lifespanStartup, hh]

theorem lifespanStartup_returned {lifespans : List (Lifespan υ)}
    {managers : List (ContextManager υ)}
    (hw : wrapAll lifespans = .returned managers) (hinstalls : Installs lifespans) {held : Held υ}
    (hh : held.lifespanCms = []) : (lifespanStartup lifespans held).2.outcome = .returned () := by
  cases lifespans with
  | nil =>
    simp only [lifespanStartup, hh, isEmpty_nil]
    rfl
  | cons lifespan rest =>
    have he : AllText ([] : Dict Name υ) := by simp [AllText]
    obtain ⟨merged, ho, ht⟩ := enterAll_returned 0 (hinstalls managers hw) he
    simp only [lifespanStartup, hh, hw, isEmpty_nil, Bool.not_true, ho]
    exact setAttributes_returned ht _

section Inputs

def plain : ContextManager Nat := ⟨.returned .falsy, fun _ => .returned ()⟩

def refusing : ContextManager Nat :=
  ⟨.raised ⟨["OSError", "Exception", "BaseException", "object"], "connection refused"⟩,
    fun _ => .returned ()⟩

def refusingApp : App Nat where
  router := .node none []
  included := [.node (some (.returned (.asyncManager plain))) []]
  lifespan := some (.returned (.asyncManager refusing))

end Inputs

/-- Only the router's lifespan is entered, but the one that was not is exited as well, before
it. -/
theorem unentered_lifespan_exited :
    let started := runLifespanStartup (collectLifespans refusingApp) ⟨[], [], []⟩
    started.2.effects = [0] ∧ (runLifespanShutdown started.1).2.effects = [1, 0] := by
  decide

end FastapiTurbo.Lifespans
