import FastapiTurbo.Lib.Transition
import FastapiTurbo.Lifespans

/-! The startup state of an application (`applications.py`): how `_asgi_lifespan`, the
startup and shutdown handlers and the gate of `__call__` move it. -/
namespace FastapiTurbo.StartupCycle

open Lib Py Lifespans List

variable {υ : Type}

inductive StartupState where
  | notStarted
  | running
  | started
  | failed
  deriving DecidableEq

structure Application (υ : Type) where
  /-- Whether `_asgi_lifespan` runs the pair on the worker's loop or the async twins. -/
  twin : Twin
  startup : StartupState
  /-- `_startup_failure`. -/
  failure : Option PyErr
  held : Held υ
  /-- `_in_process_dynamic_routes_installed`. -/
  installed : Bool
  /-- The startup handlers executed since the startup state was last reset.  This and the
  next two are not in the source. -/
  executed : List Nat
  /-- The startup that stored the lifespans returned. -/
  completed : Bool
  /-- `lifespan.startup.failed` was sent, and no startup has succeeded since. -/
  refusing : Bool

/-- What the user's code does in a startup: the lifespans as they are collected, and the
startup handlers. -/
structure Attempt (υ : Type) where
  lifespans : List (Lifespan υ)
  handlers : List (Outcome Unit PyErr)

inductive Event (υ : Type) where
  | lifespanStartup (attempt : Attempt υ)
  | lifespanShutdown (handlers : List (Outcome Unit PyErr))
  /-- An HTTP call, and what a startup would do if it came to one. -/
  | http (attempt : Attempt υ)

inductive Answer where
  | startupComplete
  | startupFailed (message : String)
  | shutdownComplete
  | shutdownFailed (message : String)
  | served
  | refused (error : PyErr)
  /-- An exception that `except Exception` lets through leaves `_asgi_lifespan`. -/
  | escaped (error : PyErr)
  deriving DecidableEq

def runHandlers : Nat → List (Outcome Unit PyErr) → Eff Nat PyErr Unit
  | _, [] => pure ()
  | place, handler :: rest => do
      Eff.perform place
      Eff.ofOutcome handler
      runHandlers (place + 1) rest

section Startup

-- `repr` of the exception kept as the cause, or of `None`.
variable (reprOf : Option PyErr → String)

def failedState (failure : Option PyErr) : PyErr :=
  ⟨runtimeErrorMro, "fastapi-turbo: startup handler raised earlier; the app " ++
    "is in a failed state and cannot serve traffic. Re-create " ++
    "the app instance to retry. Original error: " ++ reprOf failure⟩

def reentrant : PyErr :=
  ⟨runtimeErrorMro, "fastapi-turbo: re-entrant call to startup handlers; " ++
    "a startup hook is invoking another startup-running code " ++
    "path. This is a bug in the user's startup chain."⟩

def runStartupHandlers (handlers : List (Outcome Unit PyErr)) (app : Application υ) :
    Application υ × Outcome Unit PyErr :=
  match app.startup with
  | .started => (app, .returned ())
  | .failed => (app, .raised (failedState reprOf app.failure))
  | .running => (app, .raised reentrant)
  | .notStarted =>
    let run := runHandlers 0 handlers
    let app := { app with executed := app.executed ++ run.effects }
    match run.outcome with
    | .returned _ => ({ app with startup := .started }, .returned ())
    | .raised error =>
      if error.isInstance "Exception" then
        ({ app with startup := .failed, failure := some error }, .raised error)
      else ({ app with startup := .running }, .raised error)

def isReturned : Outcome Unit PyErr → Bool
  | .returned _ => true
  | .raised _ => false

def enterLifespans (twin : Twin) (lifespans : List (Lifespan υ)) (app : Application υ) :
    Application υ × Outcome Unit PyErr :=
  let entered := twin.startup lifespans app.held
  ({ app with
      held := entered.1
      completed :=
        if app.held.lifespanCms.isEmpty then isReturned entered.2.outcome else app.completed },
    entered.2.outcome)

def start (twin : Twin) (attempt : Attempt υ) (app : Application υ) :
    Application υ × Outcome Unit PyErr :=
  let entered := enterLifespans twin attempt.lifespans app
  match entered.2 with
  | .raised error => (entered.1, .raised error)
  | .returned _ => runStartupHandlers reprOf attempt.handlers entered.1

/-- A startup has returned.  It succeeded if the lifespans were not left half entered by an
earlier one. -/
def Application.succeed (app : Application υ) : Application υ :=
  { app with refusing := app.refusing && !app.completed }

/-- What the shutdown handlers end with, also where `_asgi_lifespan` does it in their
stead. -/
def Application.reset (app : Application υ) : Application υ :=
  { app with startup := .notStarted, failure := none, installed := false, executed := [] }

/-- The end of a shutdown in `_asgi_lifespan`, whichever of its parts gave the outcome. -/
def endShutdown (app : Application υ) : Outcome Unit PyErr → Application υ × Answer
  | .returned _ => (app.reset, .shutdownComplete)
  | .raised error =>
    if error.isInstance "Exception" then (app.reset, .shutdownFailed error.text)
    else (app, .escaped error)

/-- `_asgi_lifespan` on a message, and `__call__` on an HTTP scope up to where the request
is served. -/
def respond (app : Application υ) : Event υ → Application υ × Answer
  | .lifespanStartup attempt =>
    let started := start reprOf app.twin attempt app
    match started.2 with
    | .returned _ => (started.1.succeed, .startupComplete)
    | .raised error =>
      if error.isInstance "Exception" then
        ({ started.1 with refusing := true }, .startupFailed error.text)
      else (started.1, .escaped error)
  | .lifespanShutdown handlers =>
    let exited := app.twin.shutdown app.held
    let app := { app with held := exited.1 }
    match exited.2.outcome with
    | .raised error => endShutdown app (.raised error)
    | .returned _ => endShutdown app (runHandlers 0 handlers).outcome
  | .http attempt =>
    match app.startup with
    | .failed => (app, .refused (failedState reprOf app.failure))
    | _ =>
      if app.installed then (app, .served)
      else
        -- `_install_in_process_dynamic_routes`
        let started := start reprOf .worker attempt app
        match started.2 with
        | .raised error => (started.1, .refused error)
        | .returned _ => ({ started.1.succeed with installed := true }, .served)

def step (event : Event υ) (app : Application υ) : Option (Application υ) :=
  some (respond reprOf app event).1

end Startup

def created (twin : Twin) : Application υ where
  twin := twin
  startup := .notStarted
  failure := none
  held := ⟨[], [], []⟩
  installed := false
  executed := []
  completed := false
  refusing := false

section Handlers

theorem runHandlers_isPrefix (place : Nat) (handlers : List (Outcome Unit PyErr)) :
    (runHandlers place handlers).effects <+: List.range' place handlers.length := by
  induction handlers generalizing place with
  | nil => exact nil_prefix
  | cons hd rest ih =>
    rw [length_cons, range'_succ]
    cases hd with
    | raised error => simp [runHandlers]
    | returned value => simpa [runHandlers] using ih (place + 1)

variable (reprOf : Option PyErr → String) (handlers : List (Outcome Unit PyErr))
    (app : Application υ)

/-- The handlers run once from `"not_started"`; from every other state nothing changes. -/
theorem runStartupHandlers_cases :
    app.startup = .started ∧ runStartupHandlers reprOf handlers app = (app, .returned ()) ∨
      app.startup ≠ .started ∧ app.startup ≠ .notStarted ∧
        (∃ error, runStartupHandlers reprOf handlers app = (app, .raised error)) ∨
      app.startup = .notStarted ∧
        ∃ startup failure oc, startup ≠ .notStarted ∧
          (oc = .returned () → startup = .started) ∧
          runStartupHandlers reprOf handlers app =
            ({ app with
                startup, failure
                executed := app.executed ++ (runHandlers 0 handlers).effects }, oc) := by
  cases hs : app.startup with
  | started | failed | running => simp [runStartupHandlers, hs]
  | notStarted =>
    refine .inr (.inr ⟨rfl, ?_⟩)
    cases hrun : (runHandlers 0 handlers).outcome with
    | returned value =>
      exact ⟨.started, app.failure, .returned (), by simp, by simp,
        by simp only [runStartupHandlers, hs, hrun]⟩
    | raised error =>
      cases he : error.isInstance "Exception" with
      | true =>
        exact ⟨.failed, some error, .raised error, by simp, by simp,
          by simp [runStartupHandlers, hs, hrun, he]⟩
      | false =>
        exact ⟨.running, app.failure, .raised error, by simp, by simp,
          by simp [runStartupHandlers, hs, hrun, he]⟩

end Handlers

section Gate

variable (reprOf : Option PyErr → String)

/-- The lifespans complete once their callables have returned, and at a `lifespan.startup`
of an application that serves already the callables return. -/
def Sound (app : Application υ) : Event υ → Prop
  | .lifespanStartup attempt =>
    app.held.lifespanCms = [] → Installs attempt.lifespans ∧
      (app.installed = true → ∃ managers, wrapAll attempt.lifespans = .returned managers)
  | .lifespanShutdown _ => True
  | .http attempt => app.held.lifespanCms = [] → Installs attempt.lifespans

structure Gated (app : Application υ) : Prop where
  started : app.installed = true → app.startup = .started
  closed : app.refusing = true → app.installed = false
  completed : app.held.lifespanCms ≠ [] → app.completed = true

theorem gated_created (twin : Twin) : Gated (created twin : Application υ) := by
  constructor <;> simp [created]

variable {app : Application υ}

theorem enterLifespans_spec (twin : Twin) {lifespans : List (Lifespan υ)} (hg : Gated app)
    (hinstalls : app.held.lifespanCms = [] → Installs lifespans) :
    Gated (enterLifespans twin lifespans app).1 ∧
      ((enterLifespans twin lifespans app).2 = .returned () →
        (enterLifespans twin lifespans app).1.completed = true) ∧
      ((app.held.lifespanCms = [] → ∃ managers, wrapAll lifespans = .returned managers) →
        (enterLifespans twin lifespans app).2 = .returned ()) := by
  obtain ⟨hstarted, hc, hcompleted⟩ := hg
  simp only [enterLifespans, twin.startup_eq]
  by_cases hs : app.held.lifespanCms = []
  · cases hw : wrapAll lifespans with
    | raised error =>
      rw [lifespanStartup_of_raised hw hs]
      refine ⟨⟨hstarted, hc, fun hh => absurd hs hh⟩, ?_, ?_⟩
      · exact fun hr => nomatch hr
      · intro hreturns
        obtain ⟨managers, hm⟩ := hreturns hs
        exact nomatch hm
    | returned managers =>
      have hr := lifespanStartup_returned hw (hinstalls hs) hs
      simp only [hr, hs, isEmpty_nil, if_true, isReturned, implies_true, and_true]
      exact ⟨hstarted, hc, fun _ => rfl⟩
  · rw [lifespanStartup_of_stored lifespans hs]
    simp only [List.isEmpty_iff, hs]
    exact ⟨⟨hstarted, hc, hcompleted⟩, fun _ => hcompleted hs, fun _ => rfl⟩

theorem start_of_raised {twin : Twin} {attempt : Attempt υ} {error : PyErr}
    (hr : (enterLifespans twin attempt.lifespans app).2 = .raised error) :
    start reprOf twin attempt app =
      ((enterLifespans twin attempt.lifespans app).1, .raised error) := by
  simp only [start, hr]

theorem start_of_returned {twin : Twin} {attempt : Attempt υ}
    (hr : (enterLifespans twin attempt.lifespans app).2 = .returned ()) :
    start reprOf twin attempt app =
      runStartupHandlers reprOf attempt.handlers (enterLifespans twin attempt.lifespans app).1 := by
  simp only [start, hr]

theorem start_spec (twin : Twin) {attempt : Attempt υ} (hg : Gated app)
    (hinstalls : app.held.lifespanCms = [] → Installs attempt.lifespans) :
    Gated (start reprOf twin attempt app).1 ∧
      (start reprOf twin attempt app).1.installed = app.installed ∧
      ((start reprOf twin attempt app).2 = .returned () →
        (start reprOf twin attempt app).1.completed = true ∧
          (start reprOf twin attempt app).1.startup = .started) ∧
      (app.startup = .started →
        (app.held.lifespanCms = [] → ∃ managers, wrapAll attempt.lifespans = .returned managers) →
        (start reprOf twin attempt app).2 = .returned ()) := by
  obtain ⟨he, hc, hreturns⟩ := enterLifespans_spec twin hg hinstalls
  have hinstalled : (enterLifespans twin attempt.lifespans app).1.installed = app.installed := rfl
  have hs : (enterLifespans twin attempt.lifespans app).1.startup = app.startup := rfl
  cases ho : (enterLifespans twin attempt.lifespans app).2 with
  | raised error =>
    rw [start_of_raised reprOf ho]
    refine ⟨he, hinstalled, fun hr => (nomatch hr), fun _ hw => ?_⟩
    exact nomatch ho.symm.trans (hreturns hw)
  | returned value =>
    have hd := hc ho
    rw [start_of_returned reprOf ho]
    rcases runStartupHandlers_cases reprOf attempt.handlers
        (enterLifespans twin attempt.lifespans app).1 with
      ⟨hstarted, heq⟩ | ⟨hstarted, -, error, heq⟩ | ⟨hf, startup, failure, outcome, -, hend, heq⟩
    · rw [heq]
      exact ⟨he, hinstalled, fun _ => ⟨hd, hstarted⟩, fun _ _ => rfl⟩
    · rw [heq]
      refine ⟨he, hinstalled, fun hr => (nomatch hr), fun hb _ => ?_⟩
      exact absurd (hs.trans hb) hstarted
    · rw [heq]
      -- The application was not started, so it does not serve yet.
      have hidle : app.installed = false := by
        cases hserves : app.installed with
        | false => rfl
        | true => exact nomatch hf.symm.trans (hs.trans (hg.started hserves))
      refine ⟨⟨fun hserves => ?_, he.closed, he.completed⟩, hinstalled,
        fun hr => ⟨hd, hend hr⟩, fun hb _ => ?_⟩
      · exact nomatch hserves.symm.trans (hinstalled.trans hidle)
      · exact nomatch hf.symm.trans (hs.trans hb)

private theorem gated_reset (hc : app.held.lifespanCms ≠ [] → app.completed = true) :
    Gated app.reset :=
  ⟨fun hinstalled => (nomatch hinstalled), fun _ => rfl, hc⟩

theorem gated_endShutdown (hg : Gated app) (outcome : Outcome Unit PyErr) :
    Gated (endShutdown app outcome).1 := by
  cases outcome with
  | returned value => exact gated_reset hg.completed
  | raised error =>
    simp only [endShutdown]
    split
    · exact gated_reset hg.completed
    · exact hg

theorem gated_lifespanStartup {attempt : Attempt υ} (hg : Gated app)
    (hsound : Sound app (.lifespanStartup attempt)) :
    Gated (respond reprOf app (.lifespanStartup attempt)).1 := by
  obtain ⟨hs, hinstalled, hsuccess, hr⟩ :=
    start_spec reprOf app.twin hg fun hh => (hsound hh).1
  simp only [respond]
  cases ho : (start reprOf app.twin attempt app).2 with
  | returned value =>
    refine ⟨hs.started, fun hrefusing => ?_, hs.completed⟩
    simp [Application.succeed, (hsuccess ho).1] at hrefusing
  | raised error =>
    dsimp only
    split
    · -- An application that serves would have come through the startup.
      refine ⟨hs.started, fun _ => ?_, hs.completed⟩
      cases hserves : app.installed with
      | false => exact hinstalled.trans hserves
      | true =>
        have hreturned := hr (hg.started hserves) fun hh => (hsound hh).2 hserves
        exact nomatch ho.symm.trans hreturned
    · exact hs

theorem gated_lifespanShutdown (hg : Gated app) (handlers : List (Outcome Unit PyErr)) :
    Gated (respond reprOf app (.lifespanShutdown handlers)).1 := by
  have he : Gated { app with held := (app.twin.shutdown app.held).1 } := by
    refine ⟨hg.started, hg.closed, fun hh => ?_⟩
    rw [app.twin.shutdown_eq] at hh
    rcases lifespanShutdown_held app.held with hs | hn
    · exact hg.completed (hs ▸ hh)
    · exact absurd hn hh
  simp only [respond]
  split
  · exact gated_endShutdown he _
  · exact gated_endShutdown he _

theorem gated_http {attempt : Attempt υ} (hg : Gated app) (hsound : Sound app (.http attempt)) :
    Gated (respond reprOf app (.http attempt)).1 ∧
      ((respond reprOf app (.http attempt)).2 = .served →
        (respond reprOf app (.http attempt)).1.refusing = false) := by
  obtain ⟨hstart, hinstalled, hsuccess, -⟩ := start_spec reprOf .worker hg hsound
  simp only [respond]
  split
  · exact ⟨hg, fun hs => (nomatch hs)⟩
  · split
    · next hserves =>
      refine ⟨hg, fun _ => ?_⟩
      cases hr : app.refusing with
      | false => rfl
      | true => exact nomatch hserves.symm.trans (hg.closed hr)
    · cases ho : (start reprOf .worker attempt app).2 with
      | raised error => exact ⟨hstart, fun hs => (nomatch hs)⟩
      | returned value =>
        obtain ⟨hc, hstarted⟩ := hsuccess ho
        have hr : (start reprOf .worker attempt app).1.succeed.refusing = false := by
          simp [Application.succeed, hc]
        exact ⟨⟨fun _ => hstarted, fun hw => (nomatch hr.symm.trans hw),
          hstart.completed⟩, fun _ => hr⟩

theorem gated_step (event : Event υ) (app next : Application υ) (hs : Sound app event)
    (hstep : step reprOf event app = some next) (hg : Gated app) : Gated next := by
  cases hstep
  cases event with
  | lifespanStartup attempt => exact gated_lifespanStartup reprOf hg hs
  | lifespanShutdown handlers => exact gated_lifespanShutdown reprOf hg handlers
  | http attempt => exact (gated_http reprOf hg hs).1

end Gate

section Cycle

variable (reprOf : Option PyErr → String) {app : Application υ}

/-- No startup handler was executed twice since the last reset, and none at all in an
application that is not started. -/
structure Once (app : Application υ) : Prop where
  nodup : app.executed.Nodup
  fresh : app.startup = .notStarted → app.executed = []

private theorem once_runStartupHandlers (ho : Once app) (handlers : List (Outcome Unit PyErr)) :
    Once (runStartupHandlers reprOf handlers app).1 := by
  rcases runStartupHandlers_cases reprOf handlers app with
    ⟨-, heq⟩ | ⟨-, -, error, heq⟩ | ⟨hf, startup, failure, outcome, hs, -, heq⟩
  · rw [heq]
    exact ho
  · rw [heq]
    exact ho
  · rw [heq]
    refine ⟨?_, fun hnot => absurd hnot hs⟩
    rw [ho.fresh hf]
    exact (runHandlers_isPrefix 0 handlers).sublist.nodup nodup_range'

theorem once_start (ho : Once app) (twin : Twin) (attempt : Attempt υ) :
    Once (start reprOf twin attempt app).1 := by
  have he : Once (enterLifespans twin attempt.lifespans app).1 := ⟨ho.nodup, ho.fresh⟩
  cases houtcome : (enterLifespans twin attempt.lifespans app).2 with
  | raised error =>
    rw [start_of_raised reprOf houtcome]
    exact he
  | returned value =>
    rw [start_of_returned reprOf houtcome]
    exact once_runStartupHandlers reprOf he attempt.handlers

private theorem once_endShutdown (ho : Once app) (outcome : Outcome Unit PyErr) :
    Once (endShutdown app outcome).1 := by
  have hr : Once app.reset := ⟨nodup_nil, fun _ => rfl⟩
  cases outcome with
  | returned value => exact hr
  | raised error =>
    simp only [endShutdown]
    split
    · exact hr
    · exact ho

private theorem once_step (event : Event υ) (app next : Application υ)
    (hstep : step reprOf event app = some next) (ho : Once app) : Once next := by
  cases hstep
  cases event with
  | lifespanStartup attempt =>
    have hs := once_start reprOf ho app.twin attempt
    simp only [respond]
    split
    · exact ⟨hs.nodup, hs.fresh⟩
    · split
      · exact ⟨hs.nodup, hs.fresh⟩
      · exact hs
  | lifespanShutdown handlers =>
    have he : Once { app with held := (app.twin.shutdown app.held).1 } :=
      ⟨ho.nodup, ho.fresh⟩
    simp only [respond]
    split
    · exact once_endShutdown he _
    · exact once_endShutdown he _
  | http attempt =>
    have hs := once_start reprOf ho .worker attempt
    simp only [respond]
    split
    · exact ho
    · split
      · exact ho
      · split
        · exact hs
        · exact ⟨hs.nodup, hs.fresh⟩

/-- After `lifespan.startup.failed` an HTTP call is served only once a startup has succeeded,
in every run in which the lifespans complete; and in every run at all no startup handler is
executed twice in a cycle. -/
theorem failed_startup_refuses_http (twin : Twin) {events : List (Event υ)} {app : Application υ}
    (hrun : runActions (step reprOf) events (created twin) = some app) :
    (Meets (step reprOf) Sound events (created twin) → ∀ attempt, Sound app (.http attempt) →
        (respond reprOf app (.http attempt)).2 = .served →
        (respond reprOf app (.http attempt)).1.refusing = false) ∧
      app.executed.Nodup := by
  constructor
  · intro hs attempt hh
    have hg := hs.keeps hrun (gated_step reprOf) (gated_created twin)
    exact (gated_http reprOf hg hh).2
  · have ho : Once (created twin : Application υ) := ⟨nodup_nil, fun _ => rfl⟩
    exact ((reaches_of_runActions hrun).keeps (once_step reprOf) ho).nodup

end Cycle

section Inputs

def boom : PyErr := ⟨["ValueError", "Exception", "BaseException", "object"], "boom"⟩

def noRepr : Option PyErr → String := fun _ => ""

def failingHandler : Attempt Nat := ⟨[], [.raised boom]⟩

def cleanStart : Attempt Nat := ⟨[], [.returned ()]⟩

def failingLifespan : Attempt Nat :=
  ⟨[.returned (.asyncManager ⟨.raised boom, fun _ => .returned ()⟩)], [.returned ()]⟩

end Inputs

def restarted : List (Event Nat) := [.lifespanStartup failingHandler, .lifespanShutdown []]

theorem served_after_restart :
    ∃ app : Application Nat, runActions (step noRepr) restarted (created .worker) = some app ∧
      app.refusing = true ∧ (respond noRepr app (.http cleanStart)).1.refusing = false := by
  have hn : Installs ([] : List (Lifespan Nat)) := by
    intro managers hm
    cases hm
    simp
  have hs : Meets (step noRepr) Sound restarted (created .worker) := by
    refine ⟨fun _ => ⟨hn, fun hinstalled => nomatch hinstalled⟩, fun _ _ => ⟨trivial, ?_⟩⟩
    exact fun _ _ => trivial
  exact ⟨_, rfl, rfl, (@failed_startup_refuses_http Nat noRepr .worker restarted _ rfl).1 hs
    cleanStart (fun _ => hn) rfl⟩

/-- The lifespan raises at `__aenter__` and `lifespan.startup.failed` is sent; the next HTTP
call skips the lifespan, since its manager is stored, and is served. -/
theorem served_after_failed_lifespan :
    let failed := respond noRepr (created .worker) (.lifespanStartup failingLifespan)
    let called := respond noRepr failed.1 (.http failingLifespan)
    failed.2 = .startupFailed "boom" ∧ called.2 = .served ∧ called.1.refusing = true := by
  decide

end FastapiTurbo.StartupCycle
