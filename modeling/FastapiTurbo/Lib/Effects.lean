import FastapiTurbo.Lib.Coroutine

/-! Code that performs effects in order and may raise, as a monad over `Run`. -/
namespace FastapiTurbo.Lib

def Eff (ε χ ν : Type) : Type :=
  Run ε ν χ

namespace Eff

variable {ε χ ν μ : Type}

def effects (run : Eff ε χ ν) : List ε :=
  Run.effects run

def outcome (run : Eff ε χ ν) : Outcome ν χ :=
  Run.outcome run

def perform (effect : ε) : Eff ε χ Unit :=
  Run.mk [effect] (.returned ())

def ofOutcome (outcome : Outcome ν χ) : Eff ε χ ν :=
  Run.mk [] outcome

def bind (run : Eff ε χ ν) (next : ν → Eff ε χ μ) : Eff ε χ μ :=
  match run.outcome with
  | .returned value => Run.after run.effects (next value)
  | .raised error => Run.mk run.effects (.raised error)

def catching (run : Eff ε χ ν) (handler : χ → Eff ε χ ν) : Eff ε χ ν :=
  match run.outcome with
  | .returned _ => run
  | .raised error => Run.after run.effects (handler error)

/-- Code around a computation that makes something of its outcome, be it a value or an
exception. -/
def settle (run : Eff ε χ ν) (after : Outcome ν χ → Outcome μ χ) : Eff ε χ μ :=
  Run.mk run.effects (after run.outcome)

@[simp] theorem effects_settle (run : Eff ε χ ν) (after : Outcome ν χ → Outcome μ χ) :
    (run.settle after).effects = run.effects :=
  rfl

@[simp] theorem outcome_settle (run : Eff ε χ ν) (after : Outcome ν χ → Outcome μ χ) :
    (run.settle after).outcome = after run.outcome :=
  rfl

instance : Monad (Eff ε χ) where
  pure value := ofOutcome (.returned value)
  bind := bind

@[simp] theorem effects_ofOutcome (result : Outcome ν χ) :
    (ofOutcome result : Eff ε χ ν).effects = [] :=
  rfl

@[simp] theorem bind_ofOutcome_returned (value : ν) (next : ν → Eff ε χ μ) :
    (ofOutcome (.returned value) >>= next) = next value :=
  rfl

@[simp] theorem bind_ofOutcome_raised (error : χ) (next : ν → Eff ε χ μ) :
    ((ofOutcome (.raised error) : Eff ε χ ν) >>= next) = ofOutcome (.raised error) :=
  rfl

@[simp] theorem effects_perform_bind (effect : ε) (next : Unit → Eff ε χ μ) :
    (perform effect >>= next).effects = effect :: (next ()).effects :=
  rfl

@[simp] theorem outcome_ofOutcome (result : Outcome ν χ) :
    (ofOutcome result : Eff ε χ ν).outcome = result :=
  rfl

@[simp] theorem outcome_perform_bind (effect : ε) (next : Unit → Eff ε χ μ) :
    (perform effect >>= next).outcome = (next ()).outcome :=
  rfl

theorem bind_bind {κ : Type} (run : Eff ε χ ν) (next : ν → Eff ε χ μ)
    (last : μ → Eff ε χ κ) :
    (run >>= next) >>= last = run >>= fun value => next value >>= last := by
  change bind (bind run next) last = bind run fun value => bind (next value) last
  obtain ⟨effects, outcome⟩ := run
  cases outcome with
  | raised error => rfl
  | returned value =>
    cases hn : next value with
    | mk later result =>
      cases result with
      | raised error =>
        simp only [bind, Eff.outcome, Eff.effects, Run.after, hn]
        rfl
      | returned result =>
        simp only [bind, Eff.outcome, Eff.effects, Run.after, hn, List.append_assoc]
        rfl

instance : LawfulMonad (Eff ε χ) :=
  LawfulMonad.mk' _
    (by
      intro ν run
      obtain ⟨effects, outcome⟩ := run
      change bind _ (fun value => ofOutcome (.returned (id value))) = _
      cases outcome with
      | raised error => rfl
      | returned value =>
        simp only [bind, Eff.outcome, Eff.effects, Run.after, ofOutcome, List.append_nil]
        rfl)
    (fun _ _ => rfl)
    bind_bind

theorem effects_catching (run : Eff ε χ ν) (hd : χ → ν) :
    (catching run fun error => pure (hd error)).effects = run.effects := by
  obtain ⟨effects, outcome⟩ := run
  cases outcome with
  | returned value => rfl
  | raised error =>
    change effects ++ [] = effects
    rw [List.append_nil]

/-- Nothing escapes a `try` whose handler returns. -/
theorem outcome_catching_returned (run : Eff ε χ ν) (hd : χ → ν) :
    ∃ value, (catching run fun error => pure (hd error)).outcome = .returned value := by
  obtain ⟨effects, outcome⟩ := run
  cases outcome with
  | returned value => exact ⟨value, rfl⟩
  | raised error => exact ⟨hd error, rfl⟩

theorem effects_bind_of_returned {run : Eff ε χ ν} {value : ν}
    (hrun : run.outcome = .returned value) (next : ν → Eff ε χ μ) :
    (run >>= next).effects = run.effects ++ (next value).effects := by
  change (bind run next).effects = _
  simp only [bind, hrun]
  rfl

theorem outcome_bind_returned_iff (run : Eff ε χ ν) (next : ν → Eff ε χ μ) (result : μ) :
    (run >>= next).outcome = .returned result ↔
      ∃ value, run.outcome = .returned value ∧ (next value).outcome = .returned result := by
  obtain ⟨effects, outcome⟩ := run
  change (bind _ next).outcome = .returned result ↔ _
  cases outcome with
  | raised error => exact ⟨fun hr => (nomatch hr), fun ⟨_, hv, _⟩ => (nomatch hv)⟩
  | returned value =>
    refine ⟨fun hr => ⟨value, rfl, hr⟩, ?_⟩
    rintro ⟨other, ho, hr⟩
    cases ho
    exact hr

theorem effects_bind_of_silent (run : Eff ε χ ν) {next : ν → Eff ε χ μ}
    (hn : ∀ value, (next value).effects = []) : (run >>= next).effects = run.effects := by
  obtain ⟨effects, outcome⟩ := run
  change (bind _ next).effects = effects
  cases outcome with
  | raised error => rfl
  | returned value =>
    change effects ++ (next value).effects = effects
    rw [hn, List.append_nil]

end Eff

end FastapiTurbo.Lib
