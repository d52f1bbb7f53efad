import FastapiTurbo.Lib.Coroutine

/-! Generators as finite scripts.  The consumer of a generator advances it to its end,
or closes it after some of its values; a generator that was never advanced has no
frame to unwind, so that closing it does nothing. -/
namespace FastapiTurbo.Lib

/-- A `yield` carries what a close at this point runs. -/
inductive Gen (ε ν χ : Type) where
  | done (outcome : Outcome Unit χ)
  | emit (effect : ε) (rest : Gen ε ν χ)
  | yield (value : ν) (onClose : Run ε Unit χ) (next : Gen ε ν χ)

namespace Gen

variable {ε ν χ : Type}

def exhaust : Gen ε ν χ → List ε
  | .done _ => []
  | .emit effect rest => effect :: rest.exhaust
  | .yield _ _ next => next.exhaust

def yields : Gen ε ν χ → Nat
  | .done _ => 0
  | .emit _ rest => rest.yields
  | .yield _ _ next => next.yields + 1

def suspendAt : Nat → Gen ε ν χ → List ε × Option (Run ε Unit χ)
  | _, .done _ => ([], none)
  | count, .emit effect rest =>
    let later := rest.suspendAt count
    (effect :: later.1, later.2)
  | 0, .yield _ onClose _ => ([], some onClose)
  | count + 1, .yield _ _ next => next.suspendAt count

def closeAfter : Nat → Gen ε ν χ → List ε
  | 0, _ => []
  | count + 1, gen =>
    match gen.suspendAt count with
    | (effects, some onClose) => effects ++ onClose.effects
    | (effects, none) => effects

def emitAll : List ε → Gen ε ν χ → Gen ε ν χ
  | [], rest => rest
  | effect :: effects, rest => .emit effect (emitAll effects rest)

/-- A generator that passes on the values of an inner one inside `try` and runs the
cleanup in `finally`.  A close at one of its values is passed on to the inner one or
not. -/
def finallyAround (closesInner : Bool) (cleanup : List ε) : Gen ε ν χ → Gen ε ν χ
  | .done outcome => emitAll cleanup (.done outcome)
  | .emit effect rest => .emit effect (rest.finallyAround closesInner cleanup)
  | .yield value onClose next =>
    .yield value
      (if closesInner then ⟨onClose.effects ++ cleanup, onClose.outcome⟩
        else ⟨cleanup, .returned ()⟩)
      (next.finallyAround closesInner cleanup)

@[simp] theorem exhaust_emitAll (effects : List ε) (rest : Gen ε ν χ) :
    (emitAll effects rest).exhaust = effects ++ rest.exhaust := by
  induction effects with
  | nil => rfl
  | cons effect effects ih => simp [emitAll, exhaust, ih]

theorem suspendAt_emit (effect : ε) (rest : Gen ε ν χ) (count : Nat) :
    (emit effect rest).suspendAt count =
      (effect :: (rest.suspendAt count).1, (rest.suspendAt count).2) := by
  cases count <;> rfl

theorem suspendAt_done (outcome : Outcome Unit χ) (count : Nat) :
    (done outcome : Gen ε ν χ).suspendAt count = ([], none) := by
  cases count <;> rfl

theorem suspendAt_of_yields_le {gen : Gen ε ν χ} {count : Nat} (hc : gen.yields ≤ count) :
    gen.suspendAt count = (gen.exhaust, none) := by
  induction gen generalizing count with
  | done outcome => exact suspendAt_done outcome count
  | emit effect rest ih => rw [suspendAt_emit, ih hc]; rfl
  | yield value onClose next ih =>
    cases count with
    | zero => exact absurd hc (Nat.not_succ_le_zero _)
    | succ count => exact ih (Nat.le_of_succ_le_succ hc)

theorem suspendAt_of_lt_yields {gen : Gen ε ν χ} {count : Nat} (hc : count < gen.yields) :
    ∃ effects onClose, gen.suspendAt count = (effects, some onClose) := by
  induction gen generalizing count with
  | done outcome => exact absurd hc (Nat.not_lt_zero _)
  | emit effect rest ih =>
    obtain ⟨effects, onClose, heq⟩ := ih hc
    exact ⟨effect :: effects, onClose, by rw [suspendAt_emit, heq]⟩
  | yield value onClose next ih =>
    cases count with
    | zero => exact ⟨[], onClose, rfl⟩
    | succ count => exact ih (Nat.lt_of_succ_lt_succ hc)

section Finally

variable (closesInner : Bool) (cleanup : List ε)

theorem exhaust_finallyAround (gen : Gen ε ν χ) :
    (gen.finallyAround closesInner cleanup).exhaust = gen.exhaust ++ cleanup := by
  induction gen with
  | done outcome => simp [finallyAround, exhaust]
  | emit effect rest ih | yield value onClose next ih => simp [finallyAround, exhaust, ih]

theorem yields_finallyAround (gen : Gen ε ν χ) :
    (gen.finallyAround closesInner cleanup).yields = gen.yields := by
  have hemitAll : ∀ (effects : List ε) (outcome : Outcome Unit χ),
      (emitAll effects (done outcome) : Gen ε ν χ).yields = 0 := by
    intro effects outcome
    induction effects with
    | nil => rfl
    | cons effect effects ih => exact ih
  induction gen with
  | done outcome => exact hemitAll cleanup outcome
  | emit effect rest ih => exact ih
  | yield value onClose next ih => exact congrArg (· + 1) ih

theorem suspendAt_finallyAround {gen : Gen ε ν χ} {count : Nat} {effects : List ε}
    {onClose : Run ε Unit χ} (hs : gen.suspendAt count = (effects, some onClose)) :
    ((gen.finallyAround closesInner cleanup).suspendAt count) =
      (effects, some (if closesInner then ⟨onClose.effects ++ cleanup, onClose.outcome⟩
        else ⟨cleanup, .returned ()⟩)) := by
  induction gen generalizing count effects with
  | done outcome => simp [suspendAt_done] at hs
  | emit effect rest ih =>
    rw [suspendAt_emit, Prod.mk.injEq] at hs
    obtain ⟨rfl, hc⟩ := hs
    rw [finallyAround, suspendAt_emit, ih (Prod.ext rfl hc)]
  | yield value close next ih =>
    cases count with
    | zero =>
      cases hs
      rfl
    | succ count => exact ih hs

end Finally

end Gen

end FastapiTurbo.Lib
