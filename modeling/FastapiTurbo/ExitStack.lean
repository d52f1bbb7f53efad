import FastapiTurbo.HandleRequest
import Mathlib.Logic.Nontrivial.Basic

/-! The exception that leaves the yield dependencies of a failed handler.
`teardown_generator_deps_error` walks the entered generators by hand; what it stands
for is a stack of context managers, each made of one generator. -/
namespace FastapiTurbo.ExitStack

open Lib Introspection HandleRequest

variable {χ : Type}

/-- The two exceptions of a context manager whose generator yields a second time:
`RuntimeError("generator didn't stop")` and `RuntimeError("generator didn't stop
after throw()")`. -/
structure Unstopped (χ : Type) where
  afterSend : χ
  afterThrow : χ

/-- The exit of one context manager, from the exception that reaches it to the one
that leaves it. -/
def exitStep (unstopped : Unstopped χ) (live : Option χ) (gen : LiveGenerator χ) : Option χ :=
  match live with
  | some error =>
    match gen.generator.throw error with
    | .stopped => none
    | .raised other => some other
    | .yielded => some unstopped.afterThrow
  | none =>
    match gen.generator.send with
    | .stopped => none
    | .raised other => some other
    | .yielded => some unstopped.afterSend

/-- The exits of the context managers entered for `genDeps`, the innermost first. -/
def exitStack (unstopped : Unstopped χ) (genDeps : List (LiveGenerator χ)) (original : χ) :
    Option χ :=
  genDeps.reverse.foldl (exitStep unstopped) (some original)

def errorStep (live : Option χ) (gen : LiveGenerator χ) : Option χ :=
  match live with
  | some error =>
    match gen.generator.throw error with
    | .stopped => none
    | .raised other => some other
    | .yielded => some error
  | none => none

private theorem errorLoop_snd (live : Option χ) (items : List (LiveGenerator χ)) :
    (errorLoop live items).2 = items.foldl errorStep live := by
  induction items generalizing live with
  | nil => cases live <;> rfl
  | cons gen rest ih =>
    rw [List.foldl_cons]
    cases live with
    | none => exact ih none
    | some error =>
      simp only [errorLoop, ih]
      cases ht : gen.generator.throw error <;> simp [errorStep, ht]

theorem teardownGeneratorDepsError_snd (fastapiError : χ) (genDeps : List (LiveGenerator χ))
    (original : χ) :
    (teardownGeneratorDepsError fastapiError genDeps original).2 =
      (genDeps.reverse.foldl errorStep (some original)).getD fastapiError := by
  rw [teardownGeneratorDepsError, errorLoop_snd]

/-- The generator does not yield again when the live exception is thrown into it, and
finishes when it is resumed normally. -/
def Finishes (unstopped : Unstopped χ) (live : Option χ) (gen : LiveGenerator χ) : Prop :=
  match live with
  | some error => gen.generator.throw error = .yielded → error = unstopped.afterThrow
  | none => gen.generator.send = .stopped

theorem errorStep_eq_exitStep_iff (unstopped : Unstopped χ) (live : Option χ)
    (gen : LiveGenerator χ) :
    errorStep live gen = exitStep unstopped live gen ↔ Finishes unstopped live gen := by
  cases live with
  | none => cases hs : gen.generator.send <;> simp [errorStep, exitStep, Finishes, hs]
  | some error =>
    cases ht : gen.generator.throw error <;>
      simp [errorStep, exitStep, Finishes, ht]

/-- Every generator, from the innermost on, finishes on the exception that leaves the
context managers inside of it. -/
def AllFinish (unstopped : Unstopped χ) (genDeps : List (LiveGenerator χ)) (original : χ) :
    Prop :=
  ∀ outer gen inner, genDeps = outer ++ gen :: inner →
    Finishes unstopped (exitStack unstopped inner original) gen

section

variable (unstopped : Unstopped χ)

theorem exitStack_cons (gen : LiveGenerator χ) (inner : List (LiveGenerator χ)) (original : χ) :
    exitStack unstopped (gen :: inner) original =
      exitStep unstopped (exitStack unstopped inner original) gen := by
  simp [exitStack, List.foldl_append]

theorem allFinish_nil (original : χ) : AllFinish unstopped [] original := by
  intro outer gen inner hs
  simp at hs

theorem allFinish_cons (gen : LiveGenerator χ) (inner : List (LiveGenerator χ)) (original : χ) :
    AllFinish unstopped (gen :: inner) original ↔
      Finishes unstopped (exitStack unstopped inner original) gen ∧
        AllFinish unstopped inner original := by
  constructor
  · intro hf
    refine ⟨hf [] gen inner rfl, ?_⟩
    rintro outer other deeper rfl
    exact hf (gen :: outer) other deeper rfl
  · rintro ⟨hgen, hinner⟩ outer other deeper hs
    cases outer with
    | nil =>
      cases hs
      exact hgen
    | cons head outer =>
      cases hs
      exact hinner outer other deeper rfl

theorem live_eq_exitStack_iff (genDeps : List (LiveGenerator χ)) (original : χ) :
    (∀ inner, inner <:+ genDeps →
      inner.reverse.foldl errorStep (some original) = exitStack unstopped inner original) ↔
      AllFinish unstopped genDeps original := by
  constructor
  · rintro hs outer gen inner rfl
    have hinner := hs inner ⟨outer ++ [gen], by simp⟩
    have hgen := hs (gen :: inner) ⟨outer, rfl⟩
    rw [exitStack_cons, List.reverse_cons, List.foldl_append, hinner] at hgen
    exact (errorStep_eq_exitStep_iff unstopped _ gen).1 hgen
  · intro hf inner
    -- From the innermost generator outwards: the two walks agree inside of it.
    induction inner with
    | nil => exact fun _ => rfl
    | cons gen inner ih =>
      rintro ⟨outer, rfl⟩
      have hinner := ih ⟨outer ++ [gen], by simp⟩
      rw [exitStack_cons, List.reverse_cons, List.foldl_append, hinner]
      exact (errorStep_eq_exitStep_iff unstopped _ gen).2 (hf outer gen inner rfl)

end

private theorem getD_eq_getD_iff [Nontrivial χ] (live other : Option χ) :
    (∀ fallback, live.getD fallback = other.getD fallback) ↔ live = other := by
  constructor
  · intro hs
    obtain ⟨first, second, hne⟩ := exists_pair_ne χ
    cases live with
    | some error =>
      cases other with
      | some _ => exact congrArg some (hs first)
      | none => exact absurd ((hs first).symm.trans (hs second)) hne
    | none =>
      cases other with
      | some error => exact absurd ((hs first).trans (hs second).symm) hne
      | none => rfl
  · rintro rfl fallback
    rfl

/-- The error that `teardown_generator_deps_error` returns is the one of the exit stack,
for the entered generators and for the inner ones of them, exactly if all of them
finish. -/
theorem teardown_error_eq_exitStack_iff [Nontrivial χ] (unstopped : Unstopped χ)
    (genDeps : List (LiveGenerator χ)) (original : χ) :
    (∀ inner, inner <:+ genDeps → ∀ fastapiError,
        (teardownGeneratorDepsError fastapiError inner original).2 =
          (exitStack unstopped inner original).getD fastapiError) ↔
      AllFinish unstopped genDeps original := by
  simp only [teardownGeneratorDepsError_snd, getD_eq_getD_iff]
  exact live_eq_exitStack_iff unstopped genDeps original

def contextlibErrors : Unstopped String :=
  ⟨"generator didn't stop", "generator didn't stop after throw()"⟩

def swallowing (index : Nat) : LiveGenerator String :=
  ⟨index, ⟨.stopped, fun _ => .stopped, fun _ => false⟩, false⟩

def committing (index : Nat) (commit : Resumed String) : LiveGenerator String :=
  ⟨index, ⟨commit, fun error => .raised error, fun _ => false⟩, false⟩

theorem committed_session_error :
    (teardownGeneratorDepsError "FastAPIError" [committing 0 .stopped, swallowing 1]
        "ValueError").2 = "FastAPIError" :=
  have hf : AllFinish contextlibErrors [committing 0 .stopped, swallowing 1]
      "ValueError" := by
    simp [allFinish_cons, allFinish_nil, exitStack, exitStep, Finishes, committing, swallowing]
  have : Nontrivial String := ⟨"ValueError", "FastAPIError", by decide⟩
  (teardown_error_eq_exitStack_iff contextlibErrors _ "ValueError").2 hf _
    List.suffix_rfl "FastAPIError"

/-- The commit that fails after a swallowed error is reported as the swallowed error. -/
theorem failed_commit_is_lost :
    (teardownGeneratorDepsError "FastAPIError"
        [committing 0 (.raised "IntegrityError"), swallowing 1] "ValueError").2 =
      "FastAPIError" ∧
    (exitStack contextlibErrors
        [committing 0 (.raised "IntegrityError"), swallowing 1] "ValueError").getD
      "FastAPIError" = "IntegrityError" := by
  decide

end FastapiTurbo.ExitStack
