import FastapiTurbo.HandleRequest
import FastapiTurbo.Lib.Generator

/-! Request-scope teardown that `_door_wrap_stream_teardown` defers to the end of a
streaming body.  The wrapper tears the dependencies down in a `finally`; what matters
is whether the user's body has been finished by then. -/
namespace FastapiTurbo.StreamTeardown

open Lib HandleRequest List

/-- The log of a wrapped body: effects of the body, its end by return, raise or close,
and actions on the dependency generators. -/
inductive Event (β χ : Type) where
  | body (effect : β)
  | bodyFinished
  | dependency (index : Nat) (action : Action χ)

variable {β ν χ : Type}

def observe : Gen β ν χ → Gen (Event β χ) ν χ
  | .done outcome => .emit .bodyFinished (.done outcome)
  | .emit effect rest => .emit (.body effect) (observe rest)
  | .yield value onClose next =>
    .yield value ⟨onClose.effects.map .body ++ [.bodyFinished], onClose.outcome⟩ (observe next)

/-- `maybe_defer_request_scope_to_stream`: the generators that are deferred. -/
def reqGens (genDeps : List (LiveGenerator χ)) : List (LiveGenerator χ) :=
  genDeps.filter fun live => !live.isFunctionScope

/-- `_teardown`: each generator is sent past its `yield`, and closed if it yields
again; what it raises is kept from the others. -/
def teardown (gens : List (LiveGenerator χ)) : List (Event β χ) :=
  gens.reverse.flatMap fun live => live.advance.map fun entry => .dependency entry.1 entry.2

/-- The `body_iterator` of a response over the user's generator.  A `StreamingResponse`
has a synchronous one in the hands of `iterate_in_threadpool`; a response class of the
user's own may have it bare. -/
inductive BodyIterator where
  | bareGenerator
  | iterateInThreadpool
  | asyncGenerator
  deriving DecidableEq

def BodyIterator.hasAiter : BodyIterator → Bool
  | .bareGenerator => false
  | .iterateInThreadpool | .asyncGenerator => true

/-- `yield from inner` in a `try`: a close reaches the inner generator first. -/
def wrappedSync (gens : List (LiveGenerator χ)) (inner : Gen (Event β χ) ν χ) :
    Gen (Event β χ) ν χ :=
  inner.finallyAround true (teardown gens)

/-- `async for chunk in inner: yield chunk` in a `try`: a close ends the loop and
leaves the inner generator where it is. -/
def wrappedAsync (gens : List (LiveGenerator χ)) (inner : Gen (Event β χ) ν χ) :
    Gen (Event β χ) ν χ :=
  inner.finallyAround false (teardown gens)

def doorWrapStreamTeardown (iterator : BodyIterator) (gens : List (LiveGenerator χ))
    (inner : Gen (Event β χ) ν χ) : Gen (Event β χ) ν χ :=
  if iterator.hasAiter then wrappedAsync gens inner else wrappedSync gens inner

inductive Use where
  | exhaust
  | closeAfter (chunks : Nat)

def Use.run (use : Use) (gen : Gen (Event β χ) ν χ) : List (Event β χ) :=
  match use with
  | .exhaust => gen.exhaust
  | .closeAfter chunks => gen.closeAfter chunks

def stream (iterator : BodyIterator) (gens : List (LiveGenerator χ)) (body : Gen β ν χ)
    (use : Use) :
    List (Event β χ) :=
  use.run (doorWrapStreamTeardown iterator gens (observe body))

def resumedIndex : Event β χ → Option Nat
  | .dependency index .send => some index
  | _ => none

/-- The dependencies are resumed once each, the last one entered first, and none of
them before the body is finished. -/
def TornDownAfterBody (gens : List (LiveGenerator χ)) (log : List (Event β χ)) : Prop :=
  log.filterMap resumedIndex = (gens.map LiveGenerator.index).reverse ∧
    ∀ before event after, log = before ++ event :: after →
      (resumedIndex event).isSome = true → .bodyFinished ∈ before

@[simp] theorem exhaust_observe (body : Gen β ν χ) :
    (observe body).exhaust = body.exhaust.map .body ++ [.bodyFinished] := by
  induction body with
  | done outcome => rfl
  | emit effect rest ih => simp [observe, Gen.exhaust, ih]
  | yield value onClose next ih => simpa [observe, Gen.exhaust] using ih

@[simp] theorem yields_observe (body : Gen β ν χ) : (observe body).yields = body.yields := by
  induction body with
  | done outcome => rfl
  | emit effect rest ih => exact ih
  | yield value onClose next ih => exact congrArg (· + 1) ih

theorem suspendAt_observe {body : Gen β ν χ} {count : Nat} {effs : List β}
    {onClose : Run β Unit χ} (hs : body.suspendAt count = (effs, some onClose)) :
    (observe body).suspendAt count =
      (effs.map .body,
        some ⟨onClose.effects.map .body ++ [.bodyFinished], onClose.outcome⟩) := by
  induction body generalizing count effs with
  | done outcome => simp [Gen.suspendAt_done] at hs
  | emit effect rest ih =>
    rw [Gen.suspendAt_emit, Prod.mk.injEq] at hs
    obtain ⟨rfl, hc⟩ := hs
    rw [observe, Gen.suspendAt_emit, ih (Prod.ext rfl hc), map_cons]
  | yield value close next ih =>
    cases count with
    | zero =>
      cases hs
      rfl
    | succ count => exact ih hs

private theorem filterMap_resumedIndex_advance (live : LiveGenerator χ) :
    (live.advance.map fun entry => (.dependency entry.1 entry.2 : Event β χ)).filterMap
      resumedIndex = [live.index] := by
  unfold LiveGenerator.advance
  cases live.generator.send <;> rfl

theorem filterMap_resumedIndex_teardown (gens : List (LiveGenerator χ)) :
    (teardown gens : List (Event β χ)).filterMap resumedIndex =
      (gens.map LiveGenerator.index).reverse := by
  unfold teardown
  rw [← map_reverse]
  induction gens.reverse with
  | nil => rfl
  | cons live rest ih =>
    rw [flatMap_cons, filterMap_append, filterMap_resumedIndex_advance, ih]
    rfl

def OfBody (front : List (Event β χ)) : Prop :=
  ∀ event ∈ front, resumedIndex event = none

theorem ofBody_map (effects : List β) : OfBody (effects.map (.body : β → Event β χ)) := by
  intro event hmem
  obtain ⟨effect, -, rfl⟩ := mem_map.1 hmem
  rfl

theorem OfBody.concat_bodyFinished {front : List (Event β χ)} (hf : OfBody front) :
    OfBody (front ++ [.bodyFinished]) := by
  intro event hmem
  rcases mem_append.1 hmem with hold | hnew
  · exact hf event hold
  · cases mem_singleton.1 hnew
    rfl

private theorem teardown_eq_cons {gens : List (LiveGenerator χ)} (hg : gens ≠ []) :
    ∃ index rest, (teardown gens : List (Event β χ)) = .dependency index .send :: rest := by
  unfold teardown
  cases hr : gens.reverse with
  | nil => exact absurd (reverse_eq_nil_iff.1 hr) hg
  | cons live rest =>
    rw [flatMap_cons]
    unfold LiveGenerator.advance
    cases live.generator.send <;> exact ⟨_, _, rfl⟩

theorem tornDownAfterBody_append_iff {front : List (Event β χ)} (hf : OfBody front)
    (gens : List (LiveGenerator χ)) :
    TornDownAfterBody gens (front ++ teardown gens) ↔ gens = [] ∨ .bodyFinished ∈ front := by
  have hn : front.filterMap resumedIndex = [] := filterMap_eq_nil_iff.2 hf
  constructor
  · rintro ⟨-, ho⟩
    by_cases hg : gens = []
    · exact .inl hg
    · obtain ⟨index, rest, ht⟩ := teardown_eq_cons hg
      exact .inr (ho front _ rest (by rw [ht]) rfl)
  · intro hfinished
    refine ⟨by rw [filterMap_append, hn, filterMap_resumedIndex_teardown, nil_append], ?_⟩
    intro before event after hlog hr
    -- A resumed dependency is not in the front, so the front is in what came before.
    rcases append_eq_append_iff.1 hlog with ⟨middle, rfl, hm⟩ | ⟨middle, rfl, hm⟩
    · rcases hfinished with rfl | hmem
      · simp [teardown] at hm
      · exact mem_append_left _ hmem
    · cases middle with
      | nil =>
        rcases hfinished with rfl | hmem
        · simp [teardown] at hm
        · simpa using hmem
      | cons head tail =>
        cases hm
        have hb := hf event (by simp)
        simp [hb] at hr

theorem tornDownAfterBody_nil_iff (gens : List (LiveGenerator χ)) :
    TornDownAfterBody gens ([] : List (Event β χ)) ↔ gens = [] := by
  constructor
  · rintro ⟨hindices, -⟩
    simpa using hindices.symm
  · rintro rfl
    refine ⟨rfl, ?_⟩
    intro before event after hlog
    simp at hlog

/-- The driver advances the body to its end, or it closes one that it has advanced and
that is a synchronous generator as it stands. -/
def FinishesBody (iterator : BodyIterator) (body : Gen β ν χ) : Use → Prop
  | .exhaust => True
  | .closeAfter 0 => False
  | .closeAfter (chunks + 1) => body.yields ≤ chunks ∨ iterator = .bareGenerator

section

variable (iterator : BodyIterator) (gens : List (LiveGenerator χ))

theorem doorWrapStreamTeardown_eq (inner : Gen (Event β χ) ν χ) :
    doorWrapStreamTeardown iterator gens inner =
      inner.finallyAround (!iterator.hasAiter) (teardown gens) := by
  cases iterator <;> rfl

theorem stream_exhaust (body : Gen β ν χ) :
    stream iterator gens body .exhaust =
      (body.exhaust.map .body ++ [.bodyFinished]) ++ teardown gens := by
  simp only [stream, Use.run, doorWrapStreamTeardown_eq, Gen.exhaust_finallyAround, exhaust_observe]

theorem stream_closeAfter_of_yields_le {body : Gen β ν χ} {chunks : Nat}
    (hchunks : body.yields ≤ chunks) :
    stream iterator gens body (.closeAfter (chunks + 1)) =
      stream iterator gens body .exhaust := by
  have hwrapped : (doorWrapStreamTeardown iterator gens (observe body)).yields ≤ chunks := by
    rw [doorWrapStreamTeardown_eq, Gen.yields_finallyAround, yields_observe]
    exact hchunks
  simp only [stream, Use.run, Gen.closeAfter, Gen.suspendAt_of_yields_le hwrapped]

private theorem stream_closeAfter_of_suspended {body : Gen β ν χ} {chunks : Nat} {effects : List β}
    {onClose : Run β Unit χ} (hsuspended : body.suspendAt chunks = (effects, some onClose)) :
    stream iterator gens body (.closeAfter (chunks + 1)) =
      (effects.map .body ++
          if iterator.hasAiter then [] else onClose.effects.map .body ++ [.bodyFinished]) ++
        teardown gens := by
  have hwrapped := Gen.suspendAt_finallyAround (!iterator.hasAiter) (teardown gens)
    (suspendAt_observe hsuspended)
  simp only [stream, Use.run, Gen.closeAfter, doorWrapStreamTeardown_eq, hwrapped]
  cases iterator.hasAiter <;> simp

end

/-- The deferred dependencies are torn down once each, in reverse order and after the
body, exactly if there are none or the driver's use of the stream finishes the body. -/
theorem stream_tornDownAfterBody_iff (iterator : BodyIterator)
    (genDeps : List (LiveGenerator χ)) (body : Gen β ν χ) (use : Use) :
    TornDownAfterBody (reqGens genDeps) (stream iterator (reqGens genDeps) body use) ↔
      reqGens genDeps = [] ∨ FinishesBody iterator body use := by
  have hexhaust : TornDownAfterBody (reqGens genDeps)
      (stream iterator (reqGens genDeps) body .exhaust) := by
    rw [stream_exhaust, tornDownAfterBody_append_iff (ofBody_map _).concat_bodyFinished]
    exact .inr (by simp)
  cases use with
  | exhaust => simpa [FinishesBody] using hexhaust
  | closeAfter chunks =>
    cases chunks with
    | zero =>
      change TornDownAfterBody _ [] ↔ _
      simp [FinishesBody, tornDownAfterBody_nil_iff]
    | succ chunks =>
      by_cases hchunks : body.yields ≤ chunks
      · rw [stream_closeAfter_of_yields_le iterator _ hchunks]
        simpa [FinishesBody, hchunks] using hexhaust
      · obtain ⟨effects, onClose, hsuspended⟩ :=
          Gen.suspendAt_of_lt_yields (Nat.lt_of_not_le hchunks)
        rw [stream_closeAfter_of_suspended iterator _ hsuspended]
        cases iterator with
        | bareGenerator =>
          have hfront := (@ofBody_map _ χ (effects ++ onClose.effects)).concat_bodyFinished
          rw [map_append, append_assoc] at hfront
          rw [BodyIterator.hasAiter, if_neg Bool.false_ne_true,
            tornDownAfterBody_append_iff hfront]
          simp [FinishesBody]
        | iterateInThreadpool | asyncGenerator =>
          rw [BodyIterator.hasAiter, if_pos rfl, append_nil,
            tornDownAfterBody_append_iff (ofBody_map effects)]
          simp [FinishesBody, hchunks]

def rowsGen : Gen String Nat String :=
  .yield 1 ⟨["close cursor"], .returned ()⟩
    (.yield 2 ⟨["close cursor"], .returned ()⟩ (.emit "close cursor" (.done (.returned ()))))

def sessionDep : LiveGenerator String :=
  ⟨0, ⟨.stopped, .raised, fun _ => false⟩, false⟩

/-- When the client goes away after the first row, the session of a body is closed while
the body still holds its cursor, unless the body is a bare synchronous generator. -/
theorem session_closed_under_body :
    stream .asyncGenerator (reqGens [sessionDep]) rowsGen (.closeAfter 1) =
        [.dependency 0 .send] ∧
      stream .iterateInThreadpool (reqGens [sessionDep]) rowsGen (.closeAfter 1) =
        [.dependency 0 .send] ∧
      stream .bareGenerator (reqGens [sessionDep]) rowsGen (.closeAfter 1) =
        [.body "close cursor", .bodyFinished, .dependency 0 .send] := by
  exact ⟨rfl, rfl, rfl⟩

end FastapiTurbo.StreamTeardown
