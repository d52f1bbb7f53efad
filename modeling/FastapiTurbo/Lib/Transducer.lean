import FastapiTurbo.Lib.Transition

/-! Machines that answer each input with an outcome and emit on the way.  An input that is
never answered ends the run. -/
namespace FastapiTurbo.Lib

variable {ι ο φ σ τ : Type}

structure Reply (ο φ σ : Type) where
  outcome : ο
  emitted : List φ
  next : σ

def outcomes (step : ι → σ → Option (Reply ο φ σ)) : List ι → σ → List ο
  | [], _ => []
  | input :: rest, state =>
    match step input state with
    | none => []
    | some reply => reply.outcome :: outcomes step rest reply.next

def emissions (step : ι → σ → Option (Reply ο φ σ)) : List ι → σ → List φ
  | [], _ => []
  | input :: rest, state =>
    match step input state with
    | none => []
    | some reply => reply.emitted ++ emissions step rest reply.next

def advance (step : ι → σ → Option (Reply ο φ σ)) (input : ι) (state : σ) : Option σ :=
  (step input state).map Reply.next

/-- What an observer of two runs sees is the same. -/
def ObservedAlike (left : ι → σ → Option (Reply ο φ σ)) (right : ι → τ → Option (Reply ο φ τ))
    (inputs : List ι) (state : σ) (other : τ) : Prop :=
  outcomes left inputs state = outcomes right inputs other ∧
    emissions left inputs state = emissions right inputs other

inductive Lockstep (related : σ → τ → Prop) :
    Option (Reply ο φ σ) → Option (Reply ο φ τ) → Prop
  | unanswered : Lockstep related none none
  | answered (outcome : ο) (emitted : List φ) {next : σ} {other : τ} (hnext : related next other) :
      Lockstep related (some ⟨outcome, emitted, next⟩) (some ⟨outcome, emitted, other⟩)

section

variable {left : ι → σ → Option (Reply ο φ σ)} {right : ι → τ → Option (Reply ο φ τ)}

theorem head?_outcomes (input : ι) (rest : List ι) (state : σ) :
    (outcomes left (input :: rest) state).head? = (left input state).map Reply.outcome := by
  rw [outcomes]
  cases left input state <;> rfl

theorem ObservedAlike.outcome_eq {input : ι} {rest : List ι} {state : σ} {other : τ}
    (ha : ObservedAlike left right (input :: rest) state other) :
    (left input state).map Reply.outcome = (right input other).map Reply.outcome := by
  rw [← head?_outcomes input rest state, ← head?_outcomes input rest other, ha.1]

variable {related : σ → τ → Prop} {agrees : σ → ι → Prop}

theorem observedAlike_iff_meets
    (ha : ∀ input state other, related state other → agrees state input →
      Lockstep related (left input state) (right input other))
    (hd : ∀ input rest state other, related state other → ¬agrees state input →
      ¬ObservedAlike left right (input :: rest) state other)
    (inputs : List ι) {state : σ} {other : τ} (hr : related state other) :
    ObservedAlike left right inputs state other ↔ Meets (advance left) agrees inputs state := by
  induction inputs generalizing state other with
  | nil => exact ⟨fun _ => trivial, fun _ => ⟨rfl, rfl⟩⟩
  | cons input rest ih =>
    by_cases hc : agrees state input
    case neg =>
      exact ⟨fun halike => absurd halike (hd input rest state other hr hc),
        fun hm => absurd hm.1 hc⟩
    have hs := ha input state other hr hc
    rw [ObservedAlike, outcomes, outcomes, emissions, emissions, Meets, advance]
    generalize left input state = reply at hs ⊢
    generalize right input other = answer at hs ⊢
    cases hs with
    | unanswered => simp [hc]
    | answered outcome emitted hn => simpa [hc, ObservedAlike] using ih hn

end

end FastapiTurbo.Lib
