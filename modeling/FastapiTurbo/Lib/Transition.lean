import Mathlib.Logic.Relation

/-! Systems that move by actions.  An action that is not enabled in a state gives
`none` there. -/
namespace FastapiTurbo.Lib

variable {α σ : Type}

def Moves (step : α → σ → Option σ) (before after : σ) : Prop :=
  ∃ action, step action before = some after

abbrev Reaches (step : α → σ → Option σ) : σ → σ → Prop :=
  Relation.ReflTransGen (Moves step)

def runActions (step : α → σ → Option σ) : List α → σ → Option σ
  | [], state => some state
  | action :: rest, state => (step action state).bind (runActions step rest)

theorem runActions_append (step : α → σ → Option σ) (front back : List α) (state : σ) :
    runActions step (front ++ back) state =
      (runActions step front state).bind (runActions step back) := by
  induction front generalizing state with
  | nil => rfl
  | cons action rest ih =>
    rw [List.cons_append, runActions, runActions, Option.bind_assoc]
    exact Option.bind_congr fun next _ => ih next

variable {step : α → σ → Option σ} {before : σ} {holds : σ → Prop}

theorem exists_runActions_append {front back : List α} {mid : σ}
    (hf : runActions step front before = some mid)
    (hb : ∃ after, runActions step back mid = some after ∧ holds after) :
    ∃ after, runActions step (front ++ back) before = some after ∧ holds after := by
  rw [runActions_append, hf]
  exact hb

variable {actions : List α} {after : σ}

theorem reaches_of_runActions (hrun : runActions step actions before = some after) :
    Reaches step before after := by
  induction actions generalizing before with
  | nil =>
    cases hrun
    exact .refl
  | cons action rest ih =>
    obtain ⟨next, hn, hr⟩ := Option.bind_eq_some_iff.1 hrun
    exact .head ⟨action, hn⟩ (ih hr)

theorem Reaches.keeps (hr : Reaches step before after)
    (hs : ∀ action state next, step action state = some next → holds state → holds next)
    (hb : holds before) : holds after := by
  induction hr with
  | refl => exact hb
  | tail _ hm ih =>
    obtain ⟨action, hn⟩ := hm
    exact hs action _ _ hn ih

/-- Every action of a run meets a condition on the state it starts from. -/
def Meets (step : α → σ → Option σ) (condition : σ → α → Prop) : List α → σ → Prop
  | [], _ => True
  | action :: rest, state =>
    condition state action ∧ ∀ next, step action state = some next → Meets step condition rest next

instance Meets.decidable (step : α → σ → Option σ) (condition : σ → α → Prop)
    [∀ state action, Decidable (condition state action)] :
    ∀ actions state, Decidable (Meets step condition actions state)
  | [], _ => .isTrue trivial
  | action :: rest, state =>
    have : Decidable (∀ next, step action state = some next →
        Meets step condition rest next) :=
      match step action state with
      | none => .isTrue nofun
      | some next =>
        match Meets.decidable step condition rest next with
        | .isTrue hrest => .isTrue fun _ hnext => Option.some.inj hnext ▸ hrest
        | .isFalse hrest => .isFalse fun hall => hrest (hall next rfl)
    inferInstanceAs (Decidable (_ ∧ _))

variable {condition : σ → α → Prop}

theorem Meets.keeps (hm : Meets step condition actions before)
    (hrun : runActions step actions before = some after)
    (hs : ∀ action state next, condition state action → step action state = some next →
      holds state → holds next) (hb : holds before) : holds after := by
  induction actions generalizing before with
  | nil =>
    cases hrun
    exact hb
  | cons action rest ih =>
    obtain ⟨next, hn, hr⟩ := Option.bind_eq_some_iff.1 hrun
    exact ih (hm.2 next hn) hr (hs action before next hm.1 hn hb)

theorem Meets.of_append {front back : List α} {between : σ}
    (hm : Meets step condition (front ++ back) before)
    (hf : runActions step front before = some between) :
    Meets step condition front before ∧ Meets step condition back between := by
  induction front generalizing before with
  | nil =>
    cases hf
    exact ⟨trivial, hm⟩
  | cons action rest ih =>
    obtain ⟨next, hn, hr⟩ := Option.bind_eq_some_iff.1 hf
    obtain ⟨ht, hb⟩ := ih (hm.2 next hn) hr
    refine ⟨⟨hm.1, ?_⟩, hb⟩
    intro other ho
    rw [hn] at ho
    cases ho
    exact ht

theorem meets_iff :
    Meets step condition actions before ↔
      ∀ front action back between, actions = front ++ action :: back →
        runActions step front before = some between → condition between action := by
  induction actions generalizing before with
  | nil => simp [Meets]
  | cons first rest ih =>
    constructor
    · rintro ⟨hfirst, hr⟩ front action back between hs hf
      cases front with
      | nil =>
        cases hs
        cases hf
        exact hfirst
      | cons head front =>
        cases hs
        obtain ⟨next, hn, hf⟩ := Option.bind_eq_some_iff.1 hf
        exact ih.1 (hr next hn) front action back between rfl hf
    · intro hall
      refine ⟨hall [] first rest before rfl rfl, fun next hn => ih.2 ?_⟩
      rintro front action back between rfl hf
      refine hall (first :: front) action back between rfl ?_
      rw [runActions, hn]
      exact hf

section Termination

variable {step : α → σ → Option σ} {holds : σ → Prop} {measure : σ → Nat}
    (hkeeps : ∀ action state next, step action state = some next → holds state → holds next)
    (hdecreases : ∀ action state next, step action state = some next → holds state →
      measure next < measure state)

include hkeeps hdecreases

theorem length_le_measure {actions : List α} {before after : σ} (hb : holds before)
    (hrun : runActions step actions before = some after) : actions.length ≤ measure before := by
  induction actions generalizing before with
  | nil => exact Nat.zero_le _
  | cons action rest ih =>
    obtain ⟨next, hn, hr⟩ := Option.bind_eq_some_iff.1 hrun
    have hl := ih (hkeeps action before next hn hb) hr
    have hless := hdecreases action before next hn hb
    rw [List.length_cons]
    omega

theorem exists_reaches_final {final : σ → Prop}
    (hp : ∀ state, holds state → ¬final state →
      ∃ action next, step action state = some next)
    {before : σ} (hb : holds before) : ∃ after, Reaches step before after ∧ final after := by
  induction hbound : measure before using Nat.strongRecOn generalizing before with
  | ind bound ih =>
    by_cases hf : final before
    · exact ⟨before, .refl, hf⟩
    · obtain ⟨action, next, hn⟩ := hp before hb hf
      have hl := hdecreases action before next hn hb
      obtain ⟨after, hr, ha⟩ :=
        ih (measure next) (hbound ▸ hl) (hkeeps action before next hn hb) rfl
      exact ⟨after, .head ⟨action, hn⟩ hr, ha⟩

end Termination

end FastapiTurbo.Lib
