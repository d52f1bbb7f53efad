import FastapiTurbo.ExitStack
import FastapiTurbo.Lib.Tagged

/-! What becomes of the generators that the dependency loop entered.  Every exit of
`handle_request` logs the teardown actions under the number of the generator; a
generator is torn down if its part of the log is one action and, if it yields
again, a close, and if it has ended by then. -/
namespace FastapiTurbo.GeneratorTeardown

open Lib Extract Introspection HandleRequest ExitStack List

variable {ν χ δ : Type}

def resume (action : Action χ) : Resumed χ → List (Action χ)
  | .yielded => [action, .close]
  | _ => [action]

/-- The generator was resumed by exactly one teardown action. -/
def TornDownOnce (live : LiveGenerator χ) (actions : List (Action χ)) : Prop :=
  actions = [.close] ∨
    actions = resume .send live.generator.send ∨
    ∃ error, actions = resume (.throw error) (live.generator.throw error)

def Resumed.suspendedAt (point : YieldPoint χ) : Resumed χ → Option (YieldPoint χ)
  | .yielded => some point
  | _ => none

/-- Where an action leaves a generator that is suspended, `none` once it has ended. -/
def Generator.after (generator : Generator χ) (point : YieldPoint χ) :
    Action χ → Option (YieldPoint χ)
  | .send => Resumed.suspendedAt .afterSend generator.send
  | .throw error => Resumed.suspendedAt (.afterThrow error) (generator.throw error)
  | .close => if generator.ignoresExit point then some point else none

/-- No generator is left suspended by the actions. -/
def Ended (live : LiveGenerator χ) (actions : List (Action χ)) : Prop :=
  actions.foldl (fun point action => point.bind fun point =>
    Generator.after live.generator point action) (some .first) = none

structure TornDown (live : LiveGenerator χ) (actions : List (Action χ)) : Prop where
  once : TornDownOnce live actions
  ended : Ended live actions

def EndsOnClose (live : LiveGenerator χ) : Prop :=
  live.generator.ignoresExit .first = false

/-- Should the generator yield again, it ends when it is closed there. -/
def EndsOnSend (live : LiveGenerator χ) : Prop :=
  live.generator.send = .yielded → live.generator.ignoresExit .afterSend = false

def EndsOnThrow (error : χ) (live : LiveGenerator χ) : Prop :=
  live.generator.throw error = .yielded → live.generator.ignoresExit (.afterThrow error) = false

section Ends

variable {live : LiveGenerator χ}

theorem not_tornDownOnce_nil : ¬TornDownOnce live [] := by
  have hresume (action : Action χ) (resumed : Resumed χ) : [] ≠ resume action resumed := by
    cases resumed <;> simp [resume]
  rintro (hclose | hsend | ⟨error, hthrow⟩)
  · simp at hclose
  · exact hresume _ _ hsend
  · exact hresume _ _ hthrow

theorem tornDown_close_iff : TornDown live [.close] ↔ EndsOnClose live := by
  have hended : Ended live [.close] ↔ EndsOnClose live := by
    simp [Ended, EndsOnClose, Generator.after]
  exact ⟨fun htorn => hended.1 htorn.ended, fun hends => ⟨.inl rfl, hended.2 hends⟩⟩

theorem tornDown_send_iff :
    TornDown live (resume .send live.generator.send) ↔ EndsOnSend live := by
  have hended : Ended live (resume .send live.generator.send) ↔ EndsOnSend live := by
    unfold Ended EndsOnSend
    cases hsend : live.generator.send <;>
      simp [resume, Generator.after, hsend, Resumed.suspendedAt]
  exact ⟨fun htorn => hended.1 htorn.ended, fun hends => ⟨.inr (.inl rfl), hended.2 hends⟩⟩

theorem tornDown_throw_iff (error : χ) :
    TornDown live (resume (.throw error) (live.generator.throw error)) ↔
      EndsOnThrow error live := by
  have hended : Ended live (resume (.throw error) (live.generator.throw error)) ↔
      EndsOnThrow error live := by
    unfold Ended EndsOnThrow
    cases hthrow : live.generator.throw error <;>
      simp [resume, Generator.after, hthrow, Resumed.suspendedAt]
  exact ⟨fun htorn => hended.1 htorn.ended,
    fun hends => ⟨.inr (.inr ⟨error, rfl⟩), hended.2 hends⟩⟩

end Ends

def Distinct (genDeps : List (LiveGenerator χ)) : Prop :=
  genDeps.Pairwise fun live other => live.index ≠ other.index

def Numbered (genDeps : List (LiveGenerator χ)) : Prop :=
  genDeps.map LiveGenerator.index = List.range genDeps.length

variable {genDeps : List (LiveGenerator χ)}

theorem Numbered.distinct (hnumbered : Numbered genDeps) : Distinct genDeps := by
  have hnodup : (genDeps.map LiveGenerator.index).Nodup := hnumbered ▸ nodup_range
  exact pairwise_map.1 hnodup

theorem Numbered.concat (hnumbered : Numbered genDeps) (generator : Generator χ)
    (isFunctionScope : Bool) :
    Numbered (genDeps ++ [⟨genDeps.length, generator, isFunctionScope⟩]) :=
  map_eq_range_concat hnumbered rfl

theorem Distinct.reverse (hdistinct : Distinct genDeps) : Distinct genDeps.reverse :=
  pairwise_reverse.2 (hdistinct.imp fun hne hsame => hne hsame.symm)

section Loop

variable (extractor : Extractor ν δ) (buildInjectedObject : InjectedParam → Outcome ν χ)

private theorem callDep_numbered {param : DependencyParam ν χ} {depKwargs : Dict String ν}
    {genDeps : List (LiveGenerator χ)} {result : ν × List (LiveGenerator χ)}
    (hnumbered : Numbered genDeps)
    (hcall : callDep param depKwargs genDeps = .returned result) : Numbered result.2 := by
  unfold callDep at hcall
  split at hcall
  · rename_i enter _
    unfold enterSyncGeneratorDep at hcall
    cases henter : enter depKwargs with
    | yielded value generator =>
      rw [henter] at hcall
      cases hcall
      exact hnumbered.concat generator param.isFunctionScope
    | returned value =>
      rw [henter] at hcall
      cases hcall
      exact hnumbered
    | raised error => simp [henter] at hcall
  all_goals
    rename_i call _
    cases houtcome : call depKwargs with
    | returned value =>
      rw [houtcome] at hcall
      cases hcall
      exact hnumbered
    | raised error => simp [houtcome] at hcall

private theorem loopStep_numbered {state : LoopState ν χ δ} (hnumbered : Numbered state.genDeps)
    (param : Param ν χ) :
    Numbered (loopStep extractor buildInjectedObject state param).1.genDeps := by
  cases param with
  | dependency param =>
    simp only [loopStep, dependencyArm]
    split
    · exact hnumbered
    · split
      · exact hnumbered
      · split
        · rename_i hcall
          exact callDep_numbered hnumbered hcall
        · exact hnumbered
  | injected param =>
    simp only [loopStep, injectedArm]
    split
    · exact hnumbered
    · split <;> exact hnumbered
  | field param =>
    simp only [loopStep, fieldArm]
    split
    · exact hnumbered
    · split <;> exact hnumbered

theorem resolveParams_numbered (params : List (Param ν χ)) (state : LoopState ν χ δ)
    (hnumbered : Numbered state.genDeps) :
    Numbered (resolveParams extractor buildInjectedObject params state).1.genDeps := by
  induction params generalizing state with
  | nil => exact hnumbered
  | cons param rest ih =>
    have hstep := loopStep_numbered extractor buildInjectedObject hnumbered param
    unfold resolveParams
    split
    · rename_i hresult
      simpa [hresult] using hstep
    · rename_i next hresult
      rw [hresult] at hstep
      exact ih next hstep

end Loop

theorem advance_index (live : LiveGenerator χ) : ∀ entry ∈ live.advance, entry.1 = live.index := by
  unfold LiveGenerator.advance
  cases live.generator.send <;> simp

theorem advance_actions (live : LiveGenerator χ) :
    live.advance.map Prod.snd = resume .send live.generator.send := by
  unfold LiveGenerator.advance
  cases live.generator.send <;> rfl

@[simp] theorem taggedWith_advance_self (live : LiveGenerator χ) :
    taggedWith live.index live.advance = resume .send live.generator.send := by
  rw [taggedWith_own (advance_index live), advance_actions]

variable {live : LiveGenerator χ}

theorem taggedWith_advance_other {other : LiveGenerator χ} (hne : other.index ≠ live.index) :
    taggedWith live.index other.advance = [] :=
  taggedWith_eq_nil fun entry hmem => advance_index other entry hmem ▸ hne

theorem taggedWith_teardownGeneratorDeps (hdistinct : Distinct genDeps) (hmem : live ∈ genDeps) :
    taggedWith live.index (teardownGeneratorDeps genDeps true) = [.close] := by
  unfold teardownGeneratorDeps
  rw [taggedWith_flatMap LiveGenerator.index _ genDeps.reverse _ hdistinct.reverse
    (mem_reverse.2 hmem)]
  · rfl
  · simp

theorem taggedWith_teardownRequestScopeGens (hdistinct : Distinct genDeps)
    (hmem : live ∈ genDeps) (errored : Bool) :
    taggedWith live.index (teardownRequestScopeGens genDeps errored) =
      if live.isFunctionScope then []
      else if errored then [.close]
      else resume .send live.generator.send := by
  unfold teardownRequestScopeGens
  rw [taggedWith_flatMap LiveGenerator.index _ genDeps.reverse _ hdistinct.reverse
    (mem_reverse.2 hmem)]
  · cases live.isFunctionScope <;> cases errored <;> simp [advance_actions]
  · intro other _ entry hentry
    cases hscope : other.isFunctionScope with
    | true => simp [hscope] at hentry
    | false =>
      cases errored with
      | true => simp_all
      | false => exact advance_index other entry (by simpa [hscope] using hentry)

private theorem functionScopeLoop_index (gens : List (LiveGenerator χ)) :
    ∀ entry ∈ (functionScopeLoop gens).1, ∃ live ∈ gens, entry.1 = live.index := by
  induction gens with
  | nil => simp [functionScopeLoop]
  | cons live rest ih =>
    have hrest : ∀ entry ∈ (functionScopeLoop rest).1,
        ∃ other ∈ live :: rest, entry.1 = other.index := by
      intro entry hmem
      obtain ⟨other, hother, hindex⟩ := ih entry hmem
      exact ⟨other, mem_cons_of_mem live hother, hindex⟩
    have hown : ∀ entry ∈ live.advance, ∃ other ∈ live :: rest, entry.1 = other.index :=
      fun entry hmem => ⟨live, mem_cons_self, advance_index live entry hmem⟩
    unfold functionScopeLoop
    split
    · exact hrest
    · split
      · exact hown
      · intro entry hmem
        exact (mem_append.1 hmem).elim (hown entry) (hrest entry)

variable {gens : List (LiveGenerator χ)}

theorem taggedWith_functionScopeLoop_other {index : Nat}
    (hothers : ∀ live ∈ gens, live.index ≠ index) :
    taggedWith index (functionScopeLoop gens).1 = [] := by
  refine taggedWith_eq_nil fun entry hmem => ?_
  obtain ⟨live, hlive, hindex⟩ := functionScopeLoop_index gens entry hmem
  exact hindex ▸ hothers live hlive

def RaisesAfterYield (live : LiveGenerator χ) : Prop :=
  ∃ error, live.generator.send = .raised error

/-- The later generator does not keep the loop from the earlier one. -/
def Passable (later earlier : LiveGenerator χ) : Prop :=
  later.isFunctionScope = true → earlier.isFunctionScope = true → ¬RaisesAfterYield later

theorem functionScopeLoop_cons_of_raises (hscope : live.isFunctionScope = true) {error : χ}
    (hraises : live.generator.send = .raised error) (rest : List (LiveGenerator χ)) :
    functionScopeLoop (live :: rest) = (live.advance, some error) := by
  simp [functionScopeLoop, hscope, hraises]

theorem functionScopeLoop_cons_of_passes (hscope : live.isFunctionScope = true)
    (hpasses : ¬RaisesAfterYield live) (rest : List (LiveGenerator χ)) :
    functionScopeLoop (live :: rest) =
      (live.advance ++ (functionScopeLoop rest).1, (functionScopeLoop rest).2) := by
  cases hsend : live.generator.send with
  | raised error => exact absurd ⟨error, hsend⟩ hpasses
  | yielded | stopped => simp [functionScopeLoop, hscope, hsend]

theorem functionScopeLoop_cons_of_request (hscope : live.isFunctionScope = false)
    (rest : List (LiveGenerator χ)) :
    functionScopeLoop (live :: rest) = functionScopeLoop rest := by
  simp [functionScopeLoop, hscope]

theorem taggedWith_functionScopeLoop_request (hdistinct : Distinct gens) (hmem : live ∈ gens)
    (hscope : live.isFunctionScope = false) :
    taggedWith live.index (functionScopeLoop gens).1 = [] := by
  induction gens with
  | nil => simp at hmem
  | cons head rest ih =>
    obtain ⟨hhead, hrest⟩ := pairwise_cons.1 hdistinct
    cases hfunction : head.isFunctionScope with
    | false =>
      rw [functionScopeLoop_cons_of_request hfunction]
      rcases mem_cons.1 hmem with rfl | hlive
      · exact taggedWith_functionScopeLoop_other fun other hother => (hhead other hother).symm
      · exact ih hrest hlive
    | true =>
      have hlive : live ∈ rest := by
        rcases mem_cons.1 hmem with rfl | hlive
        · simp [hscope] at hfunction
        · exact hlive
      have hnone := taggedWith_advance_other (hhead live hlive)
      by_cases hraises : RaisesAfterYield head
      · obtain ⟨error, herror⟩ := hraises
        rw [functionScopeLoop_cons_of_raises hfunction herror, hnone]
      · rw [functionScopeLoop_cons_of_passes hfunction hraises, taggedWith_append, hnone,
          ih hrest hlive, nil_append]

/-- Where nothing keeps the loop from a generator, it resumes the generator once. -/
theorem taggedWith_functionScopeLoop_of_passable (hdistinct : Distinct gens)
    (hpassable : gens.Pairwise Passable) (hmem : live ∈ gens)
    (hscope : live.isFunctionScope = true) :
    taggedWith live.index (functionScopeLoop gens).1 = resume .send live.generator.send := by
  induction gens with
  | nil => simp at hmem
  | cons head rest ih =>
    obtain ⟨hhead, hrest⟩ := pairwise_cons.1 hdistinct
    obtain ⟨hpass, hpassRest⟩ := pairwise_cons.1 hpassable
    cases hfunction : head.isFunctionScope with
    | false =>
      rw [functionScopeLoop_cons_of_request hfunction]
      rcases mem_cons.1 hmem with rfl | hlive
      · simp [hscope] at hfunction
      · exact ih hrest hpassRest hlive
    | true =>
      rcases mem_cons.1 hmem with rfl | hlive
      · have hnone : taggedWith live.index (functionScopeLoop rest).1 = [] :=
          taggedWith_functionScopeLoop_other fun other hother => (hhead other hother).symm
        by_cases hraises : RaisesAfterYield live
        · obtain ⟨error, herror⟩ := hraises
          rw [functionScopeLoop_cons_of_raises hfunction herror, taggedWith_advance_self]
        · rw [functionScopeLoop_cons_of_passes hfunction hraises, taggedWith_append,
            taggedWith_advance_self, hnone, append_nil]
      · rw [functionScopeLoop_cons_of_passes hfunction (hpass live hlive hfunction hscope),
          taggedWith_append, taggedWith_advance_other (hhead live hlive), nil_append,
          ih hrest hpassRest hlive]

private theorem passable_of_tornDownOnce (hdistinct : Distinct gens)
    (htorn : ∀ live ∈ gens, live.isFunctionScope = true →
      TornDownOnce live (taggedWith live.index (functionScopeLoop gens).1)) :
    gens.Pairwise Passable := by
  induction gens with
  | nil => exact .nil
  | cons head rest ih =>
    obtain ⟨hhead, hrest⟩ := pairwise_cons.1 hdistinct
    cases hfunction : head.isFunctionScope with
    | false =>
      rw [functionScopeLoop_cons_of_request hfunction] at htorn
      exact pairwise_cons.2 ⟨fun live _ hscope => by simp [hfunction] at hscope,
        ih hrest fun live hlive => htorn live (mem_cons_of_mem head hlive)⟩
    | true =>
      by_cases hraises : RaisesAfterYield head
      · -- Here the loop returns, so that the rest may hold request-scope generators only.
        obtain ⟨error, herror⟩ := hraises
        rw [functionScopeLoop_cons_of_raises hfunction herror] at htorn
        have hrequest : ∀ live ∈ rest, live.isFunctionScope ≠ true := by
          intro live hlive hscope
          have honce := htorn live (mem_cons_of_mem head hlive) hscope
          rw [taggedWith_advance_other (hhead live hlive)] at honce
          exact not_tornDownOnce_nil honce
        refine pairwise_cons.2 ⟨fun live hlive _ hscope => absurd hscope (hrequest live hlive), ?_⟩
        exact pairwise_of_forall_mem_list fun live hlive other hother hscope =>
          absurd hscope (hrequest live hlive)
      · refine pairwise_cons.2 ⟨fun live _ _ _ => hraises, ih hrest fun live hlive hscope => ?_⟩
        have honce := htorn live (mem_cons_of_mem head hlive) hscope
        rwa [functionScopeLoop_cons_of_passes hfunction hraises, taggedWith_append,
          taggedWith_advance_other (hhead live hlive), nil_append] at honce

theorem functionScopeLoop_tornDown_iff (hdistinct : Distinct gens) :
    (∀ live ∈ gens, live.isFunctionScope = true →
        TornDown live (taggedWith live.index (functionScopeLoop gens).1)) ↔
      gens.Pairwise Passable ∧
        ∀ live ∈ gens, live.isFunctionScope = true → EndsOnSend live := by
  constructor
  · intro htorn
    have hpassable := passable_of_tornDownOnce hdistinct fun live hlive hscope =>
      (htorn live hlive hscope).once
    refine ⟨hpassable, fun live hlive hscope => tornDown_send_iff.1 ?_⟩
    rw [← taggedWith_functionScopeLoop_of_passable hdistinct hpassable hlive hscope]
    exact htorn live hlive hscope
  · rintro ⟨hpassable, hends⟩ live hlive hscope
    rw [taggedWith_functionScopeLoop_of_passable hdistinct hpassable hlive hscope]
    exact tornDown_send_iff.2 (hends live hlive hscope)

/-- A function-scope generator raises after its yield. -/
def Fails (genDeps : List (LiveGenerator χ)) : Prop :=
  ∃ live ∈ genDeps, live.isFunctionScope = true ∧ RaisesAfterYield live

theorem functionScopeLoop_isSome_iff (gens : List (LiveGenerator χ)) :
    (functionScopeLoop gens).2.isSome = true ↔ Fails gens := by
  unfold Fails
  induction gens with
  | nil => simp [functionScopeLoop]
  | cons head rest ih =>
    cases hfunction : head.isFunctionScope with
    | false => simp [functionScopeLoop_cons_of_request hfunction, ih, hfunction]
    | true =>
      by_cases hraises : RaisesAfterYield head
      · obtain ⟨error, herror⟩ := hraises
        rw [functionScopeLoop_cons_of_raises hfunction herror]
        exact iff_of_true rfl ⟨head, mem_cons_self, hfunction, error, herror⟩
      · rw [functionScopeLoop_cons_of_passes hfunction hraises]
        simp [ih, hraises]

/-- The teardown of a failed handler, from the innermost generator on: each ends on
what is thrown into it or, once an error was swallowed, on being resumed. -/
def ErrorEnds : Option χ → List (LiveGenerator χ) → Prop
  | _, [] => True
  | some error, gen :: rest => EndsOnThrow error gen ∧ ErrorEnds (errorStep (some error) gen) rest
  | none, gen :: rest => EndsOnSend gen ∧ ErrorEnds none rest

/-- A round of the loop of `teardown_generator_deps_error`. -/
theorem errorLoop_cons (error : Option χ) (head : LiveGenerator χ)
    (rest : List (LiveGenerator χ)) :
    ∃ block, (errorLoop error (head :: rest)).1 =
        block ++ (errorLoop (errorStep error head) rest).1 ∧
      (∀ entry ∈ block, entry.1 = head.index) ∧
      (ErrorEnds error (head :: rest) ↔
        TornDown head (block.map Prod.snd) ∧ ErrorEnds (errorStep error head) rest) := by
  cases error with
  | none =>
    refine ⟨head.advance, rfl, advance_index head, ?_⟩
    rw [advance_actions, tornDown_send_iff]
    exact .rfl
  | some error =>
    refine ⟨(resume (.throw error) (head.generator.throw error)).map (head.index, ·), ?_, ?_, ?_⟩
    · cases hthrow : head.generator.throw error <;>
        simp [errorLoop, errorStep, hthrow, resume]
    · simp
    · rw [map_map, show Prod.snd ∘ (head.index, ·) = (id : Action χ → Action χ) from rfl, map_id,
        tornDown_throw_iff]
      exact .rfl

private theorem errorLoop_index (error : Option χ) (gens : List (LiveGenerator χ)) :
    ∀ entry ∈ (errorLoop error gens).1, ∃ gen ∈ gens, entry.1 = gen.index := by
  induction gens generalizing error with
  | nil => cases error <;> simp [errorLoop]
  | cons head rest ih =>
    obtain ⟨block, hloop, hblock, -⟩ := errorLoop_cons error head rest
    intro entry hmem
    rw [hloop] at hmem
    rcases mem_append.1 hmem with hown | hother
    · exact ⟨head, mem_cons_self, hblock entry hown⟩
    · obtain ⟨gen, hgen, hindex⟩ := ih _ entry hother
      exact ⟨gen, mem_cons_of_mem head hgen, hindex⟩

theorem errorLoop_tornDown_iff (error : Option χ) (hdistinct : Distinct gens) :
    (∀ gen ∈ gens, TornDown gen (taggedWith gen.index (errorLoop error gens).1)) ↔
      ErrorEnds error gens := by
  induction gens generalizing error with
  | nil => cases error <;> simp [ErrorEnds]
  | cons head rest ih =>
    obtain ⟨hhead, hrest⟩ := pairwise_cons.1 hdistinct
    obtain ⟨block, hloop, hblock, hends⟩ := errorLoop_cons error head rest
    have hown : taggedWith head.index (errorLoop error (head :: rest)).1 =
        block.map Prod.snd := by
      have hnone : taggedWith head.index (errorLoop (errorStep error head) rest).1 = [] := by
        refine taggedWith_eq_nil fun entry hmem => ?_
        obtain ⟨gen, hgen, hindex⟩ := errorLoop_index _ rest entry hmem
        exact hindex ▸ (hhead gen hgen).symm
      rw [hloop, taggedWith_append, taggedWith_own hblock, hnone, append_nil]
    have hothers : ∀ gen ∈ rest, taggedWith gen.index (errorLoop error (head :: rest)).1 =
        taggedWith gen.index (errorLoop (errorStep error head) rest).1 := by
      intro gen hgen
      rw [hloop, taggedWith_append,
        taggedWith_eq_nil fun entry hmem => hblock entry hmem ▸ hhead gen hgen, nil_append]
    rw [hends, forall_mem_cons, hown, ← ih (errorStep error head) hrest]
    refine and_congr_right fun _ => forall₂_congr fun gen hgen => ?_
    rw [hothers gen hgen]

theorem closeAll_tornDown_iff (hdistinct : Distinct genDeps) (answer : Answer ν χ δ) :
    (∀ live ∈ genDeps, TornDown live (taggedWith live.index (closeAll genDeps answer).actions)) ↔
      ∀ live ∈ genDeps, EndsOnClose live := by
  refine forall₂_congr fun live hmem => ?_
  rw [closeAll, taggedWith_teardownGeneratorDeps hdistinct hmem, tornDown_close_iff]

/-- The teardown after the handler has returned: no function-scope generator that raises
after its yield was entered after another one, and each generator ends on what is done
to it.  The request-scope ones are closed if a function-scope one raises. -/
structure ReturnEnds (genDeps : List (LiveGenerator χ)) : Prop where
  passable : genDeps.Pairwise fun earlier later => Passable later earlier
  function : ∀ live ∈ genDeps, live.isFunctionScope = true → EndsOnSend live
  closed : Fails genDeps → ∀ live ∈ genDeps, live.isFunctionScope = false → EndsOnClose live
  resumed : ¬Fails genDeps → ∀ live ∈ genDeps, live.isFunctionScope = false → EndsOnSend live

theorem afterHandler_returned_actions (exchange : Exchange ν χ δ)
    (genDeps : List (LiveGenerator χ)) {result : ν}
    (hstream : exchange.isStreaming result = false) :
    (exchange.afterHandler genDeps (.returned result)).actions =
      (functionScopeLoop genDeps.reverse).1 ++
        teardownRequestScopeGens genDeps (functionScopeLoop genDeps.reverse).2.isSome := by
  simp only [Exchange.afterHandler, teardownFunctionScopeGens, hstream, Bool.false_and,
    Bool.false_eq_true, if_false]
  cases (functionScopeLoop genDeps.reverse).2 <;> rfl

private theorem requestScope_tornDown_iff (hdistinct : Distinct genDeps) (errored : Bool) :
    (∀ live ∈ genDeps, live.isFunctionScope = false →
        TornDown live (taggedWith live.index (teardownRequestScopeGens genDeps errored))) ↔
      ∀ live ∈ genDeps, live.isFunctionScope = false →
        if errored then EndsOnClose live else EndsOnSend live := by
  refine forall₂_congr fun live hmem => imp_congr_right fun hscope => ?_
  rw [taggedWith_teardownRequestScopeGens hdistinct hmem errored, hscope]
  cases errored with
  | true => exact tornDown_close_iff
  | false => exact tornDown_send_iff

theorem afterHandler_returned_tornDown_iff (exchange : Exchange ν χ δ)
    (hdistinct : Distinct genDeps) {result : ν}
    (hstream : exchange.isStreaming result = false) :
    (∀ live ∈ genDeps, TornDown live
          (taggedWith live.index (exchange.afterHandler genDeps (.returned result)).actions)) ↔
      ReturnEnds genDeps := by
  have hfunction := functionScopeLoop_tornDown_iff hdistinct.reverse
  have hrequest := requestScope_tornDown_iff hdistinct
    (functionScopeLoop genDeps.reverse).2.isSome
  have hfails : (functionScopeLoop genDeps.reverse).2.isSome = true ↔ Fails genDeps := by
    rw [functionScopeLoop_isSome_iff]
    simp only [Fails, mem_reverse]
  have hparts (live : LiveGenerator χ) (hmem : live ∈ genDeps) :
      TornDown live
          (taggedWith live.index (exchange.afterHandler genDeps (.returned result)).actions) ↔
        (live.isFunctionScope = true →
          TornDown live (taggedWith live.index (functionScopeLoop genDeps.reverse).1)) ∧
        (live.isFunctionScope = false → TornDown live (taggedWith live.index
          (teardownRequestScopeGens genDeps (functionScopeLoop genDeps.reverse).2.isSome))) := by
    rw [afterHandler_returned_actions exchange genDeps hstream, taggedWith_append]
    cases hscope : live.isFunctionScope with
    | true => simp [taggedWith_teardownRequestScopeGens hdistinct hmem, hscope]
    | false =>
      simp [taggedWith_functionScopeLoop_request hdistinct.reverse (mem_reverse.2 hmem) hscope]
  rw [forall₂_congr hparts]
  simp only [mem_reverse, pairwise_reverse] at hfunction
  simp only [imp_and, forall_and, hfunction, hrequest]
  constructor
  · rintro ⟨⟨hpassable, hsend⟩, hscope⟩
    refine ⟨hpassable, hsend, fun hfail live hmem hlive => ?_, fun hfail live hmem hlive => ?_⟩
    · simpa [hfails.2 hfail] using hscope live hmem hlive
    · simpa [Bool.eq_false_iff.2 (mt hfails.1 hfail)] using hscope live hmem hlive
  · rintro ⟨hpassable, hsend, hclosed, hresumed⟩
    refine ⟨⟨hpassable, hsend⟩, fun live hmem hlive => ?_⟩
    split
    · rename_i hfail
      exact hclosed (hfails.1 hfail) live hmem hlive
    · rename_i hfail
      exact hresumed (fun hfailed => hfail (hfails.2 hfailed)) live hmem hlive

def handlerOutcome (exchange : Exchange ν χ δ) : Option (Outcome ν χ) :=
  match exchange.resolve with
  | (_, some _) => none
  | (state, none) =>
    match exchange.callHandler state with
    | .inl _ => none
    | .inr outcome => some outcome

/-- How the generators take what is done to them at the exit that the request comes to. -/
def GeneratorsEnd (exchange : Exchange ν χ δ) : Prop :=
  match handlerOutcome exchange with
  | none => ∀ live ∈ exchange.resolve.1.genDeps, EndsOnClose live
  | some (.raised error) => ErrorEnds (some error) exchange.resolve.1.genDeps.reverse
  | some (.returned _) => ReturnEnds exchange.resolve.1.genDeps

/-- Every generator that was entered is resumed by exactly one teardown action and has
ended then, exactly if the function-scope loop is not kept from one of them and each
ends on what the exit does to it. -/
theorem generators_torn_down_once_iff (exchange : Exchange ν χ δ)
    (hstream : ∀ result, handlerOutcome exchange = some (.returned result) →
      exchange.isStreaming result = false) :
    (∀ live ∈ exchange.resolve.1.genDeps,
        TornDown live (taggedWith live.index (handleRequest exchange).actions)) ↔
      GeneratorsEnd exchange := by
  have hnumbered : Numbered exchange.resolve.1.genDeps :=
    resolveParams_numbered exchange.extractor exchange.buildInjectedObject exchange.params _ rfl
  have hdistinct := hnumbered.distinct
  unfold GeneratorsEnd
  unfold handlerOutcome at hstream ⊢
  unfold handleRequest
  cases hresolve : exchange.resolve with
  | mk state answer =>
    simp only [hresolve] at hstream hdistinct ⊢
    cases answer with
    | some answer => exact closeAll_tornDown_iff hdistinct answer
    | none =>
      cases hcall : exchange.callHandler state with
      | inl answer =>
        simp only [hcall]
        exact closeAll_tornDown_iff hdistinct answer
      | inr outcome =>
        simp only [hcall] at hstream ⊢
        cases outcome with
        | raised error =>
          have herror := errorLoop_tornDown_iff (some error) hdistinct.reverse
          simp only [mem_reverse] at herror
          exact herror
        | returned result =>
          exact afterHandler_returned_tornDown_iff exchange hdistinct (hstream result rfl)

def yieldDep (name : String) (afterYield : Resumed String) (ignoresExit : Bool) :
    Param Nat String :=
  .dependency {
    name
    callable := .generator fun _ => .yielded 0 ⟨afterYield, .raised, fun _ => ignoresExit⟩
    callableId := none
    inputNames := []
    isHandlerParam := false
    isFunctionScope := true }

def sessionExchange (auditEnd : Resumed String) (ignoresExit : Bool) :
    Exchange Nat String String where
  params := [yieldDep "session" .stopped false, yieldDep "audit" auditEnd ignoresExit]
  extractor := ⟨fun _ => .bind 0, fun _ _ _ => .inl ⟨0, rfl⟩⟩
  buildInjectedObject := fun _ => .returned 0
  extractFull := .returned []
  injectFrameworkObjects := .returned
  handler := fun _ => .returned 0
  isStreaming := fun _ => false
  fastapiError := "FastAPIError"

theorem session_and_audit_torn_down :
    handlerOutcome (sessionExchange .stopped false) = some (.returned 0) ∧
      ∀ live ∈ (sessionExchange .stopped false).resolve.1.genDeps,
        TornDown live
          (taggedWith live.index (handleRequest (sessionExchange .stopped false)).actions) := by
  have hstops : ∀ live ∈ (sessionExchange .stopped false).resolve.1.genDeps,
      live.generator.send = .stopped := by
    intro live hmem
    rcases mem_cons.1 hmem with rfl | hmem
    · rfl
    · cases mem_singleton.1 hmem
      rfl
  have hpasses : ∀ live ∈ (sessionExchange .stopped false).resolve.1.genDeps,
      ¬RaisesAfterYield live := by
    rintro live hmem ⟨error, herror⟩
    cases (hstops live hmem).symm.trans herror
  have hends : ∀ live ∈ (sessionExchange .stopped false).resolve.1.genDeps, EndsOnSend live := by
    intro live hmem hyields
    cases (hstops live hmem).symm.trans hyields
  refine ⟨rfl, (generators_torn_down_once_iff (sessionExchange .stopped false)
    fun _ _ => rfl).2 ⟨?_, fun live hmem _ => hends live hmem, ?_, fun _ live hmem _ =>
      hends live hmem⟩⟩
  · exact pairwise_of_forall_mem_list fun earlier _ later hlater _ _ => hpasses later hlater
  · rintro ⟨live, hmem, -, hraises⟩
    exact absurd hraises (hpasses live hmem)

/-- When the audit record fails to close, the session stays suspended; and an audit that
yields again and ignores the close that follows stays suspended itself. -/
theorem failing_audit_leaves_session_open :
    ((sessionExchange (.raised "audit") false).resolve.1.genDeps.map LiveGenerator.index =
        [0, 1] ∧
      (handleRequest (sessionExchange (.raised "audit") false)).actions = [(1, .send)]) ∧
    (handleRequest (sessionExchange .yielded true)).actions =
        [(1, .send), (1, .close), (0, .send)] ∧
      ∃ audit ∈ (sessionExchange .yielded true).resolve.1.genDeps,
        audit.index = 1 ∧ ¬Ended audit [.send, .close] := by
  refine ⟨⟨rfl, rfl⟩, rfl, ⟨1, ⟨.yielded, .raised, fun _ => true⟩, true⟩, ?_, rfl, ?_⟩
  · exact mem_cons_of_mem _ mem_cons_self
  · simp [Ended, Generator.after, Resumed.suspendedAt]

end FastapiTurbo.GeneratorTeardown
