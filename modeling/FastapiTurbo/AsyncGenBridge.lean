import FastapiTurbo.Lib.Dict

/-! An async generator behind a sync one: `_async_gen_sync_bridge`
(`_introspect_from_real_fastapi.py`) drives it on the worker loop, and is compared with
an `async with` over the same generator. -/
namespace FastapiTurbo.AsyncGenBridge

open Lib List

/-- How a generator is resumed: by `__anext__`, by `athrow`, or by the `GeneratorExit` of
`aclose`. -/
inductive Resume (χ : Type) where
  | next
  | throw (error : χ)
  | exit

/-- What it does then.  A `GeneratorExit` that comes back out of `aclose` is an end
without an error; a `StopIteration` or `StopAsyncIteration` that the body lets out becomes
the cause of a `RuntimeError`. -/
inductive Reaction (σ ν χ : Type) where
  | yielded (value : ν) (state : σ)
  | returned
  | raised (error : χ)
  | wrapped (stop : χ)
  deriving DecidableEq

/-- A run of the generator up to there: the context variables that it sets, and the time
it takes. -/
structure Run (σ ν χ κ β : Type) where
  writes : List (κ × β)
  reaction : Reaction σ ν χ
  seconds : Nat

structure AsyncGen (σ ν χ κ β : Type) where
  run : σ → Resume χ → Run σ ν χ κ β

variable {σ ν χ κ β : Type}

def AsyncGen.resume (agen : AsyncGen σ ν χ κ β) (state : σ) (how : Resume χ) :
    Reaction σ ν χ :=
  (agen.run state how).reaction

/-- `submit_fast`; `none` is its `TimeoutError`. -/
def submitFast (timeout : Option Nat) (run : Run σ ν χ κ β) : Option (Reaction σ ν χ) :=
  if timeout.any (· < run.seconds) then none else some run.reaction

/-- The errors that the worker, the interpreter and an `async with` raise themselves: the
one of a timeout, the one around a `StopIteration`, those of a generator that does not
stop, and the one of an `aclose` that it ignores. -/
structure RuntimeErrors (χ : Type) where
  timedOut : χ
  wrapping : χ → χ
  wrapping_ne : ∀ stop, wrapping stop ≠ stop
  afterNext : χ
  afterThrow : χ
  ignoredExit : χ

section Context

variable [DecidableEq κ] [DecidableEq β]

def setAll (context : Dict κ β) (writes : List (κ × β)) : Dict κ β :=
  writes.foldl (fun context write => context.set write.1 write.2) context

def isChanged (before : Dict κ β) (entry : κ × β) : Bool :=
  before.get? entry.1 ≠ some entry.2

def propagateStep (before : Dict κ β) (state : Dict κ β × List (κ × Option β))
    (entry : κ × β) : Dict κ β × List (κ × Option β) :=
  if isChanged before entry then
    (state.1.set entry.1 entry.2, state.2 ++ [(entry.1, state.1.get? entry.1)])
  else state

def propagate (before ctx thread : Dict κ β) : Dict κ β × List (κ × Option β) :=
  ctx.foldl (propagateStep before) (thread, [])

def reset (thread : Dict κ β) (token : κ × Option β) : Dict κ β :=
  match token.2 with
  | some old => thread.set token.1 old
  | none => thread.erase token.1

/-- `_restore`.  A token of another context raises a `ValueError`, which is passed over. -/
def restore (sameContext : Bool) (thread : Dict κ β) (tokens : List (κ × Option β)) : Dict κ β :=
  if sameContext then tokens.reverse.foldl reset thread else thread

/-- The bridge at its `yield`: the generator behind it, its context, and the request
thread's context with the tokens to restore it. -/
structure Entered (σ ν κ β : Type) where
  value : ν
  state : σ
  ctx : Dict κ β
  thread : Dict κ β
  tokens : List (κ × Option β)

inductive Entering (σ ν χ κ β : Type) where
  | entered (entered : Entered σ ν κ β)
  | stopped
  | raised (error : χ)

/-- The bridge up to its `yield`, entered on a thread with these context variables. -/
def enter (errors : RuntimeErrors χ) (timeout : Option Nat) (agen : AsyncGen σ ν χ κ β)
    (start : σ) (thread : Dict κ β) : Entering σ ν χ κ β :=
  match submitFast timeout (agen.run start .next) with
  | none => .raised errors.timedOut
  | some (.yielded value state) =>
    let ctx := setAll thread (agen.run start .next).writes
    let propagated := propagate thread ctx thread
    .entered ⟨value, state, ctx, propagated.1, propagated.2⟩
  | some .returned => .stopped
  | some (.raised error) => .raised error
  | some (.wrapped stop) => .raised (errors.wrapping stop)

end Context

inductive Action (χ : Type) where
  | send
  | throw (error : χ)
  | close

/-- Where the async generator is left.  After a timeout it is still running on the worker,
with its cancellation requested. -/
inductive Left (σ : Type) where
  | finished
  | suspended (state : σ)
  | running
  deriving DecidableEq

/-- The end of the bridge, with the exception that its caller sees, if any. -/
structure Ended (σ χ : Type) where
  observed : Option χ
  left : Left σ
  deriving DecidableEq

section Resumed

variable (errors : RuntimeErrors χ) (agen : AsyncGen σ ν χ κ β)

def resumeBridge (timeout : Option Nat) (state : σ) : Action χ → Ended σ χ
  | .send =>
    match submitFast timeout (agen.run state .next) with
    | none => ⟨some errors.timedOut, .running⟩
    | some (.yielded _ next) => ⟨none, .suspended next⟩
    | some .returned => ⟨none, .finished⟩
    | some (.raised error) => ⟨some error, .finished⟩
    | some (.wrapped stop) => ⟨some (errors.wrapping stop), .finished⟩
  | .throw error =>
    match submitFast timeout (agen.run state (.throw error)) with
    | none => ⟨some errors.timedOut, .running⟩
    | some (.yielded _ next) => ⟨some error, .suspended next⟩
    | some .returned => ⟨none, .finished⟩
    | some (.raised other) => ⟨some other, .finished⟩
    | some (.wrapped stop) => ⟨some (errors.wrapping stop), .finished⟩
  | .close =>
    -- Any error of `aclose` is passed over, and so is a timeout.
    match submitFast timeout (agen.run state .exit) with
    | none => ⟨none, .running⟩
    | some (.yielded _ next) => ⟨none, .suspended next⟩
    | some _ => ⟨none, .finished⟩

def closeUnstopped (state : σ) (error : χ) : Ended σ χ :=
  match agen.resume state .exit with
  | .yielded _ next => ⟨some errors.ignoredExit, .suspended next⟩
  | .returned => ⟨some error, .finished⟩
  | .raised other => ⟨some other, .finished⟩
  | .wrapped stop => ⟨some (errors.wrapping stop), .finished⟩

/-- The exit of an `async with` over the generator; `close` is the `GeneratorExit` of the
body.  A `StopIteration` or `StopAsyncIteration` of the body that the generator lets
through is raised as it was. -/
def asyncWith [DecidableEq χ] (state : σ) : Action χ → Ended σ χ
  | .send =>
    match agen.resume state .next with
    | .yielded _ next => closeUnstopped errors agen next errors.afterNext
    | .returned => ⟨none, .finished⟩
    | .raised error => ⟨some error, .finished⟩
    | .wrapped stop => ⟨some (errors.wrapping stop), .finished⟩
  | .throw error =>
    match agen.resume state (.throw error) with
    | .yielded _ next => closeUnstopped errors agen next errors.afterThrow
    | .returned => ⟨none, .finished⟩
    | .raised other => ⟨some other, .finished⟩
    | .wrapped stop =>
      ⟨some (if stop = error then error else errors.wrapping stop), .finished⟩
  | .close =>
    match agen.resume state .exit with
    | .yielded _ next => closeUnstopped errors agen next errors.afterThrow
    | .returned => ⟨none, .finished⟩
    | .raised error => ⟨some error, .finished⟩
    | .wrapped stop => ⟨some (errors.wrapping stop), .finished⟩

def Reaction.isYield : Reaction σ ν χ → Bool
  | .yielded _ _ => true
  | _ => false

def Action.resume : Action χ → Resume χ
  | .send => .next
  | .throw error => .throw error
  | .close => .exit

/-- The generator is done in time.  It does not yield a second time, does not let a thrown
`StopIteration` or `StopAsyncIteration` through, and is closed without an error. -/
structure Finishes (timeout : Option Nat) (state : σ) (action : Action χ) : Prop where
  in_time : ∀ limit ∈ timeout, (agen.run state action.resume).seconds ≤ limit
  no_yield : (agen.resume state action.resume).isYield = false
  not_through : ∀ error, action = .throw error → agen.resume state (.throw error) ≠ .wrapped error
  closed : action = .close → agen.resume state .exit = .returned

theorem submitFast_of_in_time {timeout : Option Nat} {run : Run σ ν χ κ β}
    (htime : ∀ limit ∈ timeout, run.seconds ≤ limit) :
    submitFast timeout run = some run.reaction := by
  cases timeout with
  | none => rfl
  | some limit => simpa [submitFast] using htime limit rfl

theorem submitFast_of_late {timeout : Option Nat} {run : Run σ ν χ κ β}
    (hlate : ¬∀ limit ∈ timeout, run.seconds ≤ limit) : submitFast timeout run = none := by
  cases timeout with
  | none => simp at hlate
  | some limit => simpa [submitFast] using hlate

private theorem resumeBridge_of_late {timeout : Option Nat} {state : σ} {action : Action χ}
    (hlate : ¬∀ limit ∈ timeout, (agen.run state action.resume).seconds ≤ limit) :
    (resumeBridge errors agen timeout state action).left = .running := by
  have hsubmit := submitFast_of_late hlate
  cases action <;> simp only [Action.resume] at hsubmit <;> simp [resumeBridge, hsubmit]

variable [DecidableEq χ]

theorem resumeBridge_eq_asyncWith_iff (timeout : Option Nat) (state : σ) (action : Action χ) :
    (resumeBridge errors agen timeout state action).left = .finished ∧
        (resumeBridge errors agen timeout state action).observed =
          (asyncWith errors agen state action).observed ↔
      Finishes agen timeout state action := by
  by_cases htime : ∀ limit ∈ timeout, (agen.run state action.resume).seconds ≤ limit
  · have hsubmit := submitFast_of_in_time htime
    have hparts : Finishes agen timeout state action ↔
        (agen.resume state action.resume).isYield = false ∧
          (∀ error, action = .throw error →
            agen.resume state (.throw error) ≠ .wrapped error) ∧
          (action = .close → agen.resume state .exit = .returned) :=
      ⟨fun hfinishes => ⟨hfinishes.no_yield, hfinishes.not_through, hfinishes.closed⟩,
        fun ⟨hyield, hthrough, hclosed⟩ => ⟨htime, hyield, hthrough, hclosed⟩⟩
    rw [hparts]
    cases action with
    | send =>
      simp only [Action.resume] at hsubmit ⊢
      rw [← AsyncGen.resume] at hsubmit
      cases hreaction : agen.resume state .next <;>
        simp [resumeBridge, asyncWith, Reaction.isYield, hsubmit, hreaction]
    | throw error =>
      simp only [Action.resume] at hsubmit ⊢
      rw [← AsyncGen.resume] at hsubmit
      cases hreaction : agen.resume state (.throw error) with
      | yielded value next =>
        simp [resumeBridge, Reaction.isYield, hsubmit, hreaction]
      | returned | raised other =>
        simp [resumeBridge, asyncWith, Reaction.isYield, hsubmit, hreaction]
      | wrapped stop =>
        by_cases hsame : stop = error
        · simp [resumeBridge, asyncWith, hsubmit, hreaction, hsame, errors.wrapping_ne]
        · simp [resumeBridge, asyncWith, Reaction.isYield, hsubmit, hreaction, hsame]
    | close =>
      simp only [Action.resume] at hsubmit ⊢
      rw [← AsyncGen.resume] at hsubmit
      cases hreaction : agen.resume state .exit <;>
        simp [resumeBridge, asyncWith, Reaction.isYield, hsubmit, hreaction]
  · refine iff_of_false (fun hends => ?_) fun hfinishes => htime hfinishes.in_time
    rw [resumeBridge_of_late errors agen htime] at hends
    cases hends.1

end Resumed

section Variables

variable [DecidableEq κ]

theorem nodup_setAll {context : Dict κ β} (hnodup : (context.map Prod.fst).Nodup)
    (writes : List (κ × β)) : ((setAll context writes).map Prod.fst).Nodup := by
  induction writes generalizing context with
  | nil => exact hnodup
  | cons write rest ih =>
    refine @ih (context.set write.1 write.2) ?_
    rw [Dict.keys_set]
    exact nodup_addNew hnodup write.1

theorem get?_setAll {context writes : Dict κ β} (hnodup : (writes.map Prod.fst).Nodup) (var : κ) :
    (setAll context writes).get? var = (writes.get? var).or (context.get? var) := by
  induction writes generalizing context with
  | nil => rfl
  | cons write rest ih =>
    rw [map_cons, nodup_cons] at hnodup
    have hrest := @ih (context.set write.1 write.2) hnodup.2
    rw [setAll, foldl_cons, ← setAll, hrest, Dict.get?_set, Dict.get?_cons]
    by_cases hvar : var = write.1
    · subst hvar
      rw [Dict.get?_eq_none rest write.1 hnodup.1]
      simp
    · rw [if_neg hvar, if_neg (Ne.symm hvar)]

theorem get?_of_setAll_none {context : Dict κ β} {writes : List (κ × β)} {var : κ}
    (hnone : (setAll context writes).get? var = none) : context.get? var = none := by
  induction writes generalizing context with
  | nil => exact hnone
  | cons write rest ih =>
    have hset := @ih (context.set write.1 write.2) hnone
    rw [Dict.get?_set] at hset
    split at hset
    · cases hset
    · exact hset

private theorem get?_reset (thread : Dict κ β) (token : κ × Option β) (var : κ) :
    (reset thread token).get? var = if var = token.1 then token.2 else thread.get? var := by
  unfold reset
  split
  next old hold => rw [Dict.get?_set, hold]
  next hnone => rw [Dict.get?_erase, hnone]

theorem get?_restore (thread : Dict κ β) (tokens : Dict κ (Option β)) (var : κ) :
    (restore true thread tokens).get? var = (tokens.get? var).getD (thread.get? var) := by
  rw [restore, if_pos rfl, foldl_reverse]
  induction tokens with
  | nil => rfl
  | cons token rest ih =>
    rw [foldr_cons, get?_reset, ih, Dict.get?_cons]
    by_cases hvar : token.1 = var
    · rw [if_pos hvar.symm, if_pos hvar]
      rfl
    · rw [if_neg (Ne.symm hvar), if_neg hvar]

theorem get?_map_values {γ : Type} (dict : Dict κ β) (remember : κ → γ) (var : κ) :
    Dict.get? (dict.map fun entry => (entry.1, remember entry.1)) var =
      (dict.get? var).map fun _ => remember var := by
  induction dict with
  | nil => rfl
  | cons entry rest ih =>
    rw [map_cons, Dict.get?_cons, Dict.get?_cons, ih]
    by_cases hvar : entry.1 = var
    · rw [if_pos hvar, if_pos hvar, ← hvar]
      rfl
    · rw [if_neg hvar, if_neg hvar]

variable [DecidableEq β]

def changes (before ctx : Dict κ β) : Dict κ β :=
  ctx.filter (isChanged before)

section

variable (before : Dict κ β) {ctx : Dict κ β} (hnone : (ctx.map Prod.fst).Nodup)
include hnone

theorem nodup_changes : ((changes before ctx).map Prod.fst).Nodup :=
  hnone.sublist (filter_sublist.map Prod.fst)

theorem get?_changes (var : κ) :
    (changes before ctx).get? var =
      if ctx.get? var = before.get? var then none else ctx.get? var := by
  induction ctx with
  | nil => exact (ite_self _).symm
  | cons entry rest ih =>
    rw [map_cons, nodup_cons] at hnone
    have hrest := ih hnone.2
    rw [changes, filter_cons, ← changes, Dict.get?_cons]
    by_cases hvar : entry.1 = var
    · subst hvar
      rw [Dict.get?_eq_none rest entry.1 hnone.1] at hrest
      rw [if_pos rfl]
      by_cases hsame : some entry.2 = before.get? entry.1
      · rw [if_pos hsame, if_neg (by simp [isChanged, hsame]), hrest, ite_self]
      · rw [if_neg hsame, if_pos (by simpa [isChanged] using Ne.symm hsame), Dict.get?_cons,
          if_pos rfl]
    · rw [if_neg hvar, ← hrest]
      split
      · rw [Dict.get?_cons, if_neg hvar]
      · rfl

private theorem foldl_propagateStep (thread : Dict κ β) (tokens : List (κ × Option β)) :
    ctx.foldl (propagateStep before) (thread, tokens) =
      (setAll thread (changes before ctx),
        tokens ++ (changes before ctx).map fun entry => (entry.1, thread.get? entry.1)) := by
  induction ctx generalizing thread tokens with
  | nil => simp [changes, setAll]
  | cons entry rest ih =>
    rw [map_cons, nodup_cons] at hnone
    rw [foldl_cons, changes, filter_cons, propagateStep]
    split
    · -- The tokens behind this one remember the thread as it was: the variables differ.
      have hlater : ∀ other ∈ changes before rest,
          (thread.set entry.1 entry.2).get? other.1 = thread.get? other.1 := by
        intro other hother
        have hne : other.1 ≠ entry.1 := fun hsame =>
          hnone.1 (hsame ▸ mem_map_of_mem (mem_filter.1 hother).1)
        rw [Dict.get?_set, if_neg hne]
      rw [ih hnone.2, ← changes, map_cons, append_assoc]
      refine Prod.ext rfl (congrArg (tokens ++ ·) (congrArg (List.cons _) ?_))
      refine map_congr_left fun other hother => ?_
      rw [hlater other hother]
    · exact ih hnone.2 thread tokens

end

theorem propagate_eq (thread : Dict κ β) {ctx : Dict κ β} (hnodup : (ctx.map Prod.fst).Nodup) :
    propagate thread ctx thread =
      (setAll thread (changes thread ctx),
        (changes thread ctx).map fun entry => (entry.1, thread.get? entry.1)) := by
  rw [propagate, foldl_propagateStep thread hnodup, nil_append]

variable {thread : Dict κ β} (hthread : (thread.map Prod.fst).Nodup)

include hthread

theorem get?_propagate (writes : List (κ × β)) (var : κ) :
    (propagate thread (setAll thread writes) thread).1.get? var =
      (setAll thread writes).get? var := by
  have hctx := nodup_setAll hthread writes
  rw [propagate_eq thread hctx, get?_setAll (nodup_changes thread hctx), get?_changes thread hctx]
  split
  next hsame => exact hsame.symm
  next =>
    cases hvalue : (setAll thread writes).get? var with
    | none => exact get?_of_setAll_none hvalue
    | some value => rfl

theorem get?_tokens (writes : List (κ × β)) (var : κ) :
    Dict.get? (propagate thread (setAll thread writes) thread).2 var =
      if (setAll thread writes).get? var = thread.get? var then none
      else some (thread.get? var) := by
  have hctx := nodup_setAll hthread writes
  rw [propagate_eq thread hctx]
  dsimp only
  rw [get?_map_values, get?_changes thread hctx]
  split
  next => rfl
  next hchanged =>
    cases hvalue : (setAll thread writes).get? var with
    | none => exact absurd (hvalue.trans (get?_of_setAll_none hvalue).symm) hchanged
    | some value => rfl

end Variables

section Faithful

variable [DecidableEq κ] [DecidableEq β] [DecidableEq χ]

/-- The bridge is what an `async with` over the generator would be.  `left` is the context
of the request thread when the teardown begins. -/
structure Faithful (errors : RuntimeErrors χ) (agen : AsyncGen σ ν χ κ β)
    (timeout : Option Nat) (start : σ) (thread : Dict κ β) (entered : Entered σ ν κ β)
    (sameContext : Bool) (left : Dict κ β) (action : Action χ) : Prop where
  value : agen.resume start .next = .yielded entered.value entered.state
  finished : (resumeBridge errors agen timeout entered.state action).left = .finished
  observed : (resumeBridge errors agen timeout entered.state action).observed =
    (asyncWith errors agen entered.state action).observed
  visible : ∀ var, entered.thread.get? var = entered.ctx.get? var
  restored : ∀ var, entered.ctx.get? var ≠ thread.get? var →
    (restore sameContext left entered.tokens).get? var = thread.get? var

variable {errors : RuntimeErrors χ} {agen : AsyncGen σ ν χ κ β} {timeout : Option Nat}
  {start : σ} {thread : Dict κ β} {entered : Entered σ ν κ β}

omit [DecidableEq χ] in
theorem enter_eq_entered (henter : enter errors timeout agen start thread = .entered entered) :
    agen.resume start .next = .yielded entered.value entered.state ∧
      ∃ writes, entered.ctx = setAll thread writes ∧
        entered.thread = (propagate thread (setAll thread writes) thread).1 ∧
        entered.tokens = (propagate thread (setAll thread writes) thread).2 := by
  by_cases htime : ∀ limit ∈ timeout, (agen.run start .next).seconds ≤ limit
  · unfold enter at henter
    rw [submitFast_of_in_time htime, ← AsyncGen.resume] at henter
    cases hreaction : agen.resume start .next with
    | yielded value state =>
      rw [hreaction] at henter
      cases henter
      exact ⟨rfl, _, rfl, rfl, rfl⟩
    | returned | raised | wrapped =>
      rw [hreaction] at henter
      cases henter
  · unfold enter at henter
    rw [submitFast_of_late htime] at henter
    cases henter

omit [DecidableEq χ] in
private theorem restored_iff (hthread : (thread.map Prod.fst).Nodup)
    (writes : List (κ × β)) (sameContext : Bool) (left : Dict κ β) :
    (∀ var, (setAll thread writes).get? var ≠ thread.get? var →
        (restore sameContext left (propagate thread (setAll thread writes) thread).2).get? var =
          thread.get? var) ↔
      sameContext = true ∨ ∀ var, (setAll thread writes).get? var ≠ thread.get? var →
        left.get? var = thread.get? var := by
  cases sameContext with
  | true =>
    refine iff_of_true (fun var hchanged => ?_) (.inl rfl)
    rw [get?_restore, get?_tokens hthread, if_neg hchanged, Option.getD_some]
  | false => simp [restore]

/-- The bridge stands in for an `async with` exactly if the generator is done in time
without another yield (and is closed without an error), and its variables are restored
where they were set. -/
theorem bridge_faithful_iff (errors : RuntimeErrors χ) (agen : AsyncGen σ ν χ κ β)
    (timeout : Option Nat) (start : σ) {thread : Dict κ β}
    (hthread : (thread.map Prod.fst).Nodup) {entered : Entered σ ν κ β}
    (henter : enter errors timeout agen start thread = .entered entered) (sameContext : Bool)
    (left : Dict κ β) (action : Action χ) :
    Faithful errors agen timeout start thread entered sameContext left action ↔
      Finishes agen timeout entered.state action ∧
        (sameContext = true ∨ ∀ var, entered.ctx.get? var ≠ thread.get? var →
          left.get? var = thread.get? var) := by
  obtain ⟨hvalue, writes, hctx, hentered, htokens⟩ := enter_eq_entered henter
  have hrestored := restored_iff hthread writes sameContext left
  rw [← htokens, ← hctx] at hrestored
  rw [← resumeBridge_eq_asyncWith_iff errors agen, ← hrestored]
  constructor
  · intro hfaithful
    exact ⟨⟨hfaithful.finished, hfaithful.observed⟩, hfaithful.restored⟩
  · rintro ⟨⟨hfinished, hobserved⟩, hvariables⟩
    refine ⟨hvalue, hfinished, hobserved, fun var => ?_, hvariables⟩
    rw [hentered, hctx]
    exact get?_propagate hthread writes var

end Faithful

/-- A session that sets `user`, passes on what is thrown into it, and takes two seconds to
end. -/
def session : AsyncGen Bool Unit String String Nat where
  run := fun entered how =>
    match entered, how with
    | false, .next => ⟨[("user", 7)], .yielded () true, 0⟩
    | _, .throw error =>
      ⟨[], if error = "StopAsyncIteration" then .wrapped error else .raised error, 2⟩
    | _, _ => ⟨[], .returned, 2⟩

def twice : AsyncGen Nat Unit String String Nat where
  run := fun yields how =>
    match how with
    | .throw error => ⟨[], .raised error, 0⟩
    | .exit => ⟨[], .returned, 0⟩
    | .next => ⟨[], if yields < 2 then .yielded () (yields + 1) else .returned, 0⟩

def runtimeErrors : RuntimeErrors String where
  timedOut := "TimeoutError"
  wrapping := fun stop => "async generator raised " ++ stop
  wrapping_ne := fun stop hsame => by
    have hlength := congrArg String.length hsame
    rw [String.length_append] at hlength
    have hpositive : 0 < "async generator raised ".length := by decide
    omega
  afterNext := "generator didn't stop"
  afterThrow := "generator didn't stop after athrow()"
  ignoredExit := "async generator ignored GeneratorExit"

theorem session_faithful :
    ∃ entered, enter runtimeErrors (some 5) session false [("user", 0)] = .entered entered ∧
      entered.thread.get? "user" = some 7 ∧
      Faithful runtimeErrors session (some 5) false [("user", 0)] entered true [("user", 9)]
        (.throw "boom") := by
  refine ⟨_, rfl, by decide, ?_⟩
  refine (bridge_faithful_iff runtimeErrors session (some 5) false (by decide) rfl true
    [("user", 9)] (.throw "boom")).2 ⟨⟨?_, rfl, ?_, by rintro ⟨⟩⟩, .inl rfl⟩
  · rintro limit ⟨⟩
    decide
  · rintro error ⟨⟩
    decide

/-- A generator that yields twice is left at its second `yield`, and nobody hears of it.
One that needs more than the worker's timeout is still running when the bridge raises,
and a `StopAsyncIteration` of the handler comes back as another error. -/
theorem second_yield_unfinished :
    (∃ entered, enter runtimeErrors none twice 0 ([] : Dict String Nat) = .entered entered ∧
      resumeBridge runtimeErrors twice none entered.state .send = ⟨none, .suspended 2⟩ ∧
      asyncWith runtimeErrors twice entered.state .send =
        ⟨some "generator didn't stop", .finished⟩) ∧
    (resumeBridge runtimeErrors session (some 1) true .send = ⟨some "TimeoutError", .running⟩ ∧
      asyncWith runtimeErrors session true .send = ⟨none, .finished⟩) ∧
    resumeBridge runtimeErrors session none true (.throw "StopAsyncIteration") =
        ⟨some "async generator raised StopAsyncIteration", .finished⟩ ∧
      asyncWith runtimeErrors session true (.throw "StopAsyncIteration") =
        ⟨some "StopAsyncIteration", .finished⟩ := by
  exact ⟨⟨_, rfl, by decide, by decide⟩, by decide, by decide⟩

end FastapiTurbo.AsyncGenBridge
