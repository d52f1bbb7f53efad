import FastapiTurbo.AsyncWorkerGates

/-! That a thread in `submit_fast` is not left waiting: its gate is set once its coroutine has
ended. -/
namespace FastapiTurbo.AsyncWorker

open Lib Py

variable {ν : Type}

def Roused (state : State ν) : Prop :=
  ∀ (index : Nat) (call : Call ν), state.calls[index]? = some call → call.caller = .waiting →
    call.coro.Ended → state.gates call.gate = true

namespace Roused

variable {s next : State ν} {index : Nat} {old new : Call ν}

section

variable (h : Roused s) (hold : s.calls[index]? = some old)
include h hold

theorem moved (hn : next.calls = s.calls.set index new)
    (hg : ∀ (other : Nat) (call : Call ν), other ≠ index → s.calls[other]? = some call →
      call.caller = .waiting →
      s.gates call.gate = true → next.gates call.gate = true)
    (hnew : new.caller = .waiting → new.coro.Ended → next.gates new.gate = true) :
    Roused next := by
  intro other call hc hw he
  rw [hn] at hc
  rcases getElem?_moved hold hc with ⟨rfl, rfl⟩ | ⟨hne, hc⟩
  · exact hnew hw he
  · exact hg other call hne hc hw (h other call hc hw he)

/-- A gate that a call clears is no other thread's. -/
theorem cleared {gate : Nat} (hn : next.calls = s.calls.set index new)
    (hu : next.gates = Function.update s.gates gate false) (hnew : new.caller ≠ .waiting)
    (hg : ∀ (other : Nat) (call : Call ν), other ≠ index → s.calls[other]? = some call →
      call.caller = .waiting →
      call.gate ≠ gate) : Roused next := by
  refine h.moved hold hn (fun other call hne hc hw hset => ?_) fun hw => absurd hw hnew
  rwa [hu, Function.update_of_ne (hg other call hne hc hw)]

theorem setTrue (hn : next.calls = s.calls.set index new)
    (hu : next.gates = Function.update s.gates new.gate true) : Roused next := by
  refine h.moved hold hn (fun _ _ _ _ _ hset => ?_) fun _ _ => ?_
  · rw [hu, Function.update_apply, hset, ite_self]
  · rw [hu, Function.update_self]

theorem callerStep (hc : Consistent s) {pyEvent : PyEventGate} {event : CallerEvent}
    (hs : stepCaller pyEvent s index old event old.caller = some next) : Roused next := by
  have uses {call : Call ν} (hw : call.caller = .waiting) : call.uses = some call.gate :=
    Call.uses_of_watches (by rw [hw]; rfl)
  unfold stepCaller at hs
  split at hs
  case h_1 =>
    split at hs <;> cases hs
    · exact h.moved hold rfl (fun _ _ _ _ _ => id) (by rintro ⟨⟩)
    · refine h.cleared hold rfl rfl (by rintro ⟨⟩) fun other call _ hj hw => ?_
      exact Nat.ne_of_lt (hc.pooled.used other call _ hj (uses hw)).1
  case h_2 hca =>
    cases hs
    refine h.cleared hold rfl rfl (by rintro ⟨⟩) fun other call hne hj hw hm => hne ?_
    refine hc.pooled.alone other index call old _ hj hold (uses hw) ?_
    simp [Call.uses, hca, Caller.holds, hm]
  case h_3 hca =>
    cases hs
    refine h.moved hold rfl (fun _ _ _ _ _ => id) fun _ he => ?_
    have hf := ((hc.sound index old hold).early (by rw [hca]; rfl)).2
    obtain ⟨_, he⟩ := hf ▸ he
    cases he
  case h_8 =>
    obtain ⟨timeout, -, rfl⟩ := Option.map_eq_some_iff.1 hs
    exact h.moved hold rfl (fun _ _ _ _ _ => id) (by rintro ⟨⟩)
  all_goals repeat' split at hs
  all_goals
    cases hs
    try exact h.moved hold rfl (fun _ _ _ _ _ => id) (by rintro ⟨⟩)

private theorem runnerStep (call : Call ν) (segment : Segment ν) :
    Roused (runner s index call segment) := by
  cases segment with
  | suspends => exact h.moved hold rfl (fun _ _ _ _ _ => id) fun _ => nofun
  | ends outcome => exact h.setTrue hold rfl rfl

private theorem loopStep {event : LoopEvent ν} (hs : stepLoop s index old event = some next) :
    Roused next := by
  unfold stepLoop at hs
  split at hs
  case h_1 eg =>
    split at hs <;> cases hs
    unfold kickoff
    split
    · exact h.setTrue hold rfl rfl
    · cases eg with
      | none => exact h.moved hold rfl (fun _ _ _ _ _ => id) fun _ => nofun
      | some segment => exact h.runnerStep hold _ segment
  case h_2 segment =>
    repeat' split at hs
    all_goals cases hs
    · exact h.moved hold rfl (fun _ _ _ _ _ => id) fun _ => nofun
    · exact h.runnerStep hold _ segment
    · exact h.runnerStep hold _ segment
  case h_3 =>
    split at hs <;> cases hs
    refine h.moved hold rfl (fun _ _ _ _ _ => id) ?_
    unfold cancelInBox
    split <;> exact h index old hold

end

private theorem step {pyEvent : PyEventGate} {action : Action ν} (hc : Consistent s)
    (hs : step pyEvent action s = some next) (h : Roused s) : Roused next := by
  cases action with
  | warm =>
    cases hs
    exact h
  | submitFast timeout =>
    cases hs
    intro other call hcall hw
    rcases getElem?_started hcall with ⟨_, rfl⟩ | hcall
    · cases hw
    · exact h other call hcall hw
  | caller other event =>
    obtain ⟨call, hcall, hs⟩ := Option.bind_eq_some_iff.1 hs
    exact h.callerStep hcall hc hs
  | loop other event =>
    obtain ⟨call, hcall, hs⟩ := Option.bind_eq_some_iff.1 hs
    exact h.loopStep hcall hs

end Roused

/-- Whoever waits has its coroutine scheduled or on the loop, or its gate is set: no thread is
left parked. -/
theorem waiting_never_lost (pyEvent : PyEventGate) {state : State ν}
    (hreaches : Reaches (step pyEvent) {} state) (index : Nat) {call : Call ν}
    (hcall : state.calls[index]? = some call) (hwaiting : call.caller = .waiting) :
    call.kickoff = true ∨ call.coro.live = true ∨
      call.coro.Ended ∧ state.gates call.gate = true := by
  have hr : Consistent state ∧ Roused state := hreaches.keeps
    (fun _ s _ hs (h : Consistent s ∧ Roused s) => ⟨h.1.stepped hs, h.2.step h.1 hs⟩)
    ⟨.of_reaches (.refl : Reaches (step pyEvent) {} {}), by simp [Roused]⟩
  have hs := hr.1.sound index call hcall
  have hg : call.caller.gaveUp = false := by rw [hwaiting]; rfl
  cases hco : call.coro with
  | fresh => exact .inl (hs.awaited hco (by rw [hwaiting]; rfl))
  | closed => exact absurd (hs.closed hco) (by simp [hg])
  | created | suspended => exact .inr (.inl rfl)
  | ended outcome =>
    exact .inr (.inr ⟨⟨outcome, rfl⟩, hr.2 index call hcall hwaiting ⟨outcome, hco⟩⟩)
  | neverEntered => exact absurd (hs.requests (hs.neverEntered hco)) (by simp [hg])

theorem waiting_run_found :
    ∃ state call, runActions (step false) (reusedRun.take 8) {} = some state ∧
      state.calls[0]? = some call ∧ call.caller = .waiting ∧ state.gates call.gate = true := by
  have hrun : runActions (step false) (reusedRun.take 8) {} = some _ := rfl
  have hf := waiting_never_lost false (reaches_of_runActions hrun) 0 rfl rfl
  exact ⟨_, _, hrun, rfl, rfl, ((hf.resolve_left nofun).resolve_left nofun).2⟩

end FastapiTurbo.AsyncWorker
