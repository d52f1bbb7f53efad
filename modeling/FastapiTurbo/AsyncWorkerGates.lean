import FastapiTurbo.AsyncWorker
import FastapiTurbo.Lib.Pool

/-! Any number of `submit_fast` calls, in any interleaving with the worker's loop: a gate has one
user at a time, and a call ends as its own coroutine did or gives it up. -/
namespace FastapiTurbo.AsyncWorker

open Lib Py

variable {ν : Type}

def Coro.Ended (coro : Coro ν) : Prop :=
  ∃ outcome, coro = .ended outcome

def Caller.holds : Caller ν → Bool
  | .clearing | .submitting | .waiting | .woken | .releasing | .appending => true
  | _ => false

def Caller.watches : Caller ν → Bool
  | .submitting | .waiting => true
  | _ => false

def Caller.early : Caller ν → Bool
  | .acquiring | .clearing | .submitting => true
  | _ => false

def Caller.gaveUp : Caller ν → Bool
  | .flagged | .timedOut _ => true
  | _ => false

/-- The gate that the thread holds or that a callback of the call may still set. -/
def Call.uses (call : Call ν) : Option Nat :=
  if call.caller.holds || call.kickoff || call.coro.live then some call.gate else none

def Caller.Knows (timeout : Option Timeout) (coro : Coro ν) : Caller ν → Prop
  | .woken => coro.Ended
  | .releasing | .appending => ∃ value, coro = .ended (.returned value)
  | .returned value => ∃ own, value = some own ∧ coro = .ended (.returned own)
  | .raised error => coro = .ended (.raised error)
  | .timedOut error => ∃ given, timeout = some given ∧ error = given.error
  | .overflowed => fits timeout = false
  | _ => True

def Coro.result : Coro ν → Option ν
  | .ended (.returned value) => some value
  | _ => none

def Coro.exception : Coro ν → Option PyErr
  | .ended (.raised error) => some error
  | _ => none

/-- What holds of a call whatever the others do. -/
structure Call.Sound (call : Call ν) : Prop where
  knows : call.caller.Knows call.timeout call.coro
  early : call.caller.early = true → call.kickoff = false ∧ call.coro = .fresh
  scheduled : call.kickoff = true → call.coro = .fresh
  awaited : call.coro = .fresh → call.caller.early = false → call.kickoff = true
  flag : call.box.cancelRequested = call.caller.gaveUp
  result : call.box.result = call.coro.result
  exception : call.box.exception = call.coro.exception
  task : call.coro.live = true → call.box.hasTask = true
  closed : call.coro = .closed → call.caller.gaveUp = true
  neverEntered : call.coro = .neverEntered → 0 < call.cancels
  requests : 0 < call.cancels → call.caller.gaveUp = true
  request : call.cancel = true → call.caller.gaveUp = true
  asked : ∀ error, call.caller = .timedOut error → call.coro.live = true →
    call.cancel = true ∨ 0 < call.cancels

structure Consistent (state : State ν) : Prop where
  sound : ∀ (index : Nat) (call : Call ν), state.calls[index]? = some call → call.Sound
  unset : ∀ (index : Nat) (call : Call ν), state.calls[index]? = some call →
    call.caller.watches = true → state.gates call.gate = true → call.coro.Ended
  pooled : Pooled Call.uses state.calls state.pool state.made

theorem Caller.holds_of_watches {caller : Caller ν} (hw : caller.watches = true) :
    caller.holds = true := by
  cases caller <;> first | rfl | cases hw

theorem Caller.not_watches_of_gaveUp {caller : Caller ν} (hgaveUp : caller.gaveUp = true) :
    caller.watches = false := by
  cases caller <;> first | rfl | cases hgaveUp

theorem Call.uses_of_watches {call : Call ν} (hw : call.caller.watches = true) :
    call.uses = some call.gate := by
  rw [Call.uses, Caller.holds_of_watches hw]
  rfl

theorem Call.eq_gate_of_uses {call : Call ν} {gate : Nat} (hu : call.uses = some gate) :
    gate = call.gate := by
  rw [Call.uses] at hu
  split at hu
  · cases hu
    rfl
  · cases hu

theorem Consistent.moved {state : State ν} (h : Consistent state) {index : Nat}
    {old new : Call ν} (hold : state.calls[index]? = some old) {gates : Nat → Bool}
    (hg : ∀ gate, gates gate ≠ state.gates gate → old.uses = some gate)
    (hu : ∀ gate, new.uses = some gate → old.uses = some gate) (hsound : new.Sound)
    (hunset : new.caller.watches = true → gates new.gate = true → new.coro.Ended) :
    Consistent { state with gates := gates, calls := state.calls.set index new } where
  sound := by
    intro other call hc
    rcases getElem?_moved hold hc with ⟨_, rfl⟩ | ⟨_, hs⟩
    · exact hsound
    · exact h.sound other call hs
  unset := by
    intro other call hc hw hset
    rcases getElem?_moved hold hc with ⟨_, rfl⟩ | ⟨ho, hs⟩
    · exact hunset hw hset
    · -- Another call's gate is not the one that changed.
      have hsame : gates call.gate = state.gates call.gate := by
        by_contra hchanged
        exact ho (h.pooled.alone other index call old call.gate hs hold
          (Call.uses_of_watches hw) (hg call.gate hchanged))
      exact h.unset other call hs hw (hsame ▸ hset)
  pooled := h.pooled.moved hold hu

theorem Caller.Knows.of_not_ended {caller : Caller ν} {timeout : Option Timeout} {coro : Coro ν}
    (h : caller.Knows timeout coro) (he : ¬coro.Ended) (next : Coro ν) :
    caller.Knows timeout next := by
  cases caller with
  | woken => exact absurd h he
  | releasing | appending =>
    obtain ⟨value, hv⟩ := h
    exact absurd ⟨_, hv⟩ he
  | returned value =>
    obtain ⟨own, _, hown⟩ := h
    exact absurd ⟨_, hown⟩ he
  | raised error => exact absurd ⟨_, h⟩ he
  | timedOut error => exact h
  | overflowed => exact h
  | acquiring => trivial
  | clearing => trivial
  | submitting => trivial
  | waiting => trivial
  | expired => trivial
  | flagged => trivial

namespace Call.Sound

variable {call : Call ν}

variable (h : call.Sound)
include h

theorem advanced (cal : Caller ν) (gate : Nat) (hk : cal.Knows call.timeout call.coro)
    (he : cal.early = call.caller.early) (hgaveUp : cal.gaveUp = call.caller.gaveUp)
    (htimedOut : ∀ error, cal ≠ .timedOut error) :
    { call with caller := cal, gate := gate }.Sound :=
  { h with
    knows := hk
    early := fun hnew => h.early (he ▸ hnew)
    awaited := fun hf hnew => h.awaited hf (he ▸ hnew)
    flag := h.flag.trans hgaveUp.symm
    closed := fun hc => hgaveUp.trans (h.closed hc)
    requests := fun hr => hgaveUp.trans (h.requests hr)
    request := fun hrequest => hgaveUp.trans (h.request hrequest)
    asked := fun error herror => absurd herror (htimedOut error) }

theorem submitted (hc : call.caller = .submitting) :
    { call with caller := .waiting, kickoff := true }.Sound := by
  have hf : call.coro = .fresh := (h.early (by rw [hc]; rfl)).2
  have hgaveUp : call.caller.gaveUp = false := by rw [hc]; rfl
  exact { h with
    knows := trivial
    early := nofun
    scheduled := fun _ => hf
    awaited := fun _ _ => rfl
    flag := h.flag.trans hgaveUp
    closed := fun hclosed => hgaveUp.symm.trans (h.closed hclosed)
    requests := fun hr => hgaveUp.symm.trans (h.requests hr)
    request := fun hrequest => hgaveUp.symm.trans (h.request hrequest)
    asked := nofun }

theorem flagged (hc : call.caller = .expired) :
    { call with
      caller := .flagged
      box := { call.box with cancelRequested := true } }.Sound :=
  { h with
    knows := trivial
    early := nofun
    awaited := fun hf _ => h.awaited hf (by rw [hc]; rfl)
    flag := rfl
    closed := fun _ => rfl
    requests := fun _ => rfl
    request := fun _ => rfl
    asked := nofun }

theorem timedOut (hc : call.caller = .flagged) {timeout : Timeout}
    (ht : call.timeout = some timeout) :
    { call with caller := .timedOut timeout.error, cancel := true }.Sound :=
  { h with
    knows := ⟨timeout, ht, rfl⟩
    early := nofun
    awaited := fun hf _ => h.awaited hf (by rw [hc]; rfl)
    flag := h.flag.trans (by rw [hc]; rfl)
    closed := fun _ => rfl
    requests := fun _ => rfl
    request := fun _ => rfl
    asked := fun _ _ _ => .inl rfl }

theorem ran (hlate : call.caller.early = false) (he : ¬call.coro.Ended) (coro : Coro ν)
    (box : Box ν)
    (hf : coro ≠ .fresh) (hr : box.result = coro.result)
    (hexception : box.exception = coro.exception)
    (hflag : box.cancelRequested = call.box.cancelRequested)
    (ht : coro.live = true → box.hasTask = true)
    (hclosed : coro = .closed → call.caller.gaveUp = true)
    (hneverEntered : coro = .neverEntered → 0 < call.cancels)
    (ha : coro.live = true → call.caller.gaveUp = false ∨ call.coro.live = true) :
    { call with kickoff := false, coro := coro, box := box }.Sound where
  knows := h.knows.of_not_ended he coro
  early := fun hearly => absurd (hlate.symm.trans hearly) Bool.false_ne_true
  scheduled := nofun
  awaited := fun hnew => absurd hnew hf
  flag := hflag.trans h.flag
  result := hr
  exception := hexception
  task := ht
  closed := hclosed
  neverEntered := hneverEntered
  requests := h.requests
  request := h.request
  asked := by
    intro error hc hl
    rcases ha hl with hgaveUp | hl
    · rw [hc] at hgaveUp
      cases hgaveUp
    · exact h.asked error hc hl

/-- `_cancel_in_box` -/
theorem cancelled (hc : call.cancel = true) : (cancelInBox call).Sound := by
  have hgaveUp := h.request hc
  rw [cancelInBox]
  split
  · exact { h with
      neverEntered := fun _ => Nat.succ_pos _
      requests := fun _ => hgaveUp
      request := nofun
      asked := fun _ _ _ => .inr (Nat.succ_pos _) }
  next hd =>
    exact { h with
      request := nofun
      asked := fun error hcaller hl => by
        rw [h.task hl, hl] at hd
        exact absurd rfl hd }

end Call.Sound

namespace Consistent

variable {state next : State ν} {index : Nat} {old new : Call ν}

section

variable (h : Consistent state) (hold : state.calls[index]? = some old)
include h hold

theorem setCall (hu : ∀ gate, new.uses = some gate → old.uses = some gate) (hs : new.Sound)
    (hunset : new.caller.watches = true → state.gates new.gate = true → new.coro.Ended) :
    Consistent (state.setCall index new) :=
  h.moved hold (fun _ hc => absurd rfl hc) hu hs hunset

theorem setGate (hu : old.uses = some old.gate) (done : Bool) (hg : new.gate = old.gate)
    (hsound : new.Sound) (hunset : new.caller.watches = true → done = true → new.coro.Ended) :
    Consistent ((state.setGate old.gate done).setCall index new) := by
  refine h.moved hold ?_ ?_ hsound ?_
  · intro gate hc
    by_cases hs : gate = old.gate
    · rw [hs, hu]
    · exact absurd (Function.update_of_ne hs _ _) hc
  · intro gate huses
    rw [Call.eq_gate_of_uses huses, hg, hu]
  · intro hw hset
    have hset : Function.update state.gates old.gate done new.gate = true := hset
    rw [hg, Function.update_self] at hset
    exact hunset hw hset

theorem advanced {before : Caller ν} (hc : old.caller = before) (cal : Caller ν)
    (hk : cal.Knows old.timeout old.coro) (he : cal.early = before.early)
    (hgaveUp : cal.gaveUp = before.gaveUp) (htimedOut : ∀ error, cal ≠ .timedOut error)
    (hw : cal.watches = false)
    (hh : before.holds = true) : Consistent (state.setCall index { old with caller := cal }) := by
  subst hc
  refine h.setCall hold ?_
    ((h.sound index old hold).advanced cal old.gate hk he hgaveUp htimedOut) ?_
  · intro gate hu
    rw [Call.eq_gate_of_uses hu, Call.uses, hh]
    rfl
  · intro hwatching
    exact absurd (hw.symm.trans hwatching) Bool.false_ne_true

/-- `_acquire_event` with a gate in the pool. -/
theorem popped (hcaller : old.caller = .acquiring) {gate : Nat} {rest : List Nat}
    (hpool : state.pool = gate :: rest) :
    Consistent ({ state with pool := rest }.setCall index
      { old with caller := .clearing, gate := gate }) where
  sound := by
    intro other call hc
    rcases getElem?_moved hold hc with ⟨_, rfl⟩ | ⟨_, hs⟩
    · refine (h.sound index old hold).advanced .clearing gate trivial ?_ ?_ nofun
      · rw [hcaller]
        rfl
      · rw [hcaller]
        rfl
    · exact h.sound other call hs
  unset := by
    intro other call hc hw hset
    rcases getElem?_moved hold hc with ⟨_, rfl⟩ | ⟨_, hs⟩
    · cases hw
    · exact h.unset other call hs hw hset
  pooled := by
    have hp := h.pooled
    rw [hpool] at hp
    exact hp.popped hold rfl

/-- `_acquire_event` with an empty pool. -/
theorem acquired (hcaller : old.caller = .acquiring) :
    Consistent (({ state with made := state.made + 1 }.setGate state.made false).setCall index
      { old with caller := .submitting, gate := state.made }) where
  sound := by
    intro other call hc
    rcases getElem?_moved hold hc with ⟨_, rfl⟩ | ⟨_, hs⟩
    · refine (h.sound index old hold).advanced .submitting state.made trivial ?_ ?_ nofun
      · rw [hcaller]
        rfl
      · rw [hcaller]
        rfl
    · exact h.sound other call hs
  unset := by
    intro other call hc hw hset
    have hset : Function.update state.gates state.made false call.gate = true := hset
    rcases getElem?_moved hold hc with ⟨_, rfl⟩ | ⟨_, hs⟩
    · rw [Function.update_self] at hset
      cases hset
    · -- A gate that is in use was made before.
      have hu := h.pooled.used other call call.gate hs (Call.uses_of_watches hw)
      rw [Function.update_of_ne (Nat.ne_of_lt hu.1)] at hset
      exact h.unset other call hs hw hset
  pooled := h.pooled.fresh hold rfl

/-- `_release_event` -/
theorem appended (hc : old.caller = .appending) :
    Consistent ({ state with pool := old.gate :: state.pool }.setCall index
      { old with caller := .returned old.box.result }) := by
  have hs := h.sound index old hold
  have hknows := hs.knows
  rw [hc] at hknows
  obtain ⟨value, hv⟩ := hknows
  have hk : old.kickoff = false := by
    cases hk : old.kickoff with
    | false => rfl
    | true => cases hv.symm.trans (hs.scheduled hk)
  have hr : (Caller.returned old.box.result).Knows old.timeout old.coro :=
    ⟨value, by rw [hs.result, hv]; rfl, hv⟩
  have hm := h.advanced hold hc _ hr rfl rfl nofun rfl rfl
  refine ⟨hm.sound, hm.unset, h.pooled.returned hold ?_ ?_⟩
  · rw [Call.uses, hc]
    rfl
  · simp only [hk, hv]
    rfl

/-- `_kickoff` is scheduled. -/
theorem submitted (hc : old.caller = .submitting) :
    Consistent (state.setCall index { old with caller := .waiting, kickoff := true }) := by
  refine h.setCall hold ?_ ((h.sound index old hold).submitted hc) ?_
  · intro gate hu
    rw [Call.eq_gate_of_uses hu, Call.uses, hc]
    rfl
  · intro _ hset
    exact h.unset index old hold (by rw [hc]; rfl) hset

theorem left (hs : new.Sound) (hh : new.caller.holds = false) (hk : new.kickoff = old.kickoff)
    (hc : new.coro = old.coro) (hg : new.gate = old.gate) :
    Consistent (state.setCall index new) := by
  refine h.setCall hold ?_ hs ?_
  · intro gate hu
    rw [Call.uses, hh, hk, hc, hg] at hu
    rw [Call.uses]
    cases hr : old.kickoff || old.coro.live with
    | false => simp [hr] at hu
    | true => simpa [Bool.or_assoc, hr] using hu
  · intro hw
    rw [Caller.holds_of_watches hw] at hh
    cases hh

theorem callerStep {pyEvent : PyEventGate} {event : CallerEvent}
    (hs : stepCaller pyEvent state index old event old.caller = some next) : Consistent next := by
  have hsound := h.sound index old hold
  have hk := hsound.knows
  unfold stepCaller at hs
  split at hs
  next hc =>
    split at hs
    next gate rest hp =>
      cases hs
      exact h.popped hold hc hp
    next =>
      cases hs
      exact h.acquired hold hc
  next hc =>
    cases hs
    refine h.setGate hold ?_ false rfl ?_ nofun
    · rw [Call.uses, hc]
      rfl
    · refine hsound.advanced .submitting old.gate trivial ?_ ?_ nofun <;> rw [hc] <;> rfl
  next hc =>
    cases hs
    exact h.submitted hold hc
  next hc =>
    split at hs
    next hset =>
      cases hs
      have hended := h.unset index old hold (by rw [hc]; rfl) (Bool.and_eq_true_iff.1 hset).2
      exact h.advanced hold hc .woken hended rfl rfl nofun rfl rfl
    next => cases hs
  next hc =>
    split at hs
    next =>
      cases hs
      exact h.advanced hold hc .expired trivial rfl rfl nofun rfl rfl
    next => cases hs
  next hc =>
    split at hs
    next hoverflow =>
      cases hs
      have hf : fits old.timeout = false := by
        simpa using (Bool.and_eq_true_iff.1 hoverflow).1
      exact h.advanced hold hc .overflowed hf rfl rfl nofun rfl rfl
    next => cases hs
  next hc =>
    cases hs
    exact h.left hold (hsound.flagged hc) rfl rfl rfl rfl
  next hc =>
    obtain ⟨timeout, ht, rfl⟩ := Option.map_eq_some_iff.1 hs
    exact h.left hold (hsound.timedOut hc ht) rfl rfl rfl rfl
  next hc =>
    rw [hc] at hk
    obtain ⟨outcome, ho⟩ := hk
    split at hs
    next error he =>
      cases hs
      refine h.advanced hold hc (.raised error) ?_ rfl rfl nofun rfl rfl
      rw [hsound.exception, ho] at he
      cases outcome with
      | returned value => cases he
      | raised raised =>
        cases he
        exact ho
    next hn =>
      cases hs
      refine h.advanced hold hc .releasing ?_ rfl rfl nofun rfl rfl
      rw [hsound.exception, ho] at hn
      cases outcome with
      | returned value => exact ⟨value, ho⟩
      | raised error => cases hn
  next hc =>
    rw [hc] at hk
    split at hs
    next =>
      cases hs
      exact h.advanced hold hc .appending hk rfl rfl nofun rfl rfl
    next =>
      cases hs
      obtain ⟨value, hv⟩ := hk
      refine h.advanced hold hc (.returned old.box.result) ?_ rfl rfl nofun rfl rfl
      exact ⟨value, by rw [hsound.result, hv]; rfl, hv⟩
  next hc =>
    cases hs
    exact h.appended hold hc
  next => cases hs

/-- A step of the task, be it inside `create_task` or later. -/
theorem runnerStep (hl : old.caller.early = false) (hu : old.uses = some old.gate)
    (hended : ¬old.coro.Ended) (hg : old.caller.gaveUp = false ∨ old.coro.live = true)
    (box : Box ν) (hr : box.result = none) (he : box.exception = none)
    (hf : box.cancelRequested = old.box.cancelRequested) (ht : box.hasTask = true)
    (segment : Segment ν) :
    Consistent (runner state index { old with kickoff := false, box := box } segment) := by
  have hs := h.sound index old hold
  cases segment with
  | suspends =>
    refine h.setCall hold ?_ (hs.ran hl hended .suspended box nofun hr he
      hf (fun _ => ht) nofun nofun fun _ => hg) ?_
    · intro gate huses
      rw [Call.eq_gate_of_uses huses, hu]
    · intro hw hset
      exact absurd (h.unset index old hold hw hset) hended
  | ends outcome =>
    refine h.setGate hold hu true rfl ?_ fun _ _ => ⟨outcome, rfl⟩
    have hr : (box.store outcome).result = (Coro.ended outcome).result := by
      cases outcome with
      | returned value => rfl
      | raised error => exact hr
    have he : (box.store outcome).exception = (Coro.ended outcome).exception := by
      cases outcome with
      | returned value => exact he
      | raised error => rfl
    have hstored : (box.store outcome).cancelRequested = old.box.cancelRequested := by
      cases outcome with
      | returned value => exact hf
      | raised error => exact hf
    exact hs.ran hl hended (.ended outcome) (box.store outcome) nofun hr he
      hstored nofun nofun nofun nofun

end

theorem not_ended_of_live {coro : Coro ν} (hl : coro.live = true) : ¬coro.Ended := by
  rintro ⟨outcome, rfl⟩
  cases hl

theorem box_of_not_ended (h : old.Sound) (he : ¬old.coro.Ended) :
    old.box.result = none ∧ old.box.exception = none := by
  rw [h.result, h.exception]
  cases hc : old.coro with
  | ended outcome => exact absurd ⟨outcome, hc⟩ he
  | fresh | closed | created | suspended | neverEntered => exact ⟨rfl, rfl⟩

theorem late_of_not_fresh (h : old.Sound)
    (hc : old.kickoff = true ∨ old.coro ≠ .fresh) : old.caller.early = false := by
  cases he : old.caller.early with
  | false => rfl
  | true =>
    obtain ⟨hk, hf⟩ := h.early he
    rcases hc with hs | hc
    · cases hk.symm.trans hs
    · exact absurd hf hc

theorem kickoffStep (h : Consistent state) (hold : state.calls[index]? = some old)
    (hk : old.kickoff = true) (eager : Option (Segment ν)) :
    Consistent (kickoff state index old eager) := by
  have hs := h.sound index old hold
  have hf := hs.scheduled hk
  have hl := late_of_not_fresh hs (.inl hk)
  have he : ¬old.coro.Ended := by
    rw [hf]
    nofun
  have hbox := box_of_not_ended hs he
  have hu : old.uses = some old.gate := by
    rw [Call.uses, hk]
    simp
  unfold kickoff
  split
  next hr =>
    -- The caller gave up before the coroutine was started.
    have hgaveUp : old.caller.gaveUp = true := hs.flag.symm.trans hr
    refine h.setGate hold hu true rfl (hs.ran hl he .closed old.box nofun hbox.1
      hbox.2 rfl nofun (fun _ => hgaveUp) nofun nofun) ?_
    intro hw
    exact absurd ((Caller.not_watches_of_gaveUp hgaveUp).symm.trans hw) Bool.false_ne_true
  next hr =>
    have hgaveUp : old.caller.gaveUp = false := by
      rw [← hs.flag]
      simpa using hr
    cases eager with
    | none =>
      refine h.setCall hold ?_ (hs.ran hl he .created
        { old.box with hasTask := true } nofun hbox.1 hbox.2 rfl (fun _ => rfl) nofun nofun
        fun _ => .inl hgaveUp) ?_
      · intro gate huses
        rw [Call.eq_gate_of_uses huses, hu]
      · intro hw hset
        exact absurd (h.unset index old hold hw hset) he
    | some segment =>
      exact h.runnerStep hold hl hu he (.inl hgaveUp)
        { old.box with hasTask := true } hbox.1 hbox.2 rfl rfl segment

theorem scheduled_of_live (h : old.Sound) (hl : old.coro.live = true) :
    old.kickoff = false ∧ old.caller.early = false := by
  have hf : old.coro ≠ .fresh := by
    intro hc
    rw [hc] at hl
    cases hl
  refine ⟨?_, late_of_not_fresh h (.inr hf)⟩
  cases hk : old.kickoff with
  | false => rfl
  | true => exact absurd (h.scheduled hk) hf

section

variable (h : Consistent state) (hold : state.calls[index]? = some old)
include h hold

theorem resumeStep (hl : old.coro.live = true) (segment : Segment ν) :
    Consistent (runner state index old segment) := by
  have hs := h.sound index old hold
  have he := not_ended_of_live hl
  have hbox := box_of_not_ended hs he
  obtain ⟨hk, hlate⟩ := scheduled_of_live hs hl
  have hu : old.uses = some old.gate := by
    rw [Call.uses, hl]
    simp
  have hrun := h.runnerStep hold hlate hu he (.inr hl) old.box hbox.1 hbox.2 rfl
    (hs.task hl) segment
  rw [← hk] at hrun
  exact hrun

theorem neverEnteredStep (hl : old.coro.live = true) (hc : 0 < old.cancels) :
    Consistent (state.setCall index { old with coro := .neverEntered }) := by
  have hs := h.sound index old hold
  have he := not_ended_of_live hl
  have hbox := box_of_not_ended hs he
  obtain ⟨hk, hlate⟩ := scheduled_of_live hs hl
  have hnew := hs.ran hlate he .neverEntered old.box nofun hbox.1 hbox.2 rfl nofun nofun
    (fun _ => hc) nofun
  rw [← hk] at hnew
  refine h.setCall hold ?_ hnew ?_
  · intro gate hu
    rw [Call.eq_gate_of_uses hu, Call.uses, hl]
    simp
  · intro hw hset
    exact absurd (h.unset index old hold hw hset) he

private theorem cancelInBoxStep (hc : old.cancel = true) :
    Consistent (state.setCall index (cancelInBox old)) := by
  have hs := (h.sound index old hold).cancelled hc
  have hf : ∃ cancels, cancelInBox old = { old with cancel := false, cancels := cancels } := by
    rw [cancelInBox]
    split
    · exact ⟨_, rfl⟩
    · exact ⟨_, rfl⟩
  obtain ⟨cancels, hf⟩ := hf
  rw [hf] at hs ⊢
  exact h.setCall hold (fun gate hu => hu) hs fun hw hset =>
    h.unset index old hold hw hset

theorem loopStep {event : LoopEvent ν} (hs : stepLoop state index old event = some next) :
    Consistent next := by
  cases event with
  | kickoff eager =>
    rw [stepLoop] at hs
    split at hs
    next hk =>
      cases hs
      exact h.kickoffStep hold hk eager
    next => cases hs
  | resume segment =>
    rw [stepLoop] at hs
    split at hs
    next hc =>
      have hl : old.coro.live = true := by rw [hc]; rfl
      split at hs
      next hcancels =>
        cases hs
        exact h.neverEnteredStep hold hl hcancels
      next =>
        cases hs
        exact h.resumeStep hold hl segment
    next hsuspended =>
      cases hs
      exact h.resumeStep hold (by rw [hsuspended]; rfl) segment
    next => cases hs
  | cancelInBox =>
    rw [stepLoop] at hs
    split at hs
    next hcancel =>
      cases hs
      exact h.cancelInBoxStep hold hcancel
    next => cases hs

end

private theorem started (h : Consistent state) (timeout : Option Timeout) :
    Consistent { state with calls := state.calls ++ [{ timeout := timeout }] } where
  sound := by
    intro index call hc
    rcases getElem?_started hc with ⟨_, rfl⟩ | hc
    · exact {
        knows := trivial
        early := fun _ => ⟨rfl, rfl⟩
        scheduled := nofun
        awaited := nofun
        flag := rfl
        result := rfl
        exception := rfl
        task := nofun
        closed := nofun
        neverEntered := nofun
        requests := nofun
        request := nofun
        asked := nofun }
    · exact h.sound index call hc
  unset := by
    intro index call hc hw hset
    rcases getElem?_started hc with ⟨_, rfl⟩ | hc
    · cases hw
    · exact h.unset index call hc hw hset
  pooled := h.pooled.started rfl

theorem stepped (h : Consistent state) {pyEvent : PyEventGate} {action : Action ν}
    (hs : step pyEvent action state = some next) : Consistent next := by
  cases action with
  | warm =>
    cases hs
    exact ⟨h.sound, h.unset, h.pooled.stocked⟩
  | submitFast timeout =>
    cases hs
    exact h.started timeout
  | caller index event =>
    obtain ⟨call, hc, hs⟩ := Option.bind_eq_some_iff.1 hs
    exact h.callerStep hc hs
  | loop index event =>
    obtain ⟨call, hc, hs⟩ := Option.bind_eq_some_iff.1 hs
    exact h.loopStep hc hs

theorem of_reaches {pyEvent : PyEventGate} (hr : Reaches (step pyEvent) {} state) :
    Consistent state := by
  refine hr.keeps (fun _ _ _ hs hb => hb.stepped hs) ?_
  exact ⟨by simp, by simp, Pooled.empty Call.uses⟩

end Consistent

/-- The coroutine was not started and is not going to be. -/
def Call.NeverStarts (call : Call ν) : Prop :=
  call.coro = .fresh ∧ call.box.cancelRequested = true ∨ call.coro = .closed ∨
    call.coro = .neverEntered

theorem Call.Sound.after_timeout {call : Call ν} (h : call.Sound) {error : PyErr}
    (hcaller : call.caller = .timedOut error) :
    call.NeverStarts ∨ call.coro.Ended ∨ call.cancel = true ∨ 0 < call.cancels := by
  have hf : call.box.cancelRequested = true := by
    rw [h.flag, hcaller]
    rfl
  have ha := h.asked error hcaller
  cases hc : call.coro with
  | fresh => exact .inl (.inl ⟨hc, hf⟩)
  | closed => exact .inl (.inr (.inl hc))
  | created | suspended => exact .inr (.inr (ha (by rw [hc]; rfl)))
  | ended outcome => exact .inr (.inl ⟨outcome, rfl⟩)
  | neverEntered => exact .inl (.inr (.inr hc))

/-- A call returns or raises what its own coroutine did, or raises the `TimeoutError`; only a
timeout that no deadline can be made of gives anything else.  After the `TimeoutError` the
coroutine never starts, or it has ended by itself, or its cancel request is scheduled or has been
delivered.  A thread wakes up for its own coroutine: no other call's callback may set its gate. -/
theorem submits_stay_apart (pyEvent : PyEventGate) {state : State ν}
    (hreaches : Reaches (step pyEvent) {} state) {index : Nat} {call : Call ν}
    (hcall : state.calls[index]? = some call) :
    (∀ value, call.caller = .returned value →
        ∃ own, value = some own ∧ call.coro = .ended (.returned own)) ∧
      (∀ error, call.caller = .raised error → call.coro = .ended (.raised error)) ∧
      (∀ error, call.caller = .timedOut error →
        (∃ given, call.timeout = some given ∧ error = given.error) ∧
          (call.NeverStarts ∨ call.coro.Ended ∨ call.cancel = true ∨ 0 < call.cancels)) ∧
      (call.caller = .overflowed → fits call.timeout = false) ∧
      (call.caller = .woken → call.coro.Ended) ∧
      ∀ (other : Nat) (otherCall : Call ν), state.calls[other]? = some otherCall →
        other ≠ index → call.caller.holds = true →
        otherCall.kickoff = true ∨ otherCall.coro.live = true → otherCall.gate ≠ call.gate := by
  have hconsistent := Consistent.of_reaches hreaches
  have hsound := hconsistent.sound index call hcall
  have hk := hsound.knows
  refine ⟨?_, ?_, ?_, ?_, ?_, ?_⟩
  · intro value hc
    rwa [hc] at hk
  · intro error hc
    rwa [hc] at hk
  · intro error hc
    have ha := hsound.after_timeout hc
    rw [hc] at hk
    exact ⟨hk, ha⟩
  · intro hc
    rwa [hc] at hk
  · intro hc
    rwa [hc] at hk
  · intro other otherCall ho hne hh hs hg
    have hu : call.uses = some call.gate := by
      rw [Call.uses, hh]
      rfl
    have husesOther : otherCall.uses = some call.gate := by
      rw [Call.uses, hg]
      rcases hs with hs | hs <;> simp [hs]
    exact hne (hconsistent.pooled.alone other index otherCall call call.gate ho hcall
      husesOther hu)

def reusedRun : List (Action Nat) :=
  [.warm, .submitFast none, .caller 0 .acquire, .caller 0 .clear, .caller 0 .submit,
    .loop 0 (.kickoff none), .loop 0 (.resume .suspends), .loop 0 (.resume (.ends (.returned 7))),
    .caller 0 .wake, .caller 0 .read, .caller 0 .release, .caller 0 .append,
    .submitFast none, .caller 1 .acquire, .caller 1 .clear, .caller 1 .submit,
    .loop 1 (.kickoff (some (.ends (.returned 8)))), .caller 1 .wake, .caller 1 .read,
    .caller 1 .release, .caller 1 .append]

theorem reused_gate_returns_own_result :
    ∃ state call, runActions (step false) reusedRun ({} : State Nat) = some state ∧
      state.calls[1]? = some call ∧ call.gate = 0 ∧ call.caller = .returned (some 8) ∧
      call.coro = .ended (.returned 8) := by
  obtain ⟨state, call, hrun, hc, hg, hcaller⟩ :
      ∃ state call, runActions (step false) reusedRun ({} : State Nat) = some state ∧
        state.calls[1]? = some call ∧ call.gate = 0 ∧ call.caller = .returned (some 8) :=
    ⟨_, _, rfl, rfl, rfl, rfl⟩
  obtain ⟨hr, _⟩ := submits_stay_apart false (reaches_of_runActions hrun) hc
  obtain ⟨own, hown, hcoro⟩ := hr (some 8) hcaller
  cases hown
  exact ⟨state, call, hrun, hc, hg, hcaller, hcoro⟩

def lateRun : List (Action Nat) :=
  [.submitFast (some ⟨"0.5", true⟩), .caller 0 .acquire, .caller 0 .submit,
    .loop 0 (.kickoff (some .suspends)), .caller 0 .timeOut,
    .loop 0 (.resume (.ends (.returned 7))), .caller 0 .flag, .caller 0 .giveUp,
    .loop 0 .cancelInBox]

def endlessRun : List (Action Nat) :=
  [.submitFast (some ⟨"inf", false⟩), .caller 0 .acquire, .caller 0 .submit,
    .caller 0 .overflow, .loop 0 (.kickoff (some .suspends))]

/-- A coroutine that ends before `_cancel_in_box` runs is never cancelled, and the wait with
`timeout=inf` raises while the coroutine goes on. -/
theorem ended_without_cancel_request :
    (∃ state call, runActions (step false) lateRun ({} : State Nat) = some state ∧
      state.calls[0]? = some call ∧
      call.caller = .timedOut ⟨timeoutErrorMro,
        "fastapi-turbo worker-loop submit timed out after 0.5s"⟩ ∧
      call.coro = .ended (.returned 7) ∧ call.cancel = false ∧ call.cancels = 0) ∧
    ∃ state call, runActions (step false) endlessRun ({} : State Nat) = some state ∧
      state.calls[0]? = some call ∧ call.caller = .overflowed ∧ call.coro = .suspended ∧
      call.cancel = false ∧ call.cancels = 0 :=
  ⟨⟨_, _, rfl, rfl, rfl, rfl, rfl, rfl⟩, _, _, rfl, rfl, rfl, rfl, rfl, rfl⟩

end FastapiTurbo.AsyncWorker
