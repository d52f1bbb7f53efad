import FastapiTurbo.Cluster

/-! The list of workers: who is in it while `pick` goes through it, and whether a worker
whose reader has ended can come back. -/
namespace FastapiTurbo.Cluster

open Lib

def Dispatch.inPick : Dispatch → Bool
  | .loading .. => true
  | .searching .. => true
  | .taking _ => true
  | _ => false

structure Picking (state : State) : Prop where
  locked : ∀ (task : Nat) (dispatch : Dispatch), state.dispatches[task]? = some dispatch →
    dispatch.inPick = true → state.lock = some task
  listed : ∀ (task : Nat) (dispatch : Dispatch), state.dispatches[task]? = some dispatch →
    dispatch.inPick = true → dispatch.named ⊆ state.list

theorem picking_initial : Picking {} where
  locked := by simp
  listed := by simp

variable {state next : State}

/-- Without the lock nobody is within `pick`, and the list may change. -/
theorem Picking.of_unlocked (hpicking : Picking state) (hlock : state.lock = none)
    (hd : next.dispatches = state.dispatches) : Picking next := by
  have hn : ∀ (task : Nat) (dispatch : Dispatch), next.dispatches[task]? = some dispatch →
      dispatch.inPick = true → False := by
    intro task dispatch ht hp
    rw [hd] at ht
    have hl := hpicking.locked task dispatch ht hp
    rw [hlock] at hl
    cases hl
  exact ⟨fun task dispatch ht hp => (hn task dispatch ht hp).elim,
    fun task dispatch ht hp => (hn task dispatch ht hp).elim⟩

variable {task : Nat}

theorem Picking.move (hpicking : Picking state) {old new : Dispatch}
    (ht : state.dispatches[task]? = some old)
    (hd : next.dispatches = state.dispatches.set task new) (hlist : next.list = state.list)
    (hnew : new.inPick = true → next.lock = some task ∧ new.named ⊆ state.list)
    (hlock : next.lock = state.lock ∨ state.lock = none ∨ state.lock = some task) :
    Picking next := by
  have hc : ∀ (other : Nat) (dispatch : Dispatch), next.dispatches[other]? = some dispatch →
      dispatch.inPick = true →
      next.lock = some other ∧ dispatch.named ⊆ next.list := by
    intro other dispatch ho hp
    rw [hd] at ho
    rw [hlist]
    rcases getElem?_moved ht ho with ⟨rfl, rfl⟩ | ⟨hne, hb⟩
    · exact hnew hp
    · have hl := hpicking.locked other dispatch hb hp
      refine ⟨?_, hpicking.listed other dispatch hb hp⟩
      rcases hlock with hs | hf | hown
      · rw [hs]
        exact hl
      · rw [hf] at hl
        cases hl
      · rw [hown, Option.some.injEq] at hl
        exact absurd hl.symm hne
  exact ⟨fun other dispatch ho hp => (hc other dispatch ho hp).1,
    fun other dispatch ho hp => (hc other dispatch ho hp).2⟩

/-- A task within `pick` goes on with workers that it knew. -/
theorem Picking.goOn (hp : Picking state) {old new : Dispatch}
    (ht : state.dispatches[task]? = some old) (hpick : old.inPick = true)
    (hd : next.dispatches = state.dispatches.set task new) (hlist : next.list = state.list)
    (hl : next.lock = state.lock) (hn : new.named ⊆ old.named) : Picking next := by
  refine hp.move ht hd hlist (fun _ => ⟨?_, ?_⟩) (.inl hl)
  · rw [hl]
    exact hp.locked task old ht hpick
  · exact List.Subset.trans hn (hp.listed task old ht hpick)

theorem Picking.dispatch (hp : Picking state) {event : DispatchEvent} {dispatch : Dispatch}
    (ht : state.dispatches[task]? = some dispatch)
    (hm : Dispatched state task event dispatch next) : Picking next := by
  cases hm with
  | unregistered hl hlist => exact hp.move ht rfl rfl nofun (.inr (.inl hl))
  | locked hl hlist =>
    refine hp.move ht rfl rfl (fun _ => ⟨rfl, ?_⟩) (.inr (.inl hl))
    simp [Dispatch.named]
  | loaded | found hload | passedOver hload =>
    refine hp.goOn ht rfl rfl rfl rfl ?_
    simp [Dispatch.named]
  | turned =>
    refine hp.goOn ht rfl rfl rfl rfl ?_
    intro worker hw
    simpa [Dispatch.named, mem_probeOrder] using hw
  | missed | taken =>
    exact hp.move ht rfl rfl nofun (.inr (.inr (hp.locked task _ ht rfl)))
  | ready | unready | sent | unsent | freed =>
    exact hp.move ht rfl rfl nofun (.inl rfl)

theorem Picking.step {action : Action} (hs : Stepped state action next) (hp : Picking state) :
    Picking next := by
  cases hs with
  | registered | worked hm => exact ⟨hp.locked, hp.listed⟩
  | pushed hl ha | retained hl hr => exact hp.of_unlocked hl rfl
  | accepted =>
    refine ⟨?_, ?_⟩ <;> intro task dispatch ht hpick <;>
      rcases getElem?_started ht with ⟨-, rfl⟩ | hb
    · cases hpick
    · exact hp.locked task dispatch hb hpick
    · cases hpick
    · exact hp.listed task dispatch hb hpick
  | dispatched ht hm => exact hp.dispatch ht hm

theorem picking_of_reaches (hr : Reaches step {} state) : Picking state :=
  hr.keeps (fun _ _ _ hs => Picking.step (stepped_of_step hs)) picking_initial

/-- A worker whose reader has ended is not in the list, and `pick` does not take it. -/
def Unlisted (state : State) : Prop :=
  ∀ worker, (state.peers worker).reader = .ended →
    worker ∉ state.list ∧ ∀ task : Nat, state.dispatches[task]? ≠ some (.taking worker)

/-- `add` pushes no worker whose reader has ended. -/
def PushesInTime (state : State) (action : Action) : Prop :=
  action = .push → ∀ worker, state.adding = some worker → (state.peers worker).reader ≠ .ended

theorem PeerStepped.reader_ended {peer next : Peer} {event : PeerEvent}
    (hm : PeerStepped peer event next) (he : next.reader = .ended) :
    peer.reader = .ended := by
  cases hm with
  | served | unusable | bare | finished | notified | disconnected => exact he
  | read | checked | skipped | subtracted | left => cases he

/-- A worker that leaves the list stays out of it unless `add` pushes it. -/
theorem unlisted_step {action : Action} (hintime : PushesInTime state action)
    (hstep : Stepped state action next)
    (hu : ∀ worker, (state.peers worker).reader = .ended → worker ∉ state.list) :
    ∀ worker, (next.peers worker).reader = .ended → worker ∉ next.list := by
  intro worker he
  cases hstep with
  | registered =>
    dsimp only at he
    by_cases hw : worker = state.workers
    · rw [hw, peers_setPeer_self] at he
      cases he
    · rw [peers_setPeer_of_ne hw] at he
      exact hu worker he
  | @pushed added hlock ha =>
    intro hmem
    rcases List.mem_append.1 hmem with hl | hlast
    · exact hu worker he hl
    · rw [List.mem_singleton] at hlast
      exact hintime rfl added ha (hlast ▸ he)
  | accepted => exact hu worker he
  | @retained other hlock hr =>
    intro hmem
    obtain ⟨hl, hne⟩ := List.mem_filter.1 hmem
    rw [decide_eq_true_eq] at hne
    dsimp only at he
    rw [peers_setPeer_of_ne hne] at he
    exact hu worker he hl
  | dispatched ht hm =>
    have hs := hm.sameWorkers
    obtain ⟨outstanding, messages, hp⟩ := hs.peers worker
    rw [hp] at he
    rw [hs.list]
    exact hu worker he
  | @worked other event peer hm =>
    by_cases hw : worker = other
    · rw [hw, peers_setPeer_self] at he
      rw [hw]
      exact hu other (hm.reader_ended he)
    · rw [peers_setPeer_of_ne hw] at he
      exact hu worker he

private theorem unlisted_of_picking (hp : Picking state)
    (hu : ∀ worker, (state.peers worker).reader = .ended → worker ∉ state.list) :
    Unlisted state := by
  intro worker he
  refine ⟨hu worker he, ?_⟩
  intro task ht
  exact hu worker he (hp.listed task _ ht rfl List.mem_cons_self)

/-- In a run workers whose readers have ended stay out of the list exactly when every worker
is pushed before its reader has ended. -/
theorem ended_stay_unlisted_iff (actions : List Action) (final : State)
    (hrun : runActions step actions {} = some final) :
    (∀ front back state, actions = front ++ back → runActions step front {} = some state →
        Unlisted state) ↔
      Meets step PushesInTime actions {} := by
  constructor
  · intro hall
    rw [meets_iff]
    rintro front action back between rfl hf rfl worker ha he
    rw [runActions_append, hf, Option.bind_some] at hrun
    obtain ⟨next, hn, -⟩ := Option.bind_eq_some_iff.1 hrun
    have hpush : runActions step (front ++ [.push]) {} = some next := by
      rw [runActions_append, hf, Option.bind_some, runActions, hn]
      rfl
    have hafter := hall (front ++ [.push]) back next (by simp) hpush worker
    cases stepped_of_step hn with
    | @pushed added hl hp =>
      rw [ha, Option.some.injEq] at hp
      subst hp
      exact (hafter he).1 (List.mem_append_right _ List.mem_cons_self)
  · rintro hm front back state rfl hf
    refine unlisted_of_picking (picking_of_reaches (reaches_of_runActions hf)) ?_
    exact (hm.of_append hf).1.keeps hf
      (fun _ _ _ hintime hs => unlisted_step hintime (stepped_of_step hs)) (by simp)

theorem registered_worker_leaves :
    ∃ final, runActions step [.register, .push, .peer 0 .disconnect, .peer 0 .leave, .retain 0]
        {} = some final ∧ final.list = [] ∧ Unlisted final := by
  have hrun : runActions step [.register, .push, .peer 0 .disconnect, .peer 0 .leave, .retain 0]
      {} = some _ := rfl
  refine ⟨_, hrun, rfl, ?_⟩
  refine (ended_stay_unlisted_iff _ _ hrun).2 ?_ _ [] _ (by simp) hrun
  refine ⟨nofun, ?_⟩
  rintro - ⟨⟩
  refine ⟨?_, ?_⟩
  · rintro - worker ⟨⟩
    exact nofun
  rintro - ⟨⟩
  refine ⟨nofun, ?_⟩
  rintro - ⟨⟩
  refine ⟨nofun, ?_⟩
  rintro - ⟨⟩
  exact ⟨nofun, fun _ _ => trivial⟩

/-- The worker disconnects and its reader ends before `add` has pushed it. -/
theorem pushed_after_reader_ended :
    ∃ final, runActions step [.register, .peer 0 .disconnect, .peer 0 .leave, .retain 0, .push,
        .accept, .dispatch 0 .lock, .dispatch 0 .load, .dispatch 0 .cursor, .dispatch 0 .probe]
        {} = some final ∧
      (final.peers 0).reader = .ended ∧ final.list = [0] ∧
      final.dispatches[0]? = some (.taking 0) :=
  ⟨_, rfl, rfl, rfl, rfl⟩

end FastapiTurbo.Cluster
