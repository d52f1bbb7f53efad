import FastapiTurbo.Cluster

/-! The acceptor's counters: what each of them counts in every run. -/
namespace FastapiTurbo.Cluster

open Lib List

def Peer.owed (peer : Peer) : Nat :=
  peer.messages + peer.serving + peer.done + peer.notices + peer.reader.left + peer.bare +
    peer.orphaned

/-- The task has raised the counter of the worker and not yet passed the descriptor on. -/
def Dispatch.holds (worker : Nat) : Dispatch → Bool
  | .picked other => other == worker
  | .sending other => other == worker
  | .failing other => other == worker
  | _ => false

def State.held (state : State) (worker : Nat) : Nat :=
  state.dispatches.countP (Dispatch.holds worker)

/-- Every counter is made up of the connections on their way to the worker, those it serves,
the notices on their way back and what came to nothing; only workers that have connected
count. -/
structure Counted (state : State) : Prop where
  outstanding : ∀ worker, (state.peers worker).outstanding =
    (state.peers worker).owed + state.held worker
  fresh : ∀ worker, state.workers ≤ worker → state.peers worker = {}
  list_lt : ∀ worker ∈ state.list, worker < state.workers
  adding_lt : ∀ worker ∈ state.adding, worker < state.workers
  named_lt : ∀ dispatch ∈ state.dispatches, ∀ worker ∈ dispatch.named, worker < state.workers

theorem counted_initial : Counted {} where
  outstanding := fun _ => rfl
  fresh := fun _ _ => rfl
  list_lt := by simp
  adding_lt := by simp
  named_lt := by simp

theorem PeerStepped.owed {peer next : Peer} {event : PeerEvent}
    (hm : PeerStepped peer event next) :
    next.outstanding = peer.outstanding ∧ next.owed = peer.owed ∨
      next.outstanding = fetchSub peer.outstanding ∧ next.owed + 1 = peer.owed ∨
      peer.outstanding = 0 ∧ 0 < peer.owed := by
  cases hm with
  | served hready | unusable hready | bare hready | finished hready | notified hready
    | disconnected hready =>
    refine .inl ⟨rfl, ?_⟩
    dsimp only [Peer.owed]
    omega
  | read hr hn =>
    refine .inl ⟨rfl, ?_⟩
    dsimp only [Peer.owed]
    rw [hr]
    dsimp only [Reader.left]
    omega
  | checked hr | left hr =>
    refine .inl ⟨rfl, ?_⟩
    dsimp only [Peer.owed]
    rw [hr]
    rfl
  | skipped hr hz =>
    refine .inr (.inr ⟨hz, ?_⟩)
    dsimp only [Peer.owed]
    rw [hr]
    dsimp only [Reader.left]
    omega
  | subtracted hr =>
    refine .inr (.inl ⟨rfl, ?_⟩)
    dsimp only [Peer.owed]
    rw [hr]
    dsimp only [Reader.left]
    omega

theorem not_peerStepped_fresh {event : PeerEvent} {next : Peer} :
    ¬PeerStepped {} event next := by
  intro hm
  cases hm with
  | served hr | unusable hr | bare hr | finished hr | notified hr
    | disconnected hr => cases hr
  | read hreader hn | checked hreader | skipped hreader hz | subtracted hreader
    | left hreader => cases hreader

theorem fetchSub_of_pos {counter : Nat} (hpos : 0 < counter) : fetchSub counter = counter - 1 := by
  rw [fetchSub, if_neg (Nat.ne_of_gt hpos)]

theorem lt_workers_of_peerStepped {state : State} (hcounted : Counted state) {worker : Nat}
    {event : PeerEvent} {next : Peer} (hm : PeerStepped (state.peers worker) event next) :
    worker < state.workers := by
  by_contra hge
  rw [hcounted.fresh worker (Nat.le_of_not_lt hge)] at hm
  exact not_peerStepped_fresh hm

theorem Counted.change {state next : State} (hcounted : Counted state) {worker : Nat}
    (hw : worker < state.workers)
    (hp : ∀ other, other ≠ worker → next.peers other = state.peers other)
    (hh : ∀ other, other ≠ worker → next.held other = state.held other)
    (hpeer : (next.peers worker).outstanding = (next.peers worker).owed + next.held worker)
    (hs : next.workers = state.workers ∧ next.list = state.list ∧ next.adding = state.adding)
    (hn : ∀ dispatch ∈ next.dispatches, ∀ named ∈ dispatch.named, named < state.workers) :
    Counted next where
  outstanding := by
    intro other
    by_cases ho : other = worker
    · rw [ho]
      exact hpeer
    · rw [hp other ho, hh other ho]
      exact hcounted.outstanding other
  fresh := by
    intro other ho
    rw [hs.1] at ho
    rw [hp other (by omega)]
    exact hcounted.fresh other ho
  list_lt := by
    rw [hs.1, hs.2.1]
    exact hcounted.list_lt
  adding_lt := by
    rw [hs.1, hs.2.2]
    exact hcounted.adding_lt
  named_lt := by
    rw [hs.1]
    exact hn

section

variable {state : State} (hcounted : Counted state)
include hcounted

theorem Counted.setPeer {worker : Nat} (hw : worker < state.workers) {peer : Peer}
    (hp : peer.outstanding = peer.owed + state.held worker) :
    Counted (state.setPeer worker peer) := by
  refine hcounted.change hw (fun other ho => peers_setPeer_of_ne ho peer)
    (fun _ _ => rfl) ?_ ⟨rfl, rfl, rfl⟩ hcounted.named_lt
  rw [peers_setPeer_self]
  exact hp

theorem Counted.peer {worker : Nat} {event : PeerEvent} {next : Peer}
    (hm : PeerStepped (state.peers worker) event next) : Counted (state.setPeer worker next) := by
  apply hcounted.setPeer (lt_workers_of_peerStepped hcounted hm)
  have hb := hcounted.outstanding worker
  rcases hm.owed with ⟨hc, ho⟩ | ⟨hc, ho⟩ | ⟨hz, ho⟩
  · omega
  · rw [fetchSub_of_pos (by omega)] at hc
    omega
  · omega

theorem named_lt_of_set {task : Nat} {new : Dispatch}
    (hn : ∀ worker ∈ new.named, worker < state.workers) :
    ∀ dispatch ∈ state.dispatches.set task new, ∀ worker ∈ dispatch.named,
      worker < state.workers := by
  intro dispatch hd
  rcases mem_or_eq_of_mem_set hd with hold | rfl
  · exact hcounted.named_lt dispatch hold
  · exact hn

theorem Counted.setDispatch {task : Nat} {old new : Dispatch}
    (ht : state.dispatches[task]? = some old)
    (hholds : ∀ worker, new.holds worker = old.holds worker)
    (hn : ∀ worker ∈ new.named, worker < state.workers) :
    Counted (state.setDispatch task new) where
  outstanding := by
    intro worker
    have hh := countP_moved ht (Dispatch.holds worker) new
    rw [hholds worker] at hh
    rw [State.held, State.setDispatch]
    rw [Nat.add_right_cancel hh]
    exact hcounted.outstanding worker
  fresh := hcounted.fresh
  list_lt := hcounted.list_lt
  adding_lt := hcounted.adding_lt
  named_lt := named_lt_of_set hcounted hn

theorem Counted.setBoth {task : Nat} {old new : Dispatch} (ht : state.dispatches[task]? = some old)
    {worker : Nat} (hn : ∀ named ∈ new.named, named < state.workers) (hw : worker < state.workers)
    (hothers : ∀ other, other ≠ worker → new.holds other = old.holds other) {peer : Peer}
    (hp : peer.outstanding + (if old.holds worker then 1 else 0) =
      peer.owed + state.held worker + (if new.holds worker then 1 else 0)) :
    Counted ((state.setPeer worker peer).setDispatch task new) := by
  refine hcounted.change hw (fun other ho => peers_setPeer_of_ne ho peer)
    (fun other ho => ?_) ?_ ⟨rfl, rfl, rfl⟩ (named_lt_of_set hcounted hn)
  · have hh := countP_moved ht (Dispatch.holds other) new
    rw [hothers other ho] at hh
    exact Nat.add_right_cancel hh
  · have hh : ((state.setPeer worker peer).setDispatch task new).held worker +
        (if old.holds worker then 1 else 0) =
          state.held worker + (if new.holds worker then 1 else 0) :=
      countP_moved ht (Dispatch.holds worker) new
    have hs : ((state.setPeer worker peer).setDispatch task new).peers worker = peer :=
      peers_setPeer_self state worker peer
    rw [hs]
    omega

theorem Counted.setLock (lock : Option Nat) : Counted (state.setLock lock) :=
  ⟨hcounted.outstanding, hcounted.fresh, hcounted.list_lt, hcounted.adding_lt, hcounted.named_lt⟩

theorem Counted.setNext (next : Nat) : Counted { state with next := next } :=
  ⟨hcounted.outstanding, hcounted.fresh, hcounted.list_lt, hcounted.adding_lt, hcounted.named_lt⟩

end

theorem one_le_held {state : State} {task : Nat} {dispatch : Dispatch}
    (ht : state.dispatches[task]? = some dispatch) {worker : Nat}
    (hh : dispatch.holds worker = true) : 1 ≤ state.held worker :=
  countP_pos_iff.2 ⟨dispatch, mem_of_getElem? ht, hh⟩

theorem Counted.goOn {state : State} (hcounted : Counted state) {task : Nat} {old new : Dispatch}
    (ht : state.dispatches[task]? = some old) (hh : ∀ worker, new.holds worker = old.holds worker)
    (hn : new.named ⊆ old.named) : Counted (state.setDispatch task new) :=
  hcounted.setDispatch ht hh fun worker hw =>
    hcounted.named_lt old (mem_of_getElem? ht) worker (hn hw)

theorem Counted.dispatch {state next : State} (hcounted : Counted state) {task : Nat}
    {event : DispatchEvent} {dispatch : Dispatch} (ht : state.dispatches[task]? = some dispatch)
    (hm : Dispatched state task event dispatch next) : Counted next := by
  have hk : ∀ worker ∈ dispatch.named, worker < state.workers :=
    hcounted.named_lt dispatch (mem_of_getElem? ht)
  cases hm with
  | unregistered hl hlist | ready | unready | unsent =>
    exact hcounted.goOn ht (fun _ => by rfl) (List.Subset.refl _)
  | locked hl hlist =>
    apply Counted.setLock
    refine hcounted.setDispatch ht (fun _ => by rfl) ?_
    intro worker hw
    exact hcounted.list_lt worker (by simpa [Dispatch.named] using hw)
  | loaded | found hload | passedOver hload =>
    refine hcounted.goOn ht (fun _ => by rfl) ?_
    simp [Dispatch.named]
  | turned =>
    refine (hcounted.setNext _).goOn ht (fun _ => by rfl) ?_
    intro worker hw
    simpa [Dispatch.named, mem_probeOrder] using hw
  | missed =>
    apply Counted.setLock
    exact hcounted.goOn ht (fun _ => by rfl) (List.Subset.refl _)
  | @taken worker =>
    have hb := hcounted.outstanding worker
    apply Counted.setLock
    refine hcounted.setBoth ht ?_ (hk worker mem_cons_self) ?_ ?_
    · exact hk
    · intro other ho
      simp [Dispatch.holds, Ne.symm ho]
    · simp only [Dispatch.holds, Peer.owed, beq_self_eq_true, if_true, Bool.false_eq_true, if_false]
        at hb ⊢
      omega
  | @sent worker ha =>
    have hb := hcounted.outstanding worker
    have hh := one_le_held ht (beq_self_eq_true worker)
    refine hcounted.setBoth ht ?_ (hk worker mem_cons_self) ?_ ?_
    · simp [Dispatch.named]
    · intro other ho
      simp [Dispatch.holds, Ne.symm ho]
    · simp only [Dispatch.holds, Peer.owed, beq_self_eq_true, if_true, Bool.false_eq_true,
        if_false] at hb ⊢
      omega
  | @freed worker =>
    have hb := hcounted.outstanding worker
    have hh := one_le_held ht (beq_self_eq_true worker)
    refine hcounted.setBoth ht ?_ (hk worker mem_cons_self) ?_ ?_
    · simp [Dispatch.named]
    · intro other ho
      simp [Dispatch.holds, Ne.symm ho]
    · rw [fetchSub_of_pos (by omega)]
      simp only [Dispatch.holds, Peer.owed, beq_self_eq_true, if_true, Bool.false_eq_true, if_false]
        at hb ⊢
      omega

theorem held_concat (state : State) (worker : Nat) :
    ({ state with dispatches := state.dispatches ++ [.waiting] } : State).held worker =
      state.held worker := by
  simp [State.held, Dispatch.holds]

section

variable {state : State} (hc : Counted state)
include hc

theorem Counted.register :
    Counted { state.setPeer state.workers { reader := .reading 0 false, alive := true } with
      workers := state.workers + 1
      adding := some state.workers } where
  outstanding := by
    intro worker
    by_cases hw : worker = state.workers
    · have hh : state.held worker = 0 := by
        have hb := hc.outstanding worker
        rw [hc.fresh worker (Nat.le_of_eq hw.symm)] at hb
        exact (Nat.add_eq_zero_iff.1 hb.symm).2
      rw [hw, peers_setPeer_self]
      rw [hw] at hh
      exact ((Nat.zero_add _).trans hh).symm
    · rw [peers_setPeer_of_ne hw]
      exact hc.outstanding worker
  fresh := by
    intro worker hw
    dsimp only at hw ⊢
    rw [peers_setPeer_of_ne (by omega)]
    exact hc.fresh worker (by omega)
  list_lt := fun worker hw => Nat.lt_succ_of_lt (hc.list_lt worker hw)
  adding_lt := by
    intro worker hw
    cases hw
    exact Nat.lt_succ_self _
  named_lt := fun dispatch hd worker hw =>
    Nat.lt_succ_of_lt (hc.named_lt dispatch hd worker hw)

theorem Counted.push {worker : Nat} (ha : state.adding = some worker) :
    Counted { state with list := state.list ++ [worker], adding := none } where
  outstanding := hc.outstanding
  fresh := hc.fresh
  list_lt := by
    intro other ho
    rcases mem_append.1 ho with hl | hlast
    · exact hc.list_lt other hl
    · rw [mem_singleton.1 hlast]
      exact hc.adding_lt worker ha
  adding_lt := nofun
  named_lt := hc.named_lt

theorem Counted.accept :
    Counted { state with dispatches := state.dispatches ++ [.waiting] } where
  outstanding := by
    intro worker
    rw [held_concat]
    exact hc.outstanding worker
  fresh := hc.fresh
  list_lt := hc.list_lt
  adding_lt := hc.adding_lt
  named_lt := by
    intro dispatch hd
    rcases mem_append.1 hd with hold | hnew
    · exact hc.named_lt dispatch hold
    · rw [mem_singleton.1 hnew]
      simp [Dispatch.named]

theorem Counted.retain {worker : Nat} (hr : (state.peers worker).reader = .retaining) :
    Counted { state.setPeer worker { state.peers worker with reader := .ended } with
      list := state.list.filter (· ≠ worker) } := by
  have hw : worker < state.workers := by
    by_contra hge
    rw [hc.fresh worker (Nat.le_of_not_lt hge)] at hr
    cases hr
  have hp : Counted (state.setPeer worker { state.peers worker with reader := .ended }) := by
    apply hc.setPeer hw
    have hb := hc.outstanding worker
    rw [Peer.owed, hr] at hb
    exact hb
  refine ⟨hp.outstanding, hp.fresh, ?_, hp.adding_lt, hp.named_lt⟩
  intro other ho
  exact hc.list_lt other (mem_filter.1 ho).1

end

theorem Counted.step {action : Action} {state next : State}
    (hs : Stepped state action next) (hcounted : Counted state) : Counted next := by
  cases hs with
  | registered => exact hcounted.register
  | pushed hl ha => exact hcounted.push ha
  | accepted => exact hcounted.accept
  | retained hl hr => exact hcounted.retain hr
  | dispatched ht hm => exact hcounted.dispatch ht hm
  | worked hm => exact hcounted.peer hm

theorem counted_of_reaches {state : State} (hr : Reaches step {} state) : Counted state :=
  hr.keeps (fun _ _ _ hs => Counted.step (stepped_of_step hs)) counted_initial

def Dispatch.toFree : Dispatch → Option Nat
  | .failing worker => some worker
  | _ => none

def lowered (state : State) : Action → Option Nat
  | .peer worker .subtract => some worker
  | .dispatch task .free => state.dispatches[task]?.bind Dispatch.toFree
  | _ => none

/-- Nothing is under way to the worker or back from it. -/
def State.Quiet (state : State) (worker : Nat) : Prop :=
  (∀ dispatch ∈ state.dispatches, dispatch.holds worker = false) ∧
    (state.peers worker).messages = 0 ∧ (state.peers worker).done = 0 ∧
    (state.peers worker).notices = 0 ∧ (state.peers worker).reader.left = 0

def Peer.Intact (peer : Peer) : Prop :=
  peer.alive = true → peer.orphaned = 0

theorem intact_setPeer {state : State} (hintact : ∀ worker, (state.peers worker).Intact)
    {worker : Nat} {peer : Peer} (hp : peer.Intact) :
    ∀ other, ((state.setPeer worker peer).peers other).Intact := by
  intro other
  by_cases ho : other = worker
  · rw [ho, peers_setPeer_self]
    exact hp
  · rw [peers_setPeer_of_ne ho]
    exact hintact other

theorem Peer.Intact.step {peer next : Peer} {event : PeerEvent}
    (hm : PeerStepped peer event next) (hintact : peer.Intact) : next.Intact := by
  cases hm with
  | disconnected ha => exact nofun
  | _ => exact hintact

theorem intact_step {action : Action} {state next : State} (hs : Stepped state action next)
    (hintact : ∀ worker, (state.peers worker).Intact) : ∀ worker, (next.peers worker).Intact := by
  cases hs with
  | registered => exact intact_setPeer hintact fun _ => rfl
  | pushed hl ha | accepted => exact hintact
  | @retained worker hl hr => exact intact_setPeer hintact (hintact worker)
  | dispatched ht hm =>
    intro worker
    obtain ⟨outstanding, messages, hp⟩ := hm.sameWorkers.peers worker
    rw [hp]
    exact hintact worker
  | @worked worker event peer hm => exact intact_setPeer hintact ((hintact worker).step hm)

theorem held_eq_zero {state : State} {worker : Nat}
    (hq : ∀ dispatch ∈ state.dispatches, dispatch.holds worker = false) :
    state.held worker = 0 := by
  rw [State.held, countP_eq_zero]
  intro dispatch hd
  rw [hq dispatch hd]
  exact Bool.false_ne_true

theorem pos_of_lowered {state next : State} (hcounted : Counted state) {action : Action}
    {worker : Nat} (hl : lowered state action = some worker)
    (hs : Stepped state action next) : 0 < (state.peers worker).outstanding := by
  have hc := hcounted.outstanding worker
  cases hs with
  | worked hm =>
    cases hm with
    | subtracted hr =>
      cases hl
      rw [Peer.owed, hr] at hc
      dsimp only [Reader.left] at hc
      omega
    | _ => cases hl
  | dispatched ht hm =>
    cases hm with
    | freed =>
      rw [lowered, ht] at hl
      cases hl
      have hh := one_le_held ht (beq_self_eq_true worker)
      omega
    | _ => cases hl
  | _ => cases hl

/-- In every run no counter is lowered at zero, and the counter of a connected worker with
nothing under way is the number of connections it serves exactly when every message came to
it with a descriptor. -/
theorem outstanding_eq_serving_iff (state : State) (hreaches : Reaches step {} state)
    (worker : Nat) :
    (∀ action next, step action state = some next → lowered state action = some worker →
        0 < (state.peers worker).outstanding) ∧
      ((state.peers worker).alive = true → state.Quiet worker →
        ((state.peers worker).outstanding = (state.peers worker).serving ↔
          (state.peers worker).bare = 0)) := by
  have hcounted := counted_of_reaches hreaches
  refine ⟨fun action next hs hl =>
    pos_of_lowered hcounted hl (stepped_of_step hs), ?_⟩
  rintro ha ⟨hh, hm, hd, hn, hleft⟩
  have hin : ∀ other, (state.peers other).Intact :=
    hreaches.keeps (fun _ _ _ hs => intact_step (stepped_of_step hs)) fun _ _ => rfl
  have hc := hcounted.outstanding worker
  rw [held_eq_zero hh, Peer.owed, hin worker ha] at hc
  omega

def sendOne : List Action :=
  [.register, .push, .accept, .dispatch 0 .lock, .dispatch 0 .load, .dispatch 0 .cursor,
    .dispatch 0 .probe, .dispatch 0 .take, .dispatch 0 (.intoStd true), .dispatch 0 (.send true)]

theorem served_connection_counted :
    ∃ state, Reaches step {} state ∧ (state.peers 0).alive = true ∧ state.Quiet 0 ∧
      (state.peers 0).outstanding = (state.peers 0).serving := by
  obtain ⟨state, hrun, ha, hq, hb⟩ : ∃ state,
      runActions step (sendOne ++ [.peer 0 (.receive .served)]) {} = some state ∧
        (state.peers 0).alive = true ∧ state.Quiet 0 ∧ (state.peers 0).bare = 0 :=
    ⟨_, rfl, rfl, ⟨by decide, rfl, rfl, rfl, rfl⟩, rfl⟩
  have hr := reaches_of_runActions hrun
  exact ⟨state, hr, ha, hq,
    ((outstanding_eq_serving_iff state hr 0).2 ha hq).2 hb⟩

/-- A message without its descriptor leaves the counter above the connections served. -/
theorem bare_message_never_freed :
    ∃ state, runActions step (sendOne ++ [.peer 0 (.receive .bare)]) {} = some state ∧
      (state.peers 0).alive = true ∧ state.Quiet 0 ∧
      (state.peers 0).outstanding = 1 ∧ (state.peers 0).serving = 0 :=
  ⟨_, rfl, rfl, ⟨by decide, rfl, rfl, rfl, rfl⟩, rfl, rfl⟩

end FastapiTurbo.Cluster
