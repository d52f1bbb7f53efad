import FastapiTurbo.ClusterCounters
import FastapiTurbo.ClusterList

/-! Which connections `dispatch_one` drops for want of a worker. -/
namespace FastapiTurbo.Cluster

open Lib List

theorem leastOf_none {loads : List Nat} (hleast : leastOf loads = none) : loads = [] := by
  cases loads with
  | nil => rfl
  | cons load rest => cases hleast

theorem leastOf_some {loads : List Nat} {least : Nat} (hleast : leastOf loads = some least) :
    least ∈ loads ∧ ∀ load ∈ loads, least ≤ load := by
  induction loads generalizing least with
  | nil => cases hleast
  | cons load rest ih =>
    have hload : leastOf (load :: rest) = minWith (leastOf rest) load := rfl
    rw [hload] at hleast
    cases hr : leastOf rest with
    | none =>
      rw [hr] at hleast
      cases hleast
      rw [leastOf_none hr]
      simp
    | some min =>
      rw [hr] at hleast
      cases hleast
      obtain ⟨hmem, hle⟩ := ih hr
      have hmin : Nat.min min load ≤ min := Nat.min_le_left min load
      refine ⟨?_, ?_⟩
      · rcases Nat.le_total min load with hl | hl
        · exact mem_cons_of_mem _ (by simpa [Nat.min_eq_left hl] using hmem)
        · simp [Nat.min_eq_right hl]
      · intro other ho
        rcases mem_cons.1 ho with rfl | ho
        · exact Nat.min_le_right min other
        · exact Nat.le_trans hmin (hle other ho)

/-- While the list is locked its counters are at least `least`, and one of them is. -/
theorem least_spec (state : State) (hl : state.list ≠ []) :
    (∀ worker ∈ state.list, state.least ≤ (state.peers worker).outstanding) ∧
      ∃ worker ∈ state.list, (state.peers worker).outstanding = state.least := by
  rw [State.least]
  cases hleast : leastOf (state.list.map fun worker => (state.peers worker).outstanding) with
  | none => exact absurd (map_eq_nil_iff.1 (leastOf_none hleast)) hl
  | some least =>
    obtain ⟨hmem, hle⟩ := leastOf_some hleast
    exact ⟨fun worker hw => hle _ (mem_map_of_mem hw), mem_map.1 hmem⟩

def Dispatch.search : Dispatch → Option (List Nat × Nat)
  | .loading listed least _ _ => some (listed, least)
  | .searching listed least _ _ => some (listed, least)
  | _ => none

/-- No counter is lowered that stands where the least one stood when a `pick` that is under
way took the lock. -/
def SparesLeast (state : State) (action : Action) : Prop :=
  ∀ worker ∈ lowered state action, ∀ dispatch ∈ state.dispatches, ∀ search ∈ dispatch.search,
    worker ∈ search.1 → (state.peers worker).outstanding ≠ search.2

instance (state : State) (action : Action) : Decidable (SparesLeast state action) :=
  inferInstanceAs (Decidable (∀ worker ∈ lowered state action, _))

/-- A worker that was at the least counter when the lock was taken is found: it is still
there, and `pick` has yet to come to it. -/
def Dispatch.Finds (state : State) : Dispatch → Prop
  | .loading listed least rest min =>
    rest ⊆ listed ∧ (∀ worker ∈ listed, least ≤ (state.peers worker).outstanding) ∧
      (∀ load ∈ min, least ≤ load) ∧
      ∃ worker ∈ listed, (state.peers worker).outstanding = least ∧
        (worker ∈ rest ∨ min = some least)
  | .searching listed least min rest =>
    min = least ∧ ∃ worker ∈ rest, worker ∈ listed ∧ (state.peers worker).outstanding = least
  | .dropped listed _ => listed = []
  | _ => True

/-- The counters of a list do not rise and do not fall below the least. -/
def Spares (state next : State) (search : List Nat × Nat) : Prop :=
  ∀ worker ∈ search.1, search.2 ≤ (state.peers worker).outstanding →
    search.2 ≤ (next.peers worker).outstanding ∧
      (next.peers worker).outstanding ≤ (state.peers worker).outstanding

theorem Dispatch.Finds.mono {state next : State} {dispatch : Dispatch}
    (hs : ∀ search ∈ dispatch.search, Spares state next search) (hf : dispatch.Finds state) :
    dispatch.Finds next := by
  cases dispatch with
  | loading listed least rest min =>
    have hspared := hs _ rfl
    obtain ⟨hr, hle, hmin, worker, hl, hleast, hc⟩ := hf
    refine ⟨hr, fun other ho => (hspared other ho (hle other ho)).1, hmin, worker, hl, ?_, hc⟩
    obtain ⟨hb, ha⟩ := hspared worker hl (hle worker hl)
    omega
  | searching listed least min rest =>
    obtain ⟨hmin, worker, hr, hl, hleast⟩ := hf
    obtain ⟨hb, ha⟩ := hs _ rfl worker hl (Nat.le_of_eq hleast.symm)
    refine ⟨hmin, worker, hr, hl, ?_⟩
    omega
  | dropped listed least => exact hf
  | _ => trivial

theorem PeerStepped.outstanding {peer next : Peer} {event : PeerEvent}
    (hm : PeerStepped peer event next) :
    next.outstanding = peer.outstanding ∨
      event = .subtract ∧ next.outstanding = fetchSub peer.outstanding := by
  cases hm with
  | subtracted hr => exact .inr ⟨rfl, rfl⟩
  | _ => exact .inl rfl

def Falls (state next : State) (action : Action) : Prop :=
  ∀ worker, (next.peers worker).outstanding = (state.peers worker).outstanding ∨
    lowered state action = some worker ∧
      (next.peers worker).outstanding = fetchSub (state.peers worker).outstanding

theorem falls_of_peers {state next : State} {action : Action} (hp : next.peers = state.peers) :
    Falls state next action :=
  fun worker => .inl (by rw [hp])

theorem falls_of_setPeer {state next : State} {action : Action} {worker : Nat} {peer : Peer}
    (hp : next.peers = (state.setPeer worker peer).peers)
    (hpeer : peer.outstanding = (state.peers worker).outstanding ∨
      lowered state action = some worker ∧
        peer.outstanding = fetchSub (state.peers worker).outstanding) :
    Falls state next action := by
  intro other
  rw [hp]
  by_cases ho : other = worker
  · rw [ho, peers_setPeer_self]
    exact hpeer
  · rw [peers_setPeer_of_ne ho]
    exact .inl rfl

theorem Dispatched.falls {state next : State} {task : Nat} {event : DispatchEvent}
    {dispatch : Dispatch} (ht : state.dispatches[task]? = some dispatch)
    (hm : Dispatched state task event dispatch next)
    (htaking : ∀ worker, dispatch ≠ .taking worker) :
    Falls state next (.dispatch task event) := by
  cases hm with
  | @taken worker => exact absurd rfl (htaking worker)
  | sent ha => exact falls_of_setPeer rfl (.inl rfl)
  | freed =>
    refine falls_of_setPeer rfl (.inr ⟨?_, rfl⟩)
    rw [lowered, ht]
    rfl
  | _ => exact falls_of_peers rfl

/-- Where the least counter is spared, so is the list of every task within `pick`. -/
theorem spares_of_falls {action : Action} {state next : State} (hc : Counted state)
    (hstep : Stepped state action next) (hf : Falls state next action)
    (hleast : SparesLeast state action) {dispatch : Dispatch}
    (hd : dispatch ∈ state.dispatches)
    {search : List Nat × Nat} (hs : search ∈ dispatch.search) : Spares state next search := by
  intro worker hlisted hle
  rcases hf worker with hsame | ⟨hl, hfetch⟩
  · rw [hsame]
    exact ⟨hle, Nat.le_refl _⟩
  · have hpos := pos_of_lowered hc hl hstep
    have hne := hleast worker hl dispatch hd search hs hlisted
    rw [hfetch, fetchSub_of_pos hpos]
    omega

theorem minWith_of_le {min : Option Nat} {least load : Nat} (hmin : ∀ other ∈ min, least ≤ other)
    (hl : least ≤ load) : ∀ other ∈ minWith min load, least ≤ other := by
  intro other ho
  cases ho
  cases min with
  | none => exact hl
  | some min => exact Nat.le_min.2 ⟨hmin min rfl, hl⟩

theorem minWith_least {min : Option Nat} {least load : Nat} (hmin : ∀ other ∈ min, least ≤ other)
    (hl : least ≤ load) (hleast : load = least ∨ min = some least) :
    minWith min load = some least := by
  have hle := minWith_of_le hmin hl _ rfl
  cases min with
  | none =>
    rcases hleast with rfl | hn
    · rfl
    · cases hn
  | some min =>
    refine congrArg some (Nat.le_antisymm ?_ hle)
    rcases hleast with rfl | hs
    · exact Nat.min_le_right min _
    · cases hs
      exact Nat.min_le_left _ load

theorem Dispatched.finds {state next : State} {task : Nat} {event : DispatchEvent}
    {dispatch : Dispatch}
    (hf : dispatch.Finds state) (hm : Dispatched state task event dispatch next) :
    ∃ new, next.dispatches = state.dispatches.set task new ∧ new.Finds next := by
  cases hm with
  | unregistered hlock hlist => exact ⟨_, rfl, rfl⟩
  | locked hlock hlist =>
    obtain ⟨hle, worker, hl, hleast⟩ := least_spec state hlist
    exact ⟨_, rfl, List.Subset.refl _, hle, by simp, worker, hl, hleast, .inl hl⟩
  | @loaded listed rest least worker min =>
    obtain ⟨hr, hle, hmin, found, hl, hleast, hc⟩ := hf
    have hlo := hle worker (hr mem_cons_self)
    refine ⟨_, rfl, fun other ho => hr (mem_cons_of_mem _ ho), hle,
      minWith_of_le hmin hlo, found, hl, hleast, ?_⟩
    rcases hc with hc | hc
    · rcases mem_cons.1 hc with rfl | hc
      · exact .inr (minWith_least hmin hlo (.inl hleast))
      · exact .inl hc
    · exact .inr (minWith_least hmin hlo (.inr hc))
  | @turned listed least min =>
    obtain ⟨-, -, -, found, hl, hleast, hc⟩ := hf
    have hmin : min = some least := hc.resolve_left not_mem_nil
    exact ⟨_, rfl, by rw [hmin]; rfl, found, mem_probeOrder.2 hl, hl, hleast⟩
  | found hlo | taken | ready | unready | sent | unsent | freed => exact ⟨_, rfl, trivial⟩
  | passedOver hlo =>
    obtain ⟨hmin, found, hc, hl, hleast⟩ := hf
    refine ⟨_, rfl, hmin, found, ?_, hl, hleast⟩
    rcases mem_cons.1 hc with rfl | hc
    · exact absurd (hleast.trans hmin.symm) hlo
    · exact hc
  | missed =>
    obtain ⟨-, found, hc, -⟩ := hf
    cases hc

def AllFind (state : State) : Prop :=
  ∀ (task : Nat) (dispatch : Dispatch), state.dispatches[task]? = some dispatch →
    dispatch.Finds state

/-- While one task raises a counter no other is within `pick`. -/
theorem search_of_taking {state : State} (hp : Picking state) {task other worker : Nat}
    (ht : state.dispatches[task]? = some (.taking worker)) (hne : other ≠ task)
    {dispatch : Dispatch} (ho : state.dispatches[other]? = some dispatch) :
    dispatch.search = none := by
  by_contra hs
  have hinside : dispatch.inPick = true := by
    cases dispatch with
    | loading listed least rest min => rfl
    | searching listed least min rest => rfl
    | _ => exact absurd rfl hs
  have hl := hp.locked other dispatch ho hinside
  rw [hp.locked task _ ht rfl, Option.some.injEq] at hl
  exact hne hl.symm

/-- What holds in every state of a run that spares the least counters. -/
structure Consistent (state : State) : Prop where
  counted : Counted state
  picking : Picking state
  find : AllFind state

section

variable {action : Action} {state next : State} (hconsistent : Consistent state)
  (hleast : SparesLeast state action) (hstep : Stepped state action next)
include hconsistent hleast hstep

theorem Consistent.find_of_falls (hf : Falls state next action) {task : Nat}
    {dispatch : Dispatch} (ht : state.dispatches[task]? = some dispatch) : dispatch.Finds next :=
  (hconsistent.find task dispatch ht).mono fun _ hs =>
    spares_of_falls hconsistent.counted hstep hf hleast (mem_of_getElem? ht) hs

theorem Consistent.allFind : AllFind next := by
  have hs := hconsistent.find_of_falls hleast hstep
  cases hstep with
  | registered =>
    intro task dispatch ht
    refine hs (falls_of_setPeer rfl (.inl ?_)) ht
    rw [hconsistent.counted.fresh state.workers (Nat.le_refl _)]
  | pushed hl ha => exact fun task dispatch ht => hs (falls_of_peers rfl) ht
  | accepted =>
    intro task dispatch ht
    rcases getElem?_started ht with ⟨-, rfl⟩ | hb
    · trivial
    · exact hs (falls_of_peers rfl) hb
  | retained hl hr =>
    exact fun task dispatch ht => hs (falls_of_setPeer rfl (.inl rfl)) ht
  | @dispatched task event dispatch next ht hm =>
    obtain ⟨new, hd, hnew⟩ := hm.finds (hconsistent.find task dispatch ht)
    intro other found ho
    rw [hd] at ho
    rcases getElem?_moved ht ho with ⟨-, rfl⟩ | ⟨hne, hb⟩
    · exact hnew
    · by_cases htaking : ∃ worker, dispatch = .taking worker
      · obtain ⟨worker, rfl⟩ := htaking
        refine (hconsistent.find other found hb).mono ?_
        rw [search_of_taking hconsistent.picking ht hne hb]
        exact nofun
      · refine hs (hm.falls ht ?_) hb
        exact fun worker hsame => htaking ⟨worker, hsame⟩
  | worked hm =>
    intro task dispatch ht
    refine hs (falls_of_setPeer rfl ?_) ht
    rcases hm.outstanding with hsame | ⟨rfl, hf⟩
    · exact .inl hsame
    · exact .inr ⟨rfl, hf⟩

end

/-- In a run that lowers no counter from the value that was the least one when a `pick` took
the lock, a connection is dropped only where there was no worker in the list. -/
theorem pick_finds_worker (actions : List Action) (state : State)
    (hrun : runActions step actions {} = some state)
    (hleast : Meets step SparesLeast actions {}) (task : Nat) :
    ∀ listed least, state.dispatches[task]? = some (.dropped listed least) → listed = [] := by
  intro listed least hd
  have hconsistent : Consistent state := by
    refine hleast.keeps hrun ?_ ⟨counted_initial, picking_initial, by simp [AllFind]⟩
    intro action before next hspares hstep hb
    have hs := stepped_of_step hstep
    exact ⟨hb.counted.step hs, hb.picking.step hs,
      hb.allFind hspares hs⟩
  exact hconsistent.find task _ hd

def spareRun : List Action :=
  sendOne ++ [.register, .push, .peer 0 (.receive .served), .peer 0 .finish, .peer 0 .notify,
    .accept, .dispatch 1 .lock, .dispatch 1 .load, .peer 0 (.read 1), .peer 0 .check,
    .peer 0 .subtract, .dispatch 1 .load, .dispatch 1 .cursor, .dispatch 1 .probe,
    .dispatch 1 .take]

theorem worker_found_while_counter_falls :
    ∃ state, runActions step spareRun {} = some state ∧
      state.dispatches[1]? = some (.picked 1) ∧
      ∀ listed least, state.dispatches[1]? = some (.dropped listed least) → listed = [] := by
  obtain ⟨state, hrun, hp⟩ : ∃ state, runActions step spareRun {} = some state ∧
      state.dispatches[1]? = some (.picked 1) :=
    ⟨_, rfl, rfl⟩
  exact ⟨state, hrun, hp, pick_finds_worker spareRun state hrun (by decide) 1⟩

/-- The notice of the first connection lowers the counter between the two passes over it. -/
theorem registered_worker_missed :
    ∃ state, runActions step (sendOne ++ [.peer 0 (.receive .served), .peer 0 .finish,
        .peer 0 .notify, .accept, .dispatch 1 .lock, .dispatch 1 .load, .dispatch 1 .cursor,
        .peer 0 (.read 1), .peer 0 .check, .peer 0 .subtract, .dispatch 1 .probe,
        .dispatch 1 .probe]) {} = some state ∧
      state.list = [0] ∧ (state.peers 0).alive = true ∧
      state.dispatches[1]? = some (.dropped [0] 1) :=
  ⟨_, rfl, rfl, rfl, rfl⟩

end FastapiTurbo.Cluster
