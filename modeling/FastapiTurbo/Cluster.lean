import FastapiTurbo.Lib.Tasks
import FastapiTurbo.Lib.Transition
import Mathlib.Logic.Function.Basic

/-! The acceptor process and its workers (`cluster.rs`): connections are picked a worker by
its counter, their descriptors go over a socket, and notices of finished connections come
back.  Every load, store or add of a counter and every section under the list's lock that
cannot be seen from outside is a step of its own. -/
namespace FastapiTurbo.Cluster

open Lib

inductive Reader where
  | absent
  /-- `left` bytes of the last `try_read` are to be counted; `positive` says that the counter
  was just loaded for the next of them and was above zero. -/
  | reading (left : Nat) (positive : Bool)
  /-- The loop has ended, the lock is not yet taken. -/
  | retaining
  | ended
  deriving DecidableEq

def Reader.left : Reader → Nat
  | .reading left _ => left
  | _ => 0

structure Peer where
  outstanding : Nat := 0
  reader : Reader := .absent
  alive : Bool := false
  messages : Nat := 0
  /-- Connections that `serve_one_connection` is serving. -/
  serving : Nat := 0
  /-- What stands in the channel of the completer. -/
  done : Nat := 0
  notices : Nat := 0
  /-- Messages that came to the worker without their descriptor. -/
  bare : Nat := 0
  /-- Connections that ended with the worker process. -/
  orphaned : Nat := 0

/-- A `dispatch_one` task.  While it holds the lock, `listed` is the list and `least`
the least counter in it when the lock was taken. -/
inductive Dispatch where
  | waiting
  /-- The first pass: the counters of `rest` are still to be loaded. -/
  | loading (listed : List Nat) (least : Nat) (rest : List Nat) (min : Option Nat)
  /-- The second pass: the workers of `rest` are still to be looked at. -/
  | searching (listed : List Nat) (least : Nat) (min : Nat) (rest : List Nat)
  | taking (worker : Nat)
  /-- `pick` has returned the worker. -/
  | picked (worker : Nat)
  | sending (worker : Nat)
  | failing (worker : Nat)
  | passed (worker : Nat)
  | freed
  /-- `pick` has returned `None`. -/
  | dropped (listed : List Nat) (least : Nat)
  deriving DecidableEq

structure State where
  peers : Nat → Peer := fun _ => {}
  workers : Nat := 0
  /-- The worker that `add` has spawned the reader for but not pushed. -/
  adding : Option Nat := none
  list : List Nat := []
  next : Nat := 0
  /-- The dispatch task that holds the lock of the list. -/
  lock : Option Nat := none
  dispatches : List Dispatch := []

def State.setPeer (state : State) (worker : Nat) (peer : Peer) : State :=
  { state with peers := Function.update state.peers worker peer }

def State.setDispatch (state : State) (task : Nat) (dispatch : Dispatch) : State :=
  { state with dispatches := state.dispatches.set task dispatch }

def State.setLock (state : State) (lock : Option Nat) : State :=
  { state with lock := lock }

def fetchSub (counter : Nat) : Nat :=
  if counter = 0 then 18446744073709551615 else counter - 1

def probeOrder (listed : List Nat) (start : Nat) : List Nat :=
  listed.drop start ++ listed.take start

inductive Receipt where
  | served
  | unusable
  | bare
  deriving DecidableEq

inductive DispatchEvent where
  | lock
  | load
  | cursor
  | probe
  | take
  | intoStd (fine : Bool)
  | send (fine : Bool)
  | free
  deriving DecidableEq

inductive PeerEvent where
  | receive (receipt : Receipt)
  | finish
  | notify
  | disconnect
  | read (count : Nat)
  | check
  | subtract
  | leave
  deriving DecidableEq

inductive Action where
  /-- A worker connects; `add` spawns its reader. -/
  | register
  /-- The end of `add`. -/
  | push
  /-- A TCP connection is accepted; its `dispatch_one` is spawned. -/
  | accept
  | dispatch (task : Nat) (event : DispatchEvent)
  | peer (worker : Nat) (event : PeerEvent)
  | retain (worker : Nat)
  deriving DecidableEq

def minWith (min : Option Nat) (load : Nat) : Option Nat :=
  some (min.elim load fun min => Nat.min min load)

def leastOf (loads : List Nat) : Option Nat :=
  loads.foldr (fun load min => minWith min load) none

def State.least (state : State) : Nat :=
  (leastOf (state.list.map fun worker => (state.peers worker).outstanding)).getD 0

def takeLock (state : State) (task : Nat) : State :=
  if state.list.isEmpty then state.setDispatch task (.dropped [] 0)
  else
    (state.setDispatch task (.loading state.list state.least state.list none)).setLock (some task)

def stepDispatch (state : State) (task : Nat) : DispatchEvent → Dispatch → Option State
  | .lock, .waiting => if state.lock = none then some (takeLock state task) else none
  | .load, .loading listed least (worker :: rest) min =>
    some (state.setDispatch task
      (.loading listed least rest (minWith min (state.peers worker).outstanding)))
  | .cursor, .loading listed least [] min =>
    some ({ state with next := (state.next + 1) % 18446744073709551616 }.setDispatch task
      (.searching listed least (min.getD 0) (probeOrder listed (state.next % listed.length))))
  | .probe, .searching listed least min (worker :: rest) =>
    if (state.peers worker).outstanding = min then some (state.setDispatch task (.taking worker))
    else some (state.setDispatch task (.searching listed least min rest))
  | .probe, .searching listed least _ [] =>
    some ((state.setDispatch task (.dropped listed least)).setLock none)
  | .take, .taking worker =>
    let peer := state.peers worker
    some (((state.setPeer worker { peer with
      outstanding := peer.outstanding + 1 }).setDispatch task (.picked worker)).setLock none)
  | .intoStd fine, .picked worker =>
    some (state.setDispatch task (if fine then .sending worker else .failing worker))
  | .send true, .sending worker =>
    let peer := state.peers worker
    if peer.alive then
      some ((state.setPeer worker { peer with messages := peer.messages + 1 }).setDispatch
        task (.passed worker))
    else none
  | .send false, .sending worker => some (state.setDispatch task (.failing worker))
  | .free, .failing worker =>
    let peer := state.peers worker
    some ((state.setPeer worker { peer with
      outstanding := fetchSub peer.outstanding }).setDispatch task .freed)
  | _, _ => none

def stepPeer (peer : Peer) : PeerEvent → Option Peer
  | .receive receipt =>
    if peer.alive = true ∧ 0 < peer.messages then
      let peer := { peer with messages := peer.messages - 1 }
      match receipt with
      | .served => some { peer with serving := peer.serving + 1 }
      | .unusable => some { peer with done := peer.done + 1 }
      | .bare => some { peer with bare := peer.bare + 1 }
    else none
  | .finish =>
    if peer.alive = true ∧ 0 < peer.serving then
      some { peer with serving := peer.serving - 1, done := peer.done + 1 }
    else none
  | .notify =>
    if peer.alive = true ∧ 0 < peer.done then
      some { peer with done := peer.done - 1, notices := peer.notices + 1 }
    else none
  | .disconnect =>
    if peer.alive = true then
      some { peer with
        alive := false
        messages := 0
        serving := 0
        done := 0
        orphaned := peer.orphaned + (peer.messages + peer.serving + peer.done) }
    else none
  | .read count =>
    match peer.reader with
    | .reading 0 false =>
      if 0 < count ∧ count ≤ 64 ∧ count ≤ peer.notices then
        some { peer with reader := .reading count false, notices := peer.notices - count }
      else none
    | _ => none
  | .check =>
    match peer.reader with
    | .reading (left + 1) false =>
      if 0 < peer.outstanding then some { peer with reader := .reading (left + 1) true }
      else some { peer with reader := .reading left false }
    | _ => none
  | .subtract =>
    match peer.reader with
    | .reading (left + 1) true =>
      some { peer with
        outstanding := fetchSub peer.outstanding
        reader := .reading left false }
    | _ => none
  | .leave =>
    match peer.reader with
    | .reading 0 false => some { peer with reader := .retaining }
    | _ => none

def step : Action → State → Option State
  | .register, state =>
    if state.adding = none then
      some { state.setPeer state.workers { reader := .reading 0 false, alive := true } with
        workers := state.workers + 1
        adding := some state.workers }
    else none
  | .push, state =>
    if state.lock = none then
      state.adding.map fun worker =>
        { state with list := state.list ++ [worker], adding := none }
    else none
  | .accept, state =>
    if state.adding = none then some { state with dispatches := state.dispatches ++ [.waiting] }
    else none
  | .retain worker, state =>
    if state.lock = none ∧ (state.peers worker).reader = .retaining then
      some { state.setPeer worker { state.peers worker with reader := .ended } with
        list := state.list.filter (· ≠ worker) }
    else none
  | .dispatch task event, state =>
    state.dispatches[task]?.bind (stepDispatch state task event)
  | .peer worker event, state => (stepPeer (state.peers worker) event).map (state.setPeer worker)

inductive Dispatched (state : State) (task : Nat) : DispatchEvent → Dispatch → State → Prop where
  | unregistered (hlock : state.lock = none) (hlist : state.list = []) :
      Dispatched state task .lock .waiting (state.setDispatch task (.dropped [] 0))
  | locked (hlock : state.lock = none) (hlist : state.list ≠ []) :
      Dispatched state task .lock .waiting
        ((state.setDispatch task (.loading state.list state.least state.list none)).setLock
          (some task))
  | loaded {listed rest : List Nat} {least worker : Nat} {min : Option Nat} :
      Dispatched state task .load (.loading listed least (worker :: rest) min)
        (state.setDispatch task
          (.loading listed least rest (minWith min (state.peers worker).outstanding)))
  | turned {listed : List Nat} {least : Nat} {min : Option Nat} :
      Dispatched state task .cursor (.loading listed least [] min)
        ({ state with next := (state.next + 1) % 18446744073709551616 }.setDispatch task
          (.searching listed least (min.getD 0) (probeOrder listed (state.next % listed.length))))
  | found {listed rest : List Nat} {least min worker : Nat}
      (hload : (state.peers worker).outstanding = min) :
      Dispatched state task .probe (.searching listed least min (worker :: rest))
        (state.setDispatch task (.taking worker))
  | passedOver {listed rest : List Nat} {least min worker : Nat}
      (hload : (state.peers worker).outstanding ≠ min) :
      Dispatched state task .probe (.searching listed least min (worker :: rest))
        (state.setDispatch task (.searching listed least min rest))
  | missed {listed : List Nat} {least min : Nat} :
      Dispatched state task .probe (.searching listed least min [])
        ((state.setDispatch task (.dropped listed least)).setLock none)
  | taken {worker : Nat} :
      Dispatched state task .take (.taking worker)
        (((state.setPeer worker { state.peers worker with
          outstanding := (state.peers worker).outstanding + 1 }).setDispatch task
            (.picked worker)).setLock none)
  | ready {worker : Nat} :
      Dispatched state task (.intoStd true) (.picked worker)
        (state.setDispatch task (.sending worker))
  | unready {worker : Nat} :
      Dispatched state task (.intoStd false) (.picked worker)
        (state.setDispatch task (.failing worker))
  | sent {worker : Nat} (halive : (state.peers worker).alive = true) :
      Dispatched state task (.send true) (.sending worker)
        ((state.setPeer worker { state.peers worker with
          messages := (state.peers worker).messages + 1 }).setDispatch task (.passed worker))
  | unsent {worker : Nat} :
      Dispatched state task (.send false) (.sending worker)
        (state.setDispatch task (.failing worker))
  | freed {worker : Nat} :
      Dispatched state task .free (.failing worker)
        ((state.setPeer worker { state.peers worker with
          outstanding := fetchSub (state.peers worker).outstanding }).setDispatch task .freed)

theorem dispatched_of_stepDispatch {state next : State} {task : Nat} {event : DispatchEvent}
    {dispatch : Dispatch} (hs : stepDispatch state task event dispatch = some next) :
    Dispatched state task event dispatch next := by
  unfold stepDispatch at hs
  split at hs
  · split at hs <;> cases hs
    rename_i hlock
    unfold takeLock
    split
    · rename_i hl
      exact .unregistered hlock (List.isEmpty_iff.1 hl)
    · rename_i hl
      exact .locked hlock fun he => hl (List.isEmpty_iff.2 he)
  · cases hs
    exact .loaded
  · cases hs
    exact .turned
  · split at hs <;> cases hs
    · rename_i hload
      exact .found hload
    · rename_i hload
      exact .passedOver hload
  · cases hs
    exact .missed
  · cases hs
    exact .taken
  · rename_i fine worker
    cases hs
    cases fine with
    | false => exact .unready
    | true => exact .ready
  · dsimp only at hs
    split at hs <;> cases hs
    rename_i ha
    exact .sent ha
  · cases hs
    exact .unsent
  · cases hs
    exact .freed
  · cases hs

inductive PeerStepped (peer : Peer) : PeerEvent → Peer → Prop where
  | served (hmessages : 0 < peer.messages) :
      PeerStepped peer (.receive .served)
        { peer with messages := peer.messages - 1, serving := peer.serving + 1 }
  | unusable (hmessages : 0 < peer.messages) :
      PeerStepped peer (.receive .unusable)
        { peer with messages := peer.messages - 1, done := peer.done + 1 }
  | bare (hmessages : 0 < peer.messages) :
      PeerStepped peer (.receive .bare)
        { peer with messages := peer.messages - 1, bare := peer.bare + 1 }
  | finished (hserving : 0 < peer.serving) :
      PeerStepped peer .finish { peer with serving := peer.serving - 1, done := peer.done + 1 }
  | notified (hdone : 0 < peer.done) :
      PeerStepped peer .notify { peer with done := peer.done - 1, notices := peer.notices + 1 }
  | disconnected (halive : peer.alive = true) :
      PeerStepped peer .disconnect { peer with
        alive := false
        messages := 0
        serving := 0
        done := 0
        orphaned := peer.orphaned + (peer.messages + peer.serving + peer.done) }
  | read {count : Nat} (hreader : peer.reader = .reading 0 false)
      (hnotices : count ≤ peer.notices) :
      PeerStepped peer (.read count)
        { peer with reader := .reading count false, notices := peer.notices - count }
  | checked {left : Nat} (hreader : peer.reader = .reading (left + 1) false) :
      PeerStepped peer .check { peer with reader := .reading (left + 1) true }
  | skipped {left : Nat} (hreader : peer.reader = .reading (left + 1) false)
      (hzero : peer.outstanding = 0) :
      PeerStepped peer .check { peer with reader := .reading left false }
  | subtracted {left : Nat} (hreader : peer.reader = .reading (left + 1) true) :
      PeerStepped peer .subtract
        { peer with outstanding := fetchSub peer.outstanding, reader := .reading left false }
  | left (hreader : peer.reader = .reading 0 false) :
      PeerStepped peer .leave { peer with reader := .retaining }

theorem peerStepped_of_stepPeer {peer next : Peer} {event : PeerEvent}
    (hs : stepPeer peer event = some next) : PeerStepped peer event next := by
  cases event with
  | receive receipt =>
    rw [stepPeer] at hs
    split at hs
    · rename_i hready
      cases receipt <;> cases hs
      · exact .served hready.2
      · exact .unusable hready.2
      · exact .bare hready.2
    · cases hs
  | finish =>
    rw [stepPeer] at hs
    split at hs <;> cases hs
    rename_i hready
    exact .finished hready.2
  | notify =>
    rw [stepPeer] at hs
    split at hs <;> cases hs
    rename_i hready
    exact .notified hready.2
  | disconnect =>
    rw [stepPeer] at hs
    split at hs <;> cases hs
    rename_i ha
    exact .disconnected ha
  | read count =>
    rw [stepPeer] at hs
    split at hs
    · rename_i hr
      split at hs <;> cases hs
      rename_i hc
      exact .read hr hc.2.2
    · cases hs
  | check =>
    rw [stepPeer] at hs
    split at hs
    · rename_i left hr
      split at hs <;> cases hs
      · exact .checked hr
      · rename_i hz
        exact .skipped hr (Nat.eq_zero_of_not_pos hz)
    · cases hs
  | subtract =>
    rw [stepPeer] at hs
    split at hs <;> cases hs
    rename_i left hr
    exact .subtracted hr
  | leave =>
    rw [stepPeer] at hs
    split at hs <;> cases hs
    rename_i hr
    exact .left hr

inductive Stepped (state : State) : Action → State → Prop where
  | registered :
      Stepped state .register
        { state.setPeer state.workers { reader := .reading 0 false, alive := true } with
          workers := state.workers + 1
          adding := some state.workers }
  | pushed {worker : Nat} (hlock : state.lock = none) (hadding : state.adding = some worker) :
      Stepped state .push { state with list := state.list ++ [worker], adding := none }
  | accepted : Stepped state .accept { state with dispatches := state.dispatches ++ [.waiting] }
  | retained {worker : Nat} (hlock : state.lock = none)
      (hreader : (state.peers worker).reader = .retaining) :
      Stepped state (.retain worker)
        { state.setPeer worker { state.peers worker with reader := .ended } with
          list := state.list.filter (· ≠ worker) }
  | dispatched {task : Nat} {event : DispatchEvent} {dispatch : Dispatch} {next : State}
      (htask : state.dispatches[task]? = some dispatch)
      (hmove : Dispatched state task event dispatch next) :
      Stepped state (.dispatch task event) next
  | worked {worker : Nat} {event : PeerEvent} {peer : Peer}
      (hmove : PeerStepped (state.peers worker) event peer) :
      Stepped state (.peer worker event) (state.setPeer worker peer)

theorem stepped_of_step {action : Action} {state next : State}
    (hs : step action state = some next) : Stepped state action next := by
  cases action with
  | register =>
    rw [step] at hs
    split at hs <;> cases hs
    exact .registered
  | push =>
    rw [step] at hs
    split at hs
    · rename_i hl
      obtain ⟨worker, ha, rfl⟩ := Option.map_eq_some_iff.1 hs
      exact .pushed hl ha
    · cases hs
  | accept =>
    rw [step] at hs
    split at hs <;> cases hs
    exact .accepted
  | dispatch task event =>
    obtain ⟨dispatch, ht, hd⟩ := Option.bind_eq_some_iff.1 hs
    exact .dispatched ht (dispatched_of_stepDispatch hd)
  | peer worker event =>
    obtain ⟨peer, hp, rfl⟩ := Option.map_eq_some_iff.1 hs
    exact .worked (peerStepped_of_stepPeer hp)
  | retain worker =>
    rw [step] at hs
    split at hs <;> cases hs
    rename_i hr
    exact .retained hr.1 hr.2

def Dispatch.named : Dispatch → List Nat
  | .loading listed _ rest _ => listed ++ rest
  | .searching _ _ _ rest => rest
  | .taking worker => [worker]
  | .picked worker => [worker]
  | .sending worker => [worker]
  | .failing worker => [worker]
  | _ => []

theorem mem_probeOrder {listed : List Nat} {start worker : Nat} :
    worker ∈ probeOrder listed start ↔ worker ∈ listed := by
  rw [probeOrder, List.mem_append, or_comm, ← List.mem_append, List.take_append_drop]

@[simp] theorem peers_setPeer_self (state : State) (worker : Nat) (peer : Peer) :
    (state.setPeer worker peer).peers worker = peer :=
  Function.update_self _ _ _

theorem peers_setPeer_of_ne {state : State} {worker other : Nat} (hne : other ≠ worker)
    (peer : Peer) : (state.setPeer worker peer).peers other = state.peers other :=
  Function.update_of_ne hne _ _

structure SameWorkers (state next : State) : Prop where
  workers : next.workers = state.workers
  list : next.list = state.list
  adding : next.adding = state.adding
  peers : ∀ worker, ∃ outstanding messages, next.peers worker =
    { state.peers worker with outstanding := outstanding, messages := messages }

private theorem peers_of_setPeer (state : State) (worker outstanding messages other : Nat) :
    ∃ counter sent, (state.setPeer worker { state.peers worker with
      outstanding := outstanding, messages := messages }).peers other =
        { state.peers other with outstanding := counter, messages := sent } := by
  by_cases ho : other = worker
  · rw [ho, peers_setPeer_self]
    exact ⟨_, _, rfl⟩
  · rw [peers_setPeer_of_ne ho]
    exact ⟨_, _, rfl⟩

theorem Dispatched.sameWorkers {state next : State} {task : Nat} {event : DispatchEvent}
    {dispatch : Dispatch}
    (hm : Dispatched state task event dispatch next) : SameWorkers state next := by
  cases hm with
  | @taken worker | @sent worker | @freed worker =>
    exact ⟨rfl, rfl, rfl, peers_of_setPeer state worker _ _⟩
  | _ => exact ⟨rfl, rfl, rfl, fun _ => ⟨_, _, rfl⟩⟩

end FastapiTurbo.Cluster
