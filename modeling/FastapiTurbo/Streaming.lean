import FastapiTurbo.Lib.Dict
import FastapiTurbo.Lib.Transition
import FastapiTurbo.Py

/-! One streaming response of `streaming.rs`: the driver that advances the body
iterator, the bounded channel with its waiters, and the coalescing receiver.  The
actions of the three interleave freely; the receiver is polled once
`create_streaming_response` has returned.  The client does not disconnect. -/
namespace FastapiTurbo.Streaming

open Lib Py

abbrev Bytes := List UInt8

inductive Chunk where
  | bytes (data : Bytes)
  | str (text : String)

def pythonValToBytes : Chunk → Bytes
  | .bytes data => data
  | .str text => text.toUTF8.toList

/-- What an advance of a body iterator runs into.  A checkpoint yields `None` to its
driver and registers nothing on the loop, an `await` waits for the loop. -/
inductive Event where
  | chunk (value : Chunk)
  | checkpoint
  | await

inductive Ending where
  | exhausted
  | raised (error : PyErr)
  deriving DecidableEq

def Ending.errors : Ending → List PyErr
  | .exhausted => []
  | .raised error => [error]

/-- A body iterator by what `create_streaming_response` finds out about it.  Only a
synchronous iterator with `__next__` is drained inline.  `noawait` has the no-await
verdict, and the verdict is right. -/
inductive Source where
  | sync (hasNext : Bool) (chunks : List Chunk)
  | noawait (chunks : List Chunk)
  | awaiting (code : Option Nat) (events : List Event)

def Source.events : Source → List Event
  | .sync _ chunks => chunks.map .chunk
  | .noawait chunks => chunks.map .chunk
  | .awaiting _ events => events

structure Body where
  source : Source
  ending : Ending

inductive CoopState where
  | cooperative
  | awaiting
  deriving DecidableEq

abbrev Verdicts := Dict Nat CoopState

/-- `predrain` and `inline` run on the request thread before the response exists, and
so does `trampoline`.  `thread` is a blocking thread, `privateLoop` one that runs
`_drive_stream` on its own loop, `loop` the task on the worker loop. -/
inductive Driver where
  | predrain
  | inline
  | thread
  | privateLoop
  | loop
  | trampoline
  deriving DecidableEq

structure Config where
  legacyForced : Bool
  trampolineSupported : Bool
  /-- The runtime handle, the private loop and the eager task can be had. -/
  trampolineStarts : Bool
  workerSchedules : Bool

def Config.coopCode (config : Config) : Source → Option Nat
  | .awaiting code _ => if config.trampolineSupported then code else none
  | _ => none

def Config.trampolines (config : Config) (verdicts : Verdicts) (source : Source) : Bool :=
  !config.legacyForced && config.trampolineStarts &&
    (config.coopCode source).bind verdicts.get? == some .cooperative

/-- The driver that `create_streaming_response` starts with. -/
def Config.driver (config : Config) (verdicts : Verdicts) : Source → Driver
  | .sync hasNext _ =>
    if hasNext then if config.legacyForced then .predrain else .inline else .thread
  | .noawait _ => if config.legacyForced then .thread else .inline
  | .awaiting code events =>
    if config.trampolines verdicts (.awaiting code events) then .trampoline
    else if !config.legacyForced && config.workerSchedules then .loop
    else .privateLoop

def Driver.isFair : Driver → Bool
  | .privateLoop | .loop => true
  | _ => false

def Driver.onRequestThread : Driver → Bool
  | .predrain | .inline | .trampoline => true
  | _ => false

/-- `waiting`: the channel was full and the driver awaits the future whose waiter holds
the chunk.  `delivered`: the waiter has sent it and is about to resolve the future. -/
inductive Phase where
  | running
  | suspended
  | waiting (chunk : Bytes)
  | delivered
  | ended
  deriving DecidableEq

inductive Item where
  | ok (bytes : Bytes)
  | err (message : String)
  deriving DecidableEq

structure Stream where
  driver : Driver
  phase : Phase
  rest : List Event
  ending : Ending
  /-- `app._captured_server_exceptions`. -/
  captured : List PyErr
  pushed : Nat
  /-- The task has not yielded to its loop so far. -/
  eager : Bool
  queue : List Item
  /-- Waiters that have resolved their future and still hold a sender. -/
  lingering : Nat
  returned : Bool
  pending : Option Item
  /-- The buffer of a `poll_next` that is under way. -/
  batch : Option Bytes
  done : Bool
  emitted : List Item
  finished : Bool

def Stream.start (driver : Driver) (body : Body) : Stream where
  driver
  phase := .running
  rest := body.source.events
  ending := body.ending
  captured := []
  pushed := 0
  eager := true
  queue := []
  lingering := 0
  returned := false
  pending := none
  batch := none
  done := false
  emitted := []
  finished := false

def channelCapacity : Nat :=
  32

def coalesceMax : Nat :=
  16 * 1024

namespace Stream

def hasRoom (stream : Stream) : Bool :=
  stream.queue.length < channelCapacity

def closed (stream : Stream) : Bool :=
  stream.returned && stream.phase = .ended && stream.lingering = 0

def send (stream : Stream) (chunk : Bytes) : Stream :=
  { stream with queue := stream.queue ++ [.ok chunk] }

def suspend (stream : Stream) : Stream :=
  { stream with phase := .suspended, eager := false }

/-- The end of the iterator: an exception is captured before the channel closes. -/
def finish (stream : Stream) : Stream :=
  { stream with phase := .ended, captured := stream.captured ++ stream.ending.errors }

/-- The first step of a pre-drain meets the end: the blocking thread then finds a
finished iterator. -/
def predrainEnd (stream : Stream) : Stream :=
  { stream with
    driver := .thread
    ending := .exhausted
    captured := stream.captured ++ stream.ending.errors }

def afterPush (stream : Stream) : Stream :=
  let counted := { stream with pushed := stream.pushed + 1 }
  if stream.driver.isFair && counted.pushed % 64 = 0 then counted.suspend
  else { counted with phase := .running }

theorem afterPush_eq (stream : Stream) :
    ∃ pushed phase eager, (phase = .running ∨ phase = .suspended) ∧
      stream.afterPush = { stream with pushed, phase, eager } := by
  simp only [afterPush]
  split
  · exact ⟨_, .suspended, _, .inr rfl, rfl⟩
  · exact ⟨_, .running, _, .inl rfl, rfl⟩

/-- One round of `drain_one_sync_chunk`, `inline_drain_sync` or
`inline_drain_noawait`; what is left goes to the blocking thread.  A bare `send` that
suspends is resumed there. -/
def driveInline (stream : Stream) (overBudget : Bool) : Stream :=
  if stream.hasRoom then
    match stream.rest with
    | [] =>
      if stream.driver = .predrain then stream.predrainEnd else stream.finish
    | .chunk value :: rest =>
      { stream.send (pythonValToBytes value) with
        rest
        driver :=
          if stream.driver = .predrain || overBudget then .thread else stream.driver }
    | _ :: rest => { stream.suspend with rest, driver := .thread }
  else { stream with driver := .thread }

def driveThread (stream : Stream) : Option Stream :=
  match stream.rest with
  | [] => some stream.finish
  | .chunk value :: rest =>
    if stream.hasRoom then
      some ({ stream.send (pythonValToBytes value) with rest }).afterPush
    else none
  | .checkpoint :: rest => some { stream with rest }
  | .await :: rest => some { stream.suspend with rest }

def driveLoop (stream : Stream) : Stream :=
  match stream.rest with
  | [] => stream.finish
  | .chunk value :: rest =>
    if stream.hasRoom then ({ stream.send (pythonValToBytes value) with rest }).afterPush
    else { stream with phase := .waiting (pythonValToBytes value), eager := false, rest }
  | .checkpoint :: rest => { stream with rest }
  | .await :: rest => { stream.suspend with rest }

def drive (stream : Stream) (overBudget : Bool) : Option Stream :=
  if stream.phase = .running then
    match stream.driver with
    | .predrain | .inline => some (stream.driveInline overBudget)
    | .thread | .privateLoop => stream.driveThread
    | .loop | .trampoline => some stream.driveLoop
  else none

def waiterSend (stream : Stream) : Option Stream :=
  match stream.phase with
  | .waiting chunk =>
    if stream.hasRoom then some { stream.send chunk with phase := .delivered } else none
  | _ => none

def waiterResolve (stream : Stream) : Option Stream :=
  if stream.phase = .delivered then
    some ({ stream with lingering := stream.lingering + 1 }).afterPush
  else none

def waiterDrop (stream : Stream) : Option Stream :=
  if stream.lingering = 0 then none
  else some { stream with lingering := stream.lingering - 1 }

def respond (stream : Stream) : Option Stream :=
  if stream.returned then none
  else if stream.driver.onRequestThread && stream.phase ≠ .ended then none
  else some { stream with returned := true }

def emit (stream : Stream) (item : Item) : Stream :=
  { stream with emitted := stream.emitted ++ [item] }

def pollFirst (stream : Stream) : Option Stream :=
  match stream.pending with
  | some item => some { stream.emit item with pending := none }
  | none =>
    if stream.done then some { stream with finished := true }
    else
      match stream.queue with
      | [] => if stream.closed then some { stream with finished := true } else none
      | .err message :: queue => some { stream.emit (.err message) with queue }
      | .ok chunk :: queue =>
        if coalesceMax ≤ chunk.length then some { stream.emit (.ok chunk) with queue }
        else some { stream with queue, batch := some chunk }

def tryRecv (stream : Stream) (batch : Bytes) : Stream :=
  match stream.queue with
  | .ok next :: queue =>
    if coalesceMax ≤ (batch ++ next).length then
      { stream.emit (.ok (batch ++ next)) with queue, batch := none }
    else { stream with queue, batch := some (batch ++ next) }
  | .err message :: queue =>
    { stream.emit (.ok batch) with queue, batch := none, pending := some (.err message) }
  | [] => { stream.emit (.ok batch) with batch := none, done := stream.closed }

def poll (stream : Stream) : Option Stream :=
  if stream.returned && !stream.finished then
    match stream.batch with
    | some batch => some (stream.tryRecv batch)
    | none => stream.pollFirst
  else none

end Stream

inductive Action where
  | drive (overBudget : Bool)
  | resume
  | waiterSend
  | waiterResolve
  | waiterDrop
  | respond
  | poll

def step (action : Action) (stream : Stream) : Option Stream :=
  match action with
  | .drive overBudget => stream.drive overBudget
  | .resume =>
    if stream.phase = .suspended then some { stream with phase := .running } else none
  | .waiterSend => stream.waiterSend
  | .waiterResolve => stream.waiterResolve
  | .waiterDrop => stream.waiterDrop
  | .respond => stream.respond
  | .poll => stream.poll

def Driver.drainsInline : Driver → Bool
  | .predrain | .inline => true
  | _ => false

@[simp] theorem drainsInline_thread : Driver.thread.drainsInline = false :=
  rfl

def Driver.pushesOnLoop : Driver → Bool
  | .loop | .trampoline => true
  | _ => false

inductive Change (stream : Stream) : Stream → Prop where
  | handOver (hdriver : stream.driver.drainsInline = true) (hphase : stream.phase = .running) :
      Change stream { stream with driver := .thread }
  | inlinePush (value : Chunk) (rest : List Event) (driver : Driver)
      (hdriver : stream.driver.drainsInline = true) (hphase : stream.phase = .running)
      (hrest : stream.rest = .chunk value :: rest)
      (hnext : driver = .thread ∨ driver = stream.driver) :
      Change stream { stream.send (pythonValToBytes value) with rest, driver }
  | inlineSuspend (event : Event) (rest : List Event)
      (hdriver : stream.driver.drainsInline = true) (hphase : stream.phase = .running)
      (hrest : stream.rest = event :: rest) (hevent : ∀ value, event ≠ .chunk value) :
      Change stream { stream.suspend with rest, driver := .thread }
  | finish (hphase : stream.phase = .running) (hrest : stream.rest = []) :
      Change stream stream.finish
  | predrainEnd (hdriver : stream.driver.drainsInline = true) (hphase : stream.phase = .running) :
      Change stream stream.predrainEnd
  | push (value : Chunk) (rest : List Event) (pushed : Nat) (phase : Phase) (eager : Bool)
      (hdriver : stream.driver.drainsInline = false) (hphase : stream.phase = .running)
      (hroom : stream.hasRoom = true) (hrest : stream.rest = .chunk value :: rest)
      (hafter : phase = .running ∨ phase = .suspended) :
      Change stream
        { stream.send (pythonValToBytes value) with rest, pushed, phase, eager }
  | full (value : Chunk) (rest : List Event) (hdriver : stream.driver.pushesOnLoop = true)
      (hphase : stream.phase = .running) (hroom : stream.hasRoom = false)
      (hrest : stream.rest = .chunk value :: rest) :
      Change stream
        { stream with phase := .waiting (pythonValToBytes value), eager := false, rest }
  | checkpoint (rest : List Event) (hphase : stream.phase = .running)
      (hrest : stream.rest = .checkpoint :: rest) : Change stream { stream with rest }
  | await (rest : List Event) (hphase : stream.phase = .running)
      (hrest : stream.rest = .await :: rest) : Change stream { stream.suspend with rest }
  | resume (hphase : stream.phase = .suspended) :
      Change stream { stream with phase := .running }
  | waiterSend (chunk : Bytes) (hphase : stream.phase = .waiting chunk)
      (hroom : stream.hasRoom = true) :
      Change stream { stream.send chunk with phase := .delivered }
  | waiterResolve (pushed : Nat) (phase : Phase) (eager : Bool)
      (hphase : stream.phase = .delivered) (hafter : phase = .running ∨ phase = .suspended) :
      Change stream { stream with lingering := stream.lingering + 1, pushed, phase, eager }
  | waiterDrop (hlingering : stream.lingering ≠ 0) :
      Change stream { stream with lingering := stream.lingering - 1 }
  | respond (hreturned : stream.returned = false)
      (hthread : stream.driver.onRequestThread = true → stream.phase = .ended) :
      Change stream { stream with returned := true }
  | emitPending (item : Item) (hpolled : stream.returned = true)
      (hpending : stream.pending = some item) :
      Change stream { stream.emit item with pending := none }
  | eof (hpolled : stream.returned = true) (hfinished : stream.finished = false)
      (hbatch : stream.batch = none) (hpending : stream.pending = none)
      (hend : stream.done = true ∨ stream.queue = [] ∧ stream.closed = true) :
      Change stream { stream with finished := true }
  | recvErr (message : String) (queue : List Item) (hpolled : stream.returned = true)
      (hqueue : stream.queue = .err message :: queue) :
      Change stream { stream.emit (.err message) with queue }
  | recvLarge (chunk : Bytes) (queue : List Item) (hpolled : stream.returned = true)
      (hbatch : stream.batch = none) (hqueue : stream.queue = .ok chunk :: queue) :
      Change stream { stream.emit (.ok chunk) with queue }
  | recvFirst (chunk : Bytes) (queue : List Item) (hpolled : stream.returned = true)
      (hbatch : stream.batch = none) (hqueue : stream.queue = .ok chunk :: queue) :
      Change stream { stream with queue, batch := some chunk }
  | batchMore (batch next : Bytes) (queue : List Item) (hpolled : stream.returned = true)
      (hbatch : stream.batch = some batch) (hqueue : stream.queue = .ok next :: queue) :
      Change stream { stream with queue, batch := some (batch ++ next) }
  | batchFull (batch next : Bytes) (queue : List Item) (hpolled : stream.returned = true)
      (hbatch : stream.batch = some batch) (hqueue : stream.queue = .ok next :: queue) :
      Change stream { stream.emit (.ok (batch ++ next)) with queue, batch := none }
  | batchErr (batch : Bytes) (message : String) (queue : List Item)
      (hpolled : stream.returned = true) (hbatch : stream.batch = some batch)
      (hqueue : stream.queue = .err message :: queue) :
      Change stream
        { stream.emit (.ok batch) with queue, batch := none, pending := some (.err message) }
  | batchEnd (batch : Bytes) (hpolled : stream.returned = true)
      (hbatch : stream.batch = some batch) (hqueue : stream.queue = []) :
      Change stream { stream.emit (.ok batch) with batch := none, done := stream.closed }

section Inversion

variable {stream next : Stream}

theorem change_of_driveInline {overBudget : Bool} (hd : stream.driver.drainsInline = true)
    (hp : stream.phase = .running) : Change stream (stream.driveInline overBudget) := by
  unfold Stream.driveInline
  split
  · split
    · rename_i hr
      split
      · exact .predrainEnd hd hp
      · exact .finish hp hr
    · rename_i value rest hr
      refine .inlinePush value rest _ hd hp hr ?_
      split
      · exact .inl rfl
      · exact .inr rfl
    · rename_i event rest ho hr
      exact .inlineSuspend event rest hd hp hr ho
  · exact .handOver hd hp

theorem change_of_push {value : Chunk} {rest : List Event}
    (hd : stream.driver.drainsInline = false) (hp : stream.phase = .running)
    (hr : stream.hasRoom = true) (hrest : stream.rest = .chunk value :: rest) :
    Change stream ({ stream.send (pythonValToBytes value) with rest }).afterPush := by
  obtain ⟨pushed, phase, eager, ha, heq⟩ :=
    ({ stream.send (pythonValToBytes value) with rest }).afterPush_eq
  rw [heq]
  exact .push value rest pushed phase eager hd hp hr hrest ha

theorem change_of_driveThread (hdriver : stream.driver.drainsInline = false)
    (hp : stream.phase = .running) (hd : stream.driveThread = some next) :
    Change stream next := by
  unfold Stream.driveThread at hd
  split at hd
  · rename_i hr
    cases hd
    exact .finish hp hr
  · rename_i value rest hr
    split at hd
    · rename_i hroom
      cases hd
      exact change_of_push hdriver hp hroom hr
    · cases hd
  · rename_i rest hr
    cases hd
    exact .checkpoint rest hp hr
  · rename_i rest hr
    cases hd
    exact .await rest hp hr

private theorem change_of_driveLoop (hd : stream.driver.pushesOnLoop = true)
    (hp : stream.phase = .running) : Change stream stream.driveLoop := by
  have hinline : stream.driver.drainsInline = false := by
    cases hk : stream.driver <;> simp_all [Driver.pushesOnLoop, Driver.drainsInline]
  unfold Stream.driveLoop
  split
  · rename_i hr
    exact .finish hp hr
  · rename_i value rest hr
    split
    · rename_i hroom
      exact change_of_push hinline hp hroom hr
    · rename_i hroom
      exact .full value rest hd hp (Bool.eq_false_iff.2 hroom) hr
  · rename_i rest hr
    exact .checkpoint rest hp hr
  · rename_i rest hr
    exact .await rest hp hr

theorem change_of_drive {overBudget : Bool} (hd : stream.drive overBudget = some next) :
    Change stream next := by
  unfold Stream.drive at hd
  split at hd
  · rename_i hp
    cases hdriver : stream.driver with
    | predrain | inline =>
      simp only [hdriver] at hd
      cases hd
      exact change_of_driveInline (by rw [hdriver]; rfl) hp
    | thread | privateLoop =>
      simp only [hdriver] at hd
      exact change_of_driveThread (by rw [hdriver]; rfl) hp hd
    | loop | trampoline =>
      simp only [hdriver] at hd
      cases hd
      exact change_of_driveLoop (by rw [hdriver]; rfl) hp
  · cases hd

theorem change_of_pollFirst (hpolled : stream.returned = true) (hf : stream.finished = false)
    (hb : stream.batch = none) (hp : stream.pollFirst = some next) :
    Change stream next := by
  unfold Stream.pollFirst at hp
  split at hp
  · rename_i item hpending
    cases hp
    exact .emitPending item hpolled hpending
  · rename_i hpending
    split at hp
    · rename_i hd
      cases hp
      exact .eof hpolled hf hb hpending (.inl hd)
    · split at hp
      · rename_i hq
        split at hp
        · rename_i hc
          cases hp
          exact .eof hpolled hf hb hpending (.inr ⟨hq, hc⟩)
        · cases hp
      · rename_i message queue hq
        cases hp
        exact .recvErr message queue hpolled hq
      · rename_i chunk queue hq
        split at hp
        · cases hp
          exact .recvLarge chunk queue hpolled hb hq
        · cases hp
          exact .recvFirst chunk queue hpolled hb hq

private theorem change_of_tryRecv {batch : Bytes} (hp : stream.returned = true)
    (hb : stream.batch = some batch) : Change stream (stream.tryRecv batch) := by
  unfold Stream.tryRecv
  split
  · rename_i chunk queue hq
    split
    · exact .batchFull batch chunk queue hp hb hq
    · exact .batchMore batch chunk queue hp hb hq
  · rename_i message queue hq
    exact .batchErr batch message queue hp hb hq
  · rename_i hq
    exact .batchEnd batch hp hb hq

private theorem change_of_poll (hp : stream.poll = some next) : Change stream next := by
  unfold Stream.poll at hp
  split at hp
  · rename_i hr
    obtain ⟨hpolled, hf⟩ := Bool.and_eq_true_iff.1 hr
    rw [Bool.not_eq_true'] at hf
    split at hp
    · rename_i batch hb
      cases hp
      exact change_of_tryRecv hpolled hb
    · rename_i hb
      exact change_of_pollFirst hpolled hf hb hp
  · cases hp

theorem change_of_step {action : Action} (hs : step action stream = some next) :
    Change stream next := by
  cases action with
  | drive overBudget => exact change_of_drive hs
  | resume =>
    simp only [step] at hs
    split at hs
    · rename_i hp
      cases hs
      exact .resume hp
    · cases hs
  | waiterSend =>
    simp only [step, Stream.waiterSend] at hs
    split at hs
    · rename_i chunk hp
      split at hs
      · rename_i hr
        cases hs
        exact .waiterSend chunk hp hr
      · cases hs
    · cases hs
  | waiterResolve =>
    simp only [step, Stream.waiterResolve] at hs
    split at hs
    · rename_i hp
      cases hs
      obtain ⟨pushed, phase, eager, ha, heq⟩ :=
        ({ stream with lingering := stream.lingering + 1 }).afterPush_eq
      rw [heq]
      exact .waiterResolve pushed phase eager hp ha
    · cases hs
  | waiterDrop =>
    simp only [step, Stream.waiterDrop] at hs
    split at hs
    · cases hs
    · rename_i hl
      cases hs
      exact .waiterDrop hl
  | respond =>
    simp only [step, Stream.respond] at hs
    split at hs
    · cases hs
    · rename_i hreturned
      split at hs
      · cases hs
      · rename_i ht
        cases hs
        refine .respond (Bool.eq_false_iff.2 hreturned) ?_
        intro hrequest
        simpa [hrequest] using ht
  | poll => exact change_of_poll hs

end Inversion

end FastapiTurbo.Streaming
