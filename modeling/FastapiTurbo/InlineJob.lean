import FastapiTurbo.Lib.Transition
import FastapiTurbo.Py

/-! The async-inline path (`router.rs`, and `_inline_runner` of `_door_support.py`): the whole
request runs on the worker's loop and is answered through a one-shot slot.  Every callback of the
loop is one step. -/
namespace FastapiTurbo.InlineJob

open Lib Py

variable {ρ ν κ : Type}

inductive LoopOutcome (ρ ν κ : Type) where
  | ready (response : ρ)
  | result (obj : ν) (kwargs : κ) (injectedBg injectedResp : Option ν)
  | error (error : PyErr)
  deriving DecidableEq

structure InlineSend (ν κ : Type) where
  kwargs : κ
  injectedBg : Option ν
  injectedResp : Option ν
  deriving DecidableEq

/-- A request, by what the calls that `run_inline_job` makes for it come to. -/
structure InlineParts (ρ ν κ : Type) where
  extractParamsToPydictFull : Except ρ κ
  /-- With the objects that the injection leaves in the thread's cells. -/
  injectFrameworkObjects : κ → Except PyErr (InlineSend ν κ)
  /-- Calling the handler builds its coroutine and runs nothing of it. -/
  handler : κ → Except PyErr Unit
  workerLoop : Bool
  inlineRunner : Bool
  newInlineSend : Except PyErr Unit
  callRunner : Except PyErr Unit
  /-- With the eager task factory the task makes its first step inside the call. -/
  createTask : Except PyErr (Option (Segment ν))
  /-- Whether `_timeout` is found and `call_later` gives a handle. -/
  callLater : Bool

structure RouteState where
  workerTimeout : Option UInt64
  debug : UInt64 → String

def RouteState.timedOut (state : RouteState) : PyErr :=
  ⟨timeoutErrorMro,
    "fastapi-turbo worker-loop submit timed out after " ++
      state.debug (state.workerTimeout.getD 0x7ff8000000000000) ++ "s"⟩

/-- `run_inline_job` up to `create_task`: the outcome it sends when a call fails, or the
completion sink and the step that the new task has already made. -/
def prepare (parts : InlineParts ρ ν κ) :
    Except (LoopOutcome ρ ν κ) (InlineSend ν κ × Option (Segment ν)) := do
  let kwargs ← parts.extractParamsToPydictFull.mapError .ready
  let send ← (parts.injectFrameworkObjects kwargs).mapError .error
  (parts.handler send.kwargs).mapError .error
  if !parts.workerLoop then
    throw (.error ⟨runtimeErrorMro, "async worker loop not initialized"⟩)
  if !parts.inlineRunner then
    throw (.error ⟨runtimeErrorMro, "_inline_runner not initialized"⟩)
  parts.newInlineSend.mapError .error
  parts.callRunner.mapError .error
  let start ← parts.createTask.mapError .error
  return (send, start)

inductive Task (ν κ : Type) where
  | absent
  /-- Not started: its first step is scheduled. -/
  | created (send : InlineSend ν κ)
  | suspended (send : InlineSend ν κ)
  | ended

def Task.send? : Task ν κ → Option (InlineSend ν κ)
  | .created send => some send
  | .suspended send => some send
  | _ => none

inductive Timer where
  | absent
  | armed
  | cancelled
  | fired
  deriving DecidableEq

/-- `Handle.cancel` also keeps a callback from running that is already due. -/
def Timer.cancel : Timer → Timer
  | .armed => .cancelled
  | timer => timer

inductive Happening (ρ ν κ : Type) where
  | failed (outcome : LoopOutcome ρ ν κ)
  | finished (outcome : Outcome ν PyErr)
  | expired
  deriving DecidableEq

structure Job (ρ ν κ : Type) where
  parts : Option (InlineParts ρ ν κ)
  sender : Bool := true
  receiver : Bool := true
  sent : List (LoopOutcome ρ ν κ) := []
  received : Option (LoopOutcome ρ ν κ) := none
  task : Task ν κ := .absent
  timer : Timer := .absent
  /-- `InlineSend.timer` and `InlineSend.task` are filled. -/
  timerSlot : Bool := false
  taskSlot : Bool := false
  /-- Calls of `task.cancel`. -/
  cancels : Nat := 0
  log : List (Happening ρ ν κ) := []

/-- `oneshot::Sender::send`; a receiver that is gone drops the outcome. -/
def Job.deliver (job : Job ρ ν κ) (outcome : LoopOutcome ρ ν κ) : Job ρ ν κ :=
  { job with
    sender := false
    sent := job.sent ++ [outcome]
    received := if job.receiver then some outcome else job.received }

def sendInlineOutcome (job : Job ρ ν κ) (outcome : LoopOutcome ρ ν κ) : Job ρ ν κ :=
  if job.sender then job.deliver outcome else job

def InlineSend.outcome (send : InlineSend ν κ) : Outcome ν PyErr → LoopOutcome ρ ν κ
  | .returned obj => .result obj send.kwargs send.injectedBg send.injectedResp
  | .raised error => .error error

def Job.cancelTimer (job : Job ρ ν κ) : Job ρ ν κ :=
  if job.timerSlot then { job with timer := job.timer.cancel, timerSlot := false } else job

def InlineSend.call (send : InlineSend ν κ) (job : Job ρ ν κ) (outcome : Outcome ν PyErr) :
    Job ρ ν κ :=
  sendInlineOutcome job.cancelTimer (send.outcome outcome)

def inlineRunner (job : Job ρ ν κ) (send : InlineSend ν κ) : Segment ν → Job ρ ν κ
  | .suspends => { job with task := .suspended send }
  | .ends outcome =>
    send.call { job with task := .ended, log := job.log ++ [.finished outcome] } outcome

def armTimer (state : RouteState) (parts : InlineParts ρ ν κ) (job : Job ρ ν κ) : Job ρ ν κ :=
  if state.workerTimeout.isSome && parts.callLater then
    if job.sender then { job with timer := .armed, timerSlot := true }
    else { job with timer := .cancelled }
  else job

def startTask (job : Job ρ ν κ) (send : InlineSend ν κ) : Option (Segment ν) → Job ρ ν κ
  | none => { job with task := .created send }
  | some segment => inlineRunner job send segment

def runInlineJob (state : RouteState) (parts : InlineParts ρ ν κ) (job : Job ρ ν κ) :
    Job ρ ν κ :=
  match prepare parts with
  | .error outcome => sendInlineOutcome { job with log := job.log ++ [.failed outcome] } outcome
  | .ok (send, start) =>
    { armTimer state parts (startTask job send start) with taskSlot := true }

def timeout (state : RouteState) (job : Job ρ ν κ) : Job ρ ν κ :=
  let job := sendInlineOutcome { job with log := job.log ++ [.expired] } (.error state.timedOut)
  if job.taskSlot then { job with cancels := job.cancels + 1 } else job

inductive Action (ν : Type) where
  /-- The loop calls the `InlineJob`. -/
  | call
  | resume (segment : Segment ν)
  /-- The loop calls `_timeout`. -/
  | expire
  /-- The client is gone and with it the receiver. -/
  | disconnect
  deriving DecidableEq

def step (state : RouteState) : Action ν → Job ρ ν κ → Option (Job ρ ν κ)
  | .call, job =>
    match job.parts with
    | none => some job
    | some parts => some (runInlineJob state parts { job with parts := none })
  | .resume segment, job =>
    match job.task with
    | .created send =>
      -- A task that is cancelled before its first step never enters its body.
      if 0 < job.cancels then some { job with task := .ended }
      else some (inlineRunner job send segment)
    | .suspended send => some (inlineRunner job send segment)
    | _ => none
  | .expire, job =>
    if job.timer = .armed then some (timeout state { job with timer := .fired }) else none
  | .disconnect, job => some { job with receiver := false }

def enqueued (parts : InlineParts ρ ν κ) : Job ρ ν κ where
  parts := some parts

/-- The handler still runs and its deadline, if it has one, is in force and has not passed. -/
def Job.Pending (state : RouteState) (parts : InlineParts ρ ν κ) (job : Job ρ ν κ) : Prop :=
  job.task.send?.isSome = true ∧ job.timer ≠ .fired ∧
    (state.workerTimeout.isSome = true → parts.callLater = true → job.timer = .armed)

def ownOutcome (parts : InlineParts ρ ν κ) (outcome : Outcome ν PyErr) : LoopOutcome ρ ν κ :=
  match prepare parts with
  | .error failure => failure
  | .ok (send, _) => send.outcome outcome

def answer (state : RouteState) (parts : InlineParts ρ ν κ) : Happening ρ ν κ → LoopOutcome ρ ν κ
  | .failed outcome => outcome
  | .finished outcome => ownOutcome parts outcome
  | .expired => .error state.timedOut

section Slot

variable {state : RouteState} {parts : InlineParts ρ ν κ} {job next : Job ρ ν κ}

theorem ownOutcome_eq {send : InlineSend ν κ} {start : Option (Segment ν)}
    (hp : prepare parts = .ok (send, start)) (outcome : Outcome ν PyErr) :
    ownOutcome parts outcome = send.outcome outcome := by
  rw [ownOutcome, hp]

/-- The slot has been used for the first thing that happened and for nothing else. -/
structure Answered (state : RouteState) (parts : InlineParts ρ ν κ) (job : Job ρ ν κ) :
    Prop where
  sent : job.sent = (job.log.head?.map (answer state parts)).toList
  sender : job.sender = job.log.isEmpty
  received : job.receiver = true → job.received = job.sent.head?

theorem Answered.congr (h : Answered state parts job) (hs : next.sent = job.sent)
    (hlog : next.log = job.log) (hsender : next.sender = job.sender)
    (hr : next.received = job.received)
    (hreceiver : next.receiver = true → job.receiver = true) : Answered state parts next where
  sent := by rw [hs, hlog, h.sent]
  sender := by rw [hsender, hlog, h.sender]
  received := by
    intro hw
    rw [hr, hs]
    exact h.received (hreceiver hw)

theorem Answered.send (h : Answered state parts job) (happening : Happening ρ ν κ)
    (hs : next.sent = job.sent) (hlog : next.log = job.log ++ [happening])
    (hsender : next.sender = job.sender) (hr : next.received = job.received)
    (hreceiver : next.receiver = job.receiver) :
    Answered state parts (sendInlineOutcome next (answer state parts happening)) := by
  have he := h.sender
  have hsentBefore := h.sent
  rw [sendInlineOutcome, hsender]
  cases hlogBefore : job.log with
  | nil =>
    rw [hlogBefore] at he hsentBefore hlog
    rw [he]
    refine ⟨?_, ?_, ?_⟩
    · simp [Job.deliver, hs, hlog, hsentBefore]
    · simp [Job.deliver, hlog]
    · intro hw
      have hw : next.receiver = true := hw
      simp [Job.deliver, hw, hs, hsentBefore]
  | cons first rest =>
    rw [hlogBefore] at he hsentBefore hlog
    rw [he]
    refine ⟨?_, ?_, ?_⟩
    · simp [hs, hlog, hsentBefore]
    · simp [hsender, hlog, he]
    · intro hw
      have hw : next.receiver = true := hw
      rw [hreceiver] at hw
      simp [hs, hr, h.received hw]

theorem sendInlineOutcome_frame (job : Job ρ ν κ) (outcome : LoopOutcome ρ ν κ) :
    ∃ sender sent received, sendInlineOutcome job outcome =
      { job with sender := sender, sent := sent, received := received } := by
  rw [sendInlineOutcome]
  split
  · exact ⟨_, _, _, rfl⟩
  · exact ⟨_, _, _, rfl⟩

end Slot

section Runs

variable {state : RouteState} {parts : InlineParts ρ ν κ} {job next : Job ρ ν κ}

/-- The task, its timer and its cancellations against what has happened. -/
structure Wired (state : RouteState) (parts : InlineParts ρ ν κ) (job : Job ρ ν κ) : Prop where
  taken : job.parts = none
  failed : ∀ outcome, .failed outcome ∈ job.log → prepare parts = .error outcome
  running : ∀ send, job.task.send? = some send → ∃ start, prepare parts = .ok (send, start)
  pending : job.log = [] → job.task.send?.isSome = true
  inForce : job.log = [] → state.workerTimeout.isSome = true → parts.callLater = true →
    job.timer = .armed
  armed : job.timer = .armed → job.log = [] ∧ job.timerSlot = true ∧ job.taskSlot = true
  expired : .expired ∈ job.log ↔ job.timer = .fired
  cancelled : 0 < job.cancels ↔ .expired ∈ job.log

theorem Wired.sent (h : Wired state parts job) (outcome : LoopOutcome ρ ν κ) :
    Wired state parts (sendInlineOutcome job outcome) := by
  obtain ⟨sender, sent, received, hs⟩ := sendInlineOutcome_frame job outcome
  rw [hs]
  exact ⟨h.taken, h.failed, h.running, h.pending, h.inForce, h.armed, h.expired, h.cancelled⟩

theorem Timer.cancel_ne_armed (timer : Timer) : timer.cancel ≠ .armed := by
  cases timer <;> decide

theorem Timer.cancel_eq_fired {timer : Timer} : timer.cancel = .fired ↔ timer = .fired := by
  cases timer <;> decide

theorem Timer.cancel_of_ne_armed {timer : Timer} (ht : timer ≠ .armed) :
    timer.cancel = timer := by
  cases timer with
  | armed => exact absurd rfl ht
  | _ => rfl

theorem cancelTimer_eq (job : Job ρ ν κ) (hs : job.timer = .armed → job.timerSlot = true) :
    ∃ timerSlot, job.cancelTimer =
      { job with timer := job.timer.cancel, timerSlot := timerSlot } := by
  rw [Job.cancelTimer]
  split
  · exact ⟨_, rfl⟩
  · rename_i he
    have ht : job.timer ≠ .armed := fun ha => he (hs ha)
    exact ⟨job.timerSlot, by rw [Timer.cancel_of_ne_armed ht]⟩

section

variable (h : Wired state parts job)
include h

theorem Wired.finished (send : InlineSend ν κ) (outcome : Outcome ν PyErr) :
    Wired state parts (inlineRunner job send (.ends outcome)) := by
  apply Wired.sent
  obtain ⟨timerSlot, hc⟩ := cancelTimer_eq
    { job with task := .ended, log := job.log ++ [.finished outcome] }
    fun ha => (h.armed ha).2.1
  rw [hc]
  exact {
    taken := h.taken
    failed := fun failure hf => h.failed failure (by simpa using hf)
    running := nofun
    pending := fun hlog => absurd hlog (by simp)
    inForce := fun hlog => absurd hlog (by simp)
    armed := fun ha => absurd ha (Timer.cancel_ne_armed _)
    expired := by
      simpa [Timer.cancel_eq_fired] using h.expired
    cancelled := by
      simpa using h.cancelled }

theorem Wired.suspended {send : InlineSend ν κ} (hs : job.task.send? = some send) :
    Wired state parts (inlineRunner job send .suspends) where
  taken := h.taken
  failed := h.failed
  running := by
    intro other ho
    cases ho
    exact h.running send hs
  pending := fun _ => rfl
  inForce := h.inForce
  armed := h.armed
  expired := h.expired
  cancelled := h.cancelled

theorem Wired.resumed {send : InlineSend ν κ} (hs : job.task.send? = some send)
    (segment : Segment ν) : Wired state parts (inlineRunner job send segment) := by
  cases segment with
  | suspends => exact h.suspended hs
  | ends outcome => exact h.finished send outcome

theorem Wired.neverEntered (hc : 0 < job.cancels) :
    Wired state parts { job with task := .ended } where
  taken := h.taken
  failed := h.failed
  running := nofun
  pending := fun hlog => absurd (hlog ▸ h.cancelled.1 hc : _ ∈ []) List.not_mem_nil
  inForce := h.inForce
  armed := h.armed
  expired := h.expired
  cancelled := h.cancelled

theorem Wired.timedOut (ha : job.timer = .armed) :
    Wired state parts (timeout state { job with timer := .fired }) := by
  obtain ⟨sender, sent, received, hs⟩ := sendInlineOutcome_frame
    { job with timer := .fired, log := job.log ++ [.expired] } (.error state.timedOut)
  have hslot : job.taskSlot = true := (h.armed ha).2.2
  rw [timeout, hs]
  rw [if_pos hslot]
  exact {
    taken := h.taken
    failed := fun failure hf => h.failed failure (by simpa using hf)
    running := h.running
    pending := fun hlog => absurd hlog (by simp)
    inForce := fun hlog => absurd hlog (by simp)
    armed := nofun
    expired := by simp
    cancelled := by simp }

end

def Waiting (parts : InlineParts ρ ν κ) (job : Job ρ ν κ) : Prop :=
  ∃ receiver, job = { enqueued parts with receiver := receiver }

theorem wired_settled (first : Happening ρ ν κ) (hp : job.parts = none)
    (hlog : job.log = [first]) (hf : first ≠ .expired)
    (hfailed : ∀ outcome, first = .failed outcome → prepare parts = .error outcome)
    (htask : job.task.send? = none) (ht : job.timer = .absent ∨ job.timer = .cancelled)
    (hc : job.cancels = 0) : Wired state parts job where
  taken := hp
  failed := by
    intro failure hfailure
    rw [hlog, List.mem_singleton] at hfailure
    exact hfailed failure hfailure.symm
  running := by simp [htask]
  pending := by simp [hlog]
  inForce := by simp [hlog]
  armed := by rcases ht with ht | ht <;> simp [ht]
  expired := by rcases ht with ht | ht <;> simp [hlog, ht, hf.symm]
  cancelled := by simp [hlog, hc, hf.symm]

theorem armTimer_of_taken (state : RouteState) (parts : InlineParts ρ ν κ)
    (hs : job.sender = false) (ht : job.timer = .absent) :
    ∃ timer, armTimer state parts job = { job with timer := timer } ∧
      (timer = .absent ∨ timer = .cancelled) := by
  rw [armTimer]
  split
  · rw [if_neg (by rw [hs]; decide)]
    exact ⟨.cancelled, rfl, .inr rfl⟩
  · exact ⟨.absent, by rw [← ht], .inl rfl⟩

/-- Behind a `create_task` that has left the handler suspended or not started it. -/
theorem wired_running {send : InlineSend ν κ} {start : Option (Segment ν)}
    (hp : prepare parts = .ok (send, start)) (hparts : job.parts = none)
    (hs : job.sender = true) (hlog : job.log = []) (ht : job.task.send? = some send)
    (htimer : job.timer = .absent) (hc : job.cancels = 0) :
    Wired state parts { armTimer state parts job with taskSlot := true } := by
  rw [armTimer, hs]
  cases hset : state.workerTimeout.isSome && parts.callLater with
  | true =>
    exact {
      taken := hparts
      failed := by simp [hlog]
      running := by simp [ht, hp]
      pending := by simp [ht]
      inForce := by simp
      armed := by simp [hlog]
      expired := by simp [hlog]
      cancelled := by simp [hlog, hc] }
  | false =>
    exact {
      taken := hparts
      failed := by simp [hlog]
      running := by simp [ht, hp]
      pending := by simp [ht]
      inForce := fun _ htimeout hcallLater => by simp [htimeout, hcallLater] at hset
      armed := by simp [htimer]
      expired := by simp [hlog, htimer]
      cancelled := by simp [hlog, hc] }

/-- Behind a `create_task` in which the handler has ended. -/
theorem wired_eager (state : RouteState) (parts : InlineParts ρ ν κ) (outcome : Outcome ν PyErr)
    (hp : job.parts = none) (hs : job.sender = false)
    (hlog : job.log = [.finished outcome]) (ht : job.task = .ended)
    (htimer : job.timer = .absent) (hc : job.cancels = 0) :
    Wired state parts { armTimer state parts job with taskSlot := true } := by
  obtain ⟨timer, harm, hidle⟩ := armTimer_of_taken state parts hs htimer
  rw [harm]
  exact wired_settled (.finished outcome) hp hlog nofun nofun (by rw [ht]; rfl) hidle
    hc

theorem wired_runInlineJob (state : RouteState) (parts : InlineParts ρ ν κ) (receiver : Bool) :
    Wired state parts
      (runInlineJob state parts { enqueued parts with receiver := receiver, parts := none }) := by
  rw [runInlineJob]
  split
  next outcome hp =>
    refine (wired_settled (.failed outcome) rfl rfl nofun ?_ rfl (.inl rfl) rfl).sent outcome
    intro failure hf
    cases hf
    exact hp
  next send start hp =>
    cases start with
    | none => exact wired_running hp rfl rfl rfl rfl rfl rfl
    | some segment =>
      cases segment with
      | suspends => exact wired_running hp rfl rfl rfl rfl rfl rfl
      | ends outcome => exact wired_eager state parts outcome rfl rfl rfl rfl rfl rfl

theorem Answered.resumed (h : Answered state parts job) {send : InlineSend ν κ}
    {start : Option (Segment ν)} (hp : prepare parts = .ok (send, start))
    (hs : job.timer = .armed → job.timerSlot = true) (segment : Segment ν) :
    Answered state parts (inlineRunner job send segment) := by
  cases segment with
  | suspends => exact h.congr rfl rfl rfl rfl id
  | ends outcome =>
    obtain ⟨timerSlot, hc⟩ := cancelTimer_eq
      { job with task := .ended, log := job.log ++ [.finished outcome] } hs
    rw [inlineRunner, InlineSend.call, hc, ← ownOutcome_eq hp]
    exact h.send (.finished outcome) rfl rfl rfl rfl rfl

theorem Answered.armed (h : Answered state parts job) :
    Answered state parts { armTimer state parts job with taskSlot := true } := by
  rw [armTimer]
  split
  · split
    · exact h.congr rfl rfl rfl rfl id
    · exact h.congr rfl rfl rfl rfl id
  · exact h.congr rfl rfl rfl rfl id

theorem Answered.timedOut (h : Answered state parts job) :
    Answered state parts (timeout state { job with timer := .fired }) := by
  have hs : Answered state parts (sendInlineOutcome
      { job with timer := .fired, log := job.log ++ [.expired] } (.error state.timedOut)) :=
    h.send .expired rfl rfl rfl rfl rfl
  rw [timeout]
  split
  · exact hs.congr rfl rfl rfl rfl id
  · exact hs

theorem answered_runInlineJob (state : RouteState) (parts : InlineParts ρ ν κ)
    (receiver : Bool) :
    Answered state parts
      (runInlineJob state parts { enqueued parts with receiver := receiver, parts := none }) := by
  have hf : Answered state parts
      { enqueued parts with receiver := receiver, parts := none } := ⟨rfl, rfl, fun _ => rfl⟩
  rw [runInlineJob]
  split
  next outcome hp => exact hf.send (.failed outcome) rfl rfl rfl rfl rfl
  next send start hp =>
    apply Answered.armed
    cases start with
    | none => exact hf.congr rfl rfl rfl rfl id
    | some segment => exact hf.resumed hp nofun segment

/-- The job waits, or it has run and its request is answered for what has happened first. -/
def Sound (state : RouteState) (parts : InlineParts ρ ν κ) (job : Job ρ ν κ) : Prop :=
  Waiting parts job ∨ Wired state parts job ∧ Answered state parts job

theorem Sound.step {action : Action ν} (hs : step state action job = some next)
    (h : Sound state parts job) : Sound state parts next := by
  rcases h with ⟨receiver, rfl⟩ | ⟨hw, ha⟩
  · cases action with
    | call =>
      cases hs
      exact .inr ⟨wired_runInlineJob state parts receiver,
        answered_runInlineJob state parts receiver⟩
    | resume segment => cases hs
    | expire => cases hs
    | disconnect =>
      cases hs
      exact .inl ⟨false, rfl⟩
  · right
    cases action with
    | call =>
      rw [InlineJob.step, hw.taken] at hs
      cases hs
      exact ⟨hw, ha⟩
    | resume segment =>
      have hslot := fun harmed => (hw.armed harmed).2.1
      rw [InlineJob.step] at hs
      split at hs
      next send ht =>
        have hsend : job.task.send? = some send := by rw [ht]; rfl
        obtain ⟨start, hp⟩ := hw.running send hsend
        split at hs
        next hc =>
          cases hs
          exact ⟨hw.neverEntered hc, ha.congr rfl rfl rfl rfl id⟩
        next =>
          cases hs
          exact ⟨hw.resumed hsend segment, ha.resumed hp hslot segment⟩
      next send ht =>
        have hsend : job.task.send? = some send := by rw [ht]; rfl
        obtain ⟨start, hp⟩ := hw.running send hsend
        cases hs
        exact ⟨hw.resumed hsend segment, ha.resumed hp hslot segment⟩
      next => cases hs
    | expire =>
      rw [InlineJob.step] at hs
      split at hs
      next harmed =>
        cases hs
        exact ⟨hw.timedOut harmed, ha.timedOut⟩
      next => cases hs
    | disconnect =>
      cases hs
      refine ⟨?_, ha.congr rfl rfl rfl rfl nofun⟩
      exact ⟨hw.taken, hw.failed, hw.running, hw.pending, hw.inForce,
        hw.armed, hw.expired, hw.cancelled⟩

theorem Wired.pending_of_unsettled (h : Wired state parts job) (hlog : job.log = []) :
    job.Pending state parts := by
  refine ⟨h.pending hlog, ?_, h.inForce hlog⟩
  intro hf
  have he := h.expired.2 hf
  rw [hlog] at he
  cases he

/-- Whatever the loop does in whatever order, a request is answered for what happens to it first:
a call of the job that fails, the handler's end or the deadline.  Once the job has run it has
exactly one answer, but for the time in which the handler is still running within its deadline;
and the deadline has cancelled the task. -/
theorem inline_job_answered_once (state : RouteState) (parts : InlineParts ρ ν κ)
    (actions : List (Action ν)) {job : Job ρ ν κ}
    (hrun : runActions (InlineJob.step state) actions (enqueued parts) = some job) :
    job.sent = (job.log.head?.map (answer state parts)).toList ∧
      (job.parts = none → job.sent.length = 1 ∨ job.sent = [] ∧ job.Pending state parts) ∧
      (∀ outcome, .failed outcome ∈ job.log → prepare parts = .error outcome) ∧
      (.expired ∈ job.log → 0 < job.cancels) ∧
      (job.receiver = true → job.received = job.sent.head?) := by
  have hs : Sound state parts job :=
    (reaches_of_runActions hrun).keeps (fun _ _ _ hstep hb => hb.step hstep)
      (.inl ⟨true, rfl⟩)
  rcases hs with ⟨receiver, rfl⟩ | ⟨hw, ha⟩
  · exact ⟨rfl, nofun, nofun, nofun, fun _ => rfl⟩
  · refine ⟨ha.sent, fun _ => ?_, hw.failed, hw.cancelled.2, ha.received⟩
    cases hlog : job.log with
    | nil => exact .inr ⟨by rw [ha.sent, hlog]; rfl, hw.pending_of_unsettled hlog⟩
    | cons first rest => exact .inl (by rw [ha.sent, hlog]; rfl)

end Runs

def slowState : RouteState where
  workerTimeout := some 0x3fe0000000000000
  debug := fun _ => "0.5"

def slowParts : InlineParts String Nat Unit where
  extractParamsToPydictFull := .ok ()
  injectFrameworkObjects := fun _ => .ok ⟨(), none, none⟩
  handler := fun _ => .ok ()
  workerLoop := true
  inlineRunner := true
  newInlineSend := .ok ()
  callRunner := .ok ()
  createTask := .ok (some .suspends)
  callLater := true

def slowRun : List (Action Nat) :=
  [.call, .resume .suspends, .expire, .resume .suspends, .resume (.ends (.returned 7))]

theorem slow_handler_answered_once :
    ∃ job, runActions (step slowState) slowRun (enqueued slowParts) = some job ∧
      job.sent = [.error ⟨timeoutErrorMro,
        "fastapi-turbo worker-loop submit timed out after 0.5s"⟩] ∧
      job.log = [.expired, .finished (.returned 7)] ∧ 0 < job.cancels := by
  refine ⟨_, rfl, ?_⟩
  have ho := inline_job_answered_once slowState slowParts slowRun rfl
  exact ⟨ho.1, rfl, ho.2.2.2.1 (by decide)⟩

end FastapiTurbo.InlineJob
