import FastapiTurbo.Lib.Transition

/-! Frames that a handler leaves in the buffer of the sink of its WebSocket, and who flushes
them (`websocket.rs`).  Every load, store or exchange of a counter, every attempt on the lock
of the sink and every poll is a step of its own.  Timers, and flush drivers, differ in nothing
but where they are, so that their numbers are enough. -/
namespace FastapiTurbo.WebSocketCoalesce

open Lib

def wsCoalesceMaxBytes : Nat := 32768

inductive Handler where
  | idle
  /-- `try_direct_send`, before the lock of the sink. -/
  | trying (bytes : Nat) (deferFlush : Bool)
  /-- It holds the lock, and its frame is in the buffer. -/
  | committed (bytes : Nat) (deferFlush : Bool)
  /-- At the exchange of `flush_armed`. -/
  | arming
  | spawning
  /-- `flush_deferred`: before the load of `unflushed`, before the store to it, and before the
  lock of the sink. -/
  | checking
  | clearing
  | locking
  /-- It holds the lock and polls the flush: of `flush_deferred`, or of a send. -/
  | polling (receiving : Bool)
  /-- `flush_deferred` is over, and no message was there. -/
  | parking
  | suspended
  deriving DecidableEq

inductive Select where
  | selecting
  | locking
  /-- It holds the lock and is in `s.send(msg).await`. -/
  | sending
  | left
  deriving DecidableEq

structure Socket where
  handler : Handler := .idle
  locked : Bool := false
  /-- The sink is in its slot and has not failed. -/
  live : Bool := true
  /-- Frames in the buffer of the sink. -/
  buffered : Nat := 0
  unflushed : Nat := 0
  flushArmed : Bool := false
  /-- Timers that sleep, and timers between their two accesses. -/
  sleeping : Nat := 0
  awake : Nat := 0
  /-- Flush drivers, and timers that flush, without and with the lock. -/
  waiting : Nat := 0
  flushing : Nat := 0
  select : Select := .selecting

inductive Flush where
  | ready
  | failed
  | pending
  deriving DecidableEq

inductive Action where
  /-- `queue_send`; `more` says that inbound frames are there. -/
  | send (bytes : Nat) (more : Bool)
  /-- The frame goes to the channel. -/
  | queue
  | commit (fine : Bool)
  | account
  | arm
  | spawn
  /-- `__next__` finds no message. -/
  | receive
  | load
  | store
  | tryLock
  | poll (flush : Flush)
  | park
  | message
  | wake
  | swap
  | lock
  | flushed (fine : Bool)
  | command
  | feed
  | sent (fine : Bool)
  | teardown
  deriving DecidableEq

def Socket.settle (socket : Socket) : Flush → Socket
  | .ready => { socket with locked := false, buffered := 0 }
  | .failed => { socket with locked := false, live := false }
  | .pending => { socket with locked := false, waiting := socket.waiting + 1 }

def Socket.handlerStep (socket : Socket) : Action → Handler → Option Socket
  | .send bytes more, .idle =>
    let deferFlush := socket.unflushed + bytes ≤ wsCoalesceMaxBytes && more
    some { socket with handler := .trying bytes deferFlush }
  | .queue, .trying _ _ => some { socket with handler := .idle }
  | .commit fine, .trying bytes deferFlush =>
    if socket.locked || !socket.live then none
    else if fine then
      some { socket with
        handler := .committed bytes deferFlush, locked := true, buffered := socket.buffered + 1 }
    else some { socket with handler := if deferFlush then .arming else .idle, live := false }
  | .account, .committed bytes deferFlush =>
    if deferFlush then
      some { socket with
        handler := .arming, locked := false, unflushed := socket.unflushed + (bytes + 8) }
    else some { socket with handler := .polling false, unflushed := 0 }
  | .arm, .arming =>
    if socket.flushArmed then some { socket with handler := .idle }
    else some { socket with handler := .spawning, flushArmed := true }
  | .spawn, .spawning => some { socket with handler := .idle, sleeping := socket.sleeping + 1 }
  | .receive, .idle => some { socket with handler := .checking }
  | .load, .checking =>
    some { socket with handler := if socket.unflushed = 0 then .parking else .clearing }
  | .store, .clearing => some { socket with handler := .locking, unflushed := 0 }
  | .tryLock, .locking =>
    if socket.locked then some { socket with handler := .parking, waiting := socket.waiting + 1 }
    else if socket.live then some { socket with handler := .polling true, locked := true }
    else some { socket with handler := .parking }
  | .poll flush, .polling receiving =>
    some { socket.settle flush with handler := if receiving then .parking else .idle }
  | .park, .parking => some { socket with handler := .suspended }
  | .message, .parking => some { socket with handler := .idle }
  | .message, .suspended => some { socket with handler := .idle }
  | _, _ => none

def step (action : Action) (socket : Socket) : Option Socket :=
  match action with
  | .wake =>
    if socket.sleeping = 0 then none
    else some { socket with
      sleeping := socket.sleeping - 1, awake := socket.awake + 1, flushArmed := false }
  | .swap =>
    if socket.awake = 0 then none
    else if socket.unflushed = 0 then some { socket with awake := socket.awake - 1 }
    else some { socket with
      awake := socket.awake - 1, unflushed := 0, waiting := socket.waiting + 1 }
  | .lock =>
    if socket.locked || socket.waiting = 0 then none
    else some { socket with
      locked := true, waiting := socket.waiting - 1, flushing := socket.flushing + 1 }
  | .flushed fine =>
    if socket.flushing = 0 then none
    else some { socket.settle (if fine then .ready else .failed) with
      flushing := socket.flushing - 1 }
  | .command =>
    if socket.select = .selecting then some { socket with select := .locking } else none
  | .feed =>
    if socket.locked || socket.select ≠ .locking then none
    else if socket.live then
      some { socket with locked := true, select := .sending, buffered := socket.buffered + 1 }
    else some { socket with select := .left }
  | .sent fine =>
    if socket.select = .sending then
      some { socket.settle (if fine then .ready else .failed) with
        select := if fine then .selecting else .left }
    else none
  | .teardown => if socket.locked then none else some { socket with live := false, select := .left }
  | action => socket.handlerStep action socket.handler

/-- The handler has committed a frame that it has not yet counted, or has cleared `unflushed`,
and goes on to flush. -/
def Handler.Flushes : Handler → Prop
  | .committed _ _ | .locking | .polling _ => True
  | _ => False

/-- A timer, or the handler that is arming one, is going to see the bytes that are counted. -/
def Socket.TimerDue (socket : Socket) : Prop :=
  socket.handler = .arming ∨ socket.handler = .spawning ∨ 0 < socket.sleeping + socket.awake

/-- Somebody is going to flush what is in the buffer. -/
def Socket.FlushPending (socket : Socket) : Prop :=
  0 < socket.unflushed ∧ socket.TimerDue ∨ socket.handler.Flushes ∨
    0 < socket.waiting + socket.flushing ∨ socket.select = .sending

structure Covered (socket : Socket) : Prop where
  armed : socket.flushArmed = true → socket.handler = .spawning ∨ 0 < socket.sleeping
  counted : 0 < socket.unflushed → socket.TimerDue
  buffered : socket.live = true → 0 < socket.buffered → 0 < socket.unflushed ∨
    socket.handler.Flushes ∨ 0 < socket.waiting + socket.flushing ∨ socket.select = .sending

variable {socket next : Socket} {action : Action}

/-- What a step of the handler, of a timer, of a flush driver or of the select task can do. -/
inductive Moved (socket : Socket) : Socket → Prop
  | send (bytes : Nat) (deferFlush : Bool) (hat : socket.handler = .idle) :
    Moved socket { socket with handler := .trying bytes deferFlush }
  | queue {bytes : Nat} {deferFlush : Bool} (hat : socket.handler = .trying bytes deferFlush) :
    Moved socket { socket with handler := .idle }
  | commit {bytes : Nat} {deferFlush : Bool} (hat : socket.handler = .trying bytes deferFlush)
    (hfree : socket.locked = false) :
    Moved socket { socket with
      handler := .committed bytes deferFlush, locked := true, buffered := socket.buffered + 1 }
  | refuse {bytes : Nat} {deferFlush : Bool} (hat : socket.handler = .trying bytes deferFlush) :
    Moved socket { socket with handler := if deferFlush then .arming else .idle, live := false }
  | leave {bytes : Nat} (hat : socket.handler = .committed bytes true) :
    Moved socket { socket with
      handler := .arming, locked := false, unflushed := socket.unflushed + (bytes + 8) }
  | flush {bytes : Nat} (hat : socket.handler = .committed bytes false) :
    Moved socket { socket with handler := .polling false, unflushed := 0 }
  | rely (hat : socket.handler = .arming) (harmed : socket.flushArmed = true) :
    Moved socket { socket with handler := .idle }
  | arm (hat : socket.handler = .arming) (hunarmed : socket.flushArmed = false) :
    Moved socket { socket with handler := .spawning, flushArmed := true }
  | spawn (hat : socket.handler = .spawning) :
    Moved socket { socket with handler := .idle, sleeping := socket.sleeping + 1 }
  | receive (hat : socket.handler = .idle) : Moved socket { socket with handler := .checking }
  | load (hat : socket.handler = .checking) :
    Moved socket { socket with handler := if socket.unflushed = 0 then .parking else .clearing }
  | store (hat : socket.handler = .clearing) :
    Moved socket { socket with handler := .locking, unflushed := 0 }
  | delegate (hat : socket.handler = .locking) (hlocked : socket.locked = true) :
    Moved socket { socket with handler := .parking, waiting := socket.waiting + 1 }
  | take (hat : socket.handler = .locking) (hfree : socket.locked = false) :
    Moved socket { socket with handler := .polling true, locked := true }
  | lose (hat : socket.handler = .locking) (hdead : socket.live = false) :
    Moved socket { socket with handler := .parking }
  | poll (flush : Flush) {receiving : Bool} (hat : socket.handler = .polling receiving) :
    Moved socket { socket.settle flush with handler := if receiving then .parking else .idle }
  | park (hat : socket.handler = .parking) : Moved socket { socket with handler := .suspended }
  | message (hat : socket.handler = .parking ∨ socket.handler = .suspended) :
    Moved socket { socket with handler := .idle }
  | wake (hsleeping : socket.sleeping ≠ 0) :
    Moved socket { socket with
      sleeping := socket.sleeping - 1, awake := socket.awake + 1, flushArmed := false }
  | rest (hawake : socket.awake ≠ 0) (hnone : socket.unflushed = 0) :
    Moved socket { socket with awake := socket.awake - 1 }
  | swap (hawake : socket.awake ≠ 0) :
    Moved socket { socket with
      awake := socket.awake - 1, unflushed := 0, waiting := socket.waiting + 1 }
  | lock (hfree : socket.locked = false) (hwaiting : socket.waiting ≠ 0) :
    Moved socket { socket with
      locked := true, waiting := socket.waiting - 1, flushing := socket.flushing + 1 }
  | flushed (fine : Bool) (hflushing : socket.flushing ≠ 0) :
    Moved socket { socket.settle (if fine then .ready else .failed) with
      flushing := socket.flushing - 1 }
  | select (stage : Select) (hidle : socket.select ≠ .sending) (hstage : stage ≠ .sending) :
    Moved socket { socket with select := stage }
  | feed (hfree : socket.locked = false) (hidle : socket.select = .locking) :
    Moved socket { socket with
      locked := true, select := .sending, buffered := socket.buffered + 1 }
  | sent (fine : Bool) (hsending : socket.select = .sending) :
    Moved socket { socket.settle (if fine then .ready else .failed) with
      select := if fine then .selecting else .left }
  | teardown (hfree : socket.locked = false) :
    Moved socket { socket with live := false, select := .left }

private theorem moved_of_handlerStep (hs : socket.handlerStep action socket.handler = some next) :
    Moved socket next := by
  generalize hat : socket.handler = handler at hs
  cases action <;> cases handler <;> try cases hs
  case send.idle bytes more => exact .send bytes _ hat
  case queue.trying => exact .queue hat
  case commit.trying fine bytes deferFlush =>
    rw [Socket.handlerStep] at hs
    split at hs
    case isTrue => cases hs
    case isFalse hfree =>
      have hlocked : socket.locked = false := by simp_all
      split at hs <;> cases hs
      case isTrue => exact .commit hat hlocked
      case isFalse => exact .refuse hat
  case account.committed bytes deferFlush =>
    cases deferFlush <;> cases hs
    case false => exact .flush hat
    case true => exact .leave hat
  case arm.arming =>
    rw [Socket.handlerStep] at hs
    split at hs <;> cases hs
    case isTrue harmed => exact .rely hat harmed
    case isFalse hunarmed => exact .arm hat (Bool.not_eq_true _ ▸ hunarmed)
  case spawn.spawning => exact .spawn hat
  case receive.idle => exact .receive hat
  case load.checking => exact .load hat
  case store.clearing => exact .store hat
  case tryLock.locking =>
    rw [Socket.handlerStep] at hs
    split at hs
    case isTrue hlocked => cases hs; exact .delegate hat hlocked
    case isFalse hfree =>
      split at hs <;> cases hs
      case isTrue => exact .take hat (Bool.not_eq_true _ ▸ hfree)
      case isFalse hdead => exact .lose hat (Bool.not_eq_true _ ▸ hdead)
  case poll.polling flush receiving => exact .poll flush hat
  case park.parking => exact .park hat
  case message.parking => exact .message (.inl hat)
  case message.suspended => exact .message (.inr hat)

theorem moved_of_step (hs : step action socket = some next) : Moved socket next := by
  cases action
  case wake =>
    rw [step] at hs
    split at hs <;> cases hs
    case isFalse hsleeping => exact .wake hsleeping
  case swap =>
    rw [step] at hs
    split at hs
    case isTrue => cases hs
    case isFalse hawake =>
      split at hs <;> cases hs
      case isTrue hnone => exact .rest hawake hnone
      case isFalse => exact .swap hawake
  case lock =>
    rw [step] at hs
    split at hs <;> cases hs
    case isFalse hwaiting => exact .lock (by simp_all) (by simp_all)
  case flushed fine =>
    rw [step] at hs
    split at hs <;> cases hs
    case isFalse hflushing => exact .flushed fine hflushing
  case command =>
    rw [step] at hs
    split at hs <;> cases hs
    case isTrue hidle => exact .select .locking (by simp [hidle]) (by simp)
  case feed =>
    rw [step] at hs
    split at hs
    case isTrue => cases hs
    case isFalse hidle =>
      have hselect : socket.select = .locking := by simp_all
      split at hs <;> cases hs
      case isTrue => exact .feed (by simp_all) hselect
      case isFalse => exact .select .left (by simp [hselect]) (by simp)
  case sent fine =>
    rw [step] at hs
    split at hs <;> cases hs
    case isTrue hsending => exact .sent fine hsending
  case teardown =>
    rw [step] at hs
    split at hs <;> cases hs
    case isFalse hfree => exact .teardown (Bool.not_eq_true _ ▸ hfree)
  all_goals exact moved_of_handlerStep hs

/-- At these places the handler neither arms a timer nor is about to flush. -/
def Handler.quiet : Handler → Bool
  | .idle | .trying _ _ | .checking | .clearing | .parking | .suspended => true
  | _ => false

theorem Handler.ne_of_quiet {handler : Handler} (hq : handler.quiet = true) :
    handler ≠ .arming ∧ handler ≠ .spawning ∧ ¬handler.Flushes := by
  cases handler <;> simp_all [Handler.quiet, Handler.Flushes]

section Clauses

variable {handler : Handler}

theorem Covered.asleep (hc : Covered socket) (hat : socket.handler = handler)
    (hne : handler ≠ .spawning) (ha : socket.flushArmed = true) : 0 < socket.sleeping :=
  (hc.armed ha).resolve_left (hat ▸ hne)

theorem Covered.timer (hc : Covered socket) (hat : socket.handler = handler)
    (hne : handler ≠ .arming ∧ handler ≠ .spawning) (hu : 0 < socket.unflushed) :
    0 < socket.sleeping + socket.awake :=
  ((hc.counted hu).resolve_left (hat ▸ hne.1)).resolve_left (hat ▸ hne.2)

theorem Covered.others (hc : Covered socket) (hat : socket.handler = handler)
    (hne : ¬handler.Flushes) (hl : socket.live = true) (hb : 0 < socket.buffered) :
    0 < socket.unflushed ∨ 0 < socket.waiting + socket.flushing ∨ socket.select = .sending :=
  (hc.buffered hl hb).imp_right fun hflushes => hflushes.resolve_left (hat ▸ hne)

/-- No clause rests on a quiet handler, so that it may go anywhere. -/
theorem Covered.moveTo (hc : Covered socket) (hat : socket.handler = handler)
    (hq : handler.quiet = true) (place : Handler) : Covered { socket with handler := place } :=
  have ⟨harming, hspawning, hflushes⟩ := Handler.ne_of_quiet hq
  { armed ha := .inr (hc.asleep hat hspawning ha)
    counted hu := .inr (.inr (hc.timer hat ⟨harming, hspawning⟩ hu))
    buffered hl hb := (hc.others hat hflushes hl hb).imp_right .inr }

end Clauses

theorem Covered.step (hc : Covered socket) (hs : step action socket = some next) :
    Covered next := by
  cases moved_of_step hs with
  | send _ _ hat | queue hat | receive hat | load hat | park hat => exact hc.moveTo hat rfl _
  | message hat => exact hat.elim (hc.moveTo · rfl _) (hc.moveTo · rfl _)
  | commit hat =>
    have hmoved := hc.moveTo hat rfl
    exact ⟨(hmoved _).armed, (hmoved _).counted, fun _ _ => .inr (.inl trivial)⟩
  | refuse hat =>
    have hmoved := hc.moveTo hat rfl
    exact ⟨(hmoved _).armed, (hmoved _).counted, fun hlive => absurd hlive Bool.false_ne_true⟩
  | leave hat =>
    exact ⟨fun ha => .inr (hc.asleep hat (by simp) ha), fun _ => .inl rfl,
      fun _ _ => .inl (Nat.lt_add_left _ (Nat.succ_pos _))⟩
  | flush hat =>
    exact ⟨fun ha => .inr (hc.asleep hat (by simp) ha), fun hu => absurd hu (Nat.lt_irrefl 0),
      fun _ _ => .inr (.inl trivial)⟩
  | rely hat harmed =>
    -- The timer that is armed sees the bytes as well.
    have hasleep := hc.asleep hat (by simp)
    exact ⟨fun ha => .inr (hasleep ha),
      fun _ => .inr (.inr (Nat.lt_add_right _ (hasleep harmed))),
      fun hl hb => (hc.others hat id hl hb).imp_right .inr⟩
  | arm hat =>
    exact ⟨fun _ => .inl rfl, fun _ => .inr (.inl rfl),
      fun hl hb => (hc.others hat id hl hb).imp_right .inr⟩
  | spawn hat =>
    exact ⟨fun _ => .inr (Nat.succ_pos _),
      fun _ => .inr (.inr (Nat.lt_add_right _ (Nat.succ_pos _))),
      fun hl hb => (hc.others hat id hl hb).imp_right .inr⟩
  | store hat =>
    exact ⟨(hc.moveTo hat rfl _).armed, fun hu => absurd hu (Nat.lt_irrefl 0),
      fun _ _ => .inr (.inl trivial)⟩
  | delegate hat =>
    exact ⟨fun ha => .inr (hc.asleep hat (by simp) ha),
      fun hu => .inr (.inr (hc.timer hat (by simp) hu)),
      fun _ _ => .inr (.inr (.inl (Nat.lt_add_right _ (Nat.succ_pos _))))⟩
  | take hat =>
    exact ⟨fun ha => .inr (hc.asleep hat (by simp) ha),
      fun hu => .inr (.inr (hc.timer hat (by simp) hu)), fun _ _ => .inr (.inl trivial)⟩
  | lose hat hdead =>
    exact ⟨fun ha => .inr (hc.asleep hat (by simp) ha),
      fun hu => .inr (.inr (hc.timer hat (by simp) hu)), fun hlive => by simp_all⟩
  | poll flush hat =>
    have hasleep := hc.asleep hat (by simp)
    have htimer := hc.timer hat (by simp)
    cases flush with
    | ready =>
      exact ⟨fun ha => .inr (hasleep ha), fun hu => .inr (.inr (htimer hu)),
        fun _ hb => absurd hb (Nat.lt_irrefl 0)⟩
    | failed =>
      exact ⟨fun ha => .inr (hasleep ha), fun hu => .inr (.inr (htimer hu)),
        fun hlive => absurd hlive Bool.false_ne_true⟩
    | pending =>
      exact ⟨fun ha => .inr (hasleep ha), fun hu => .inr (.inr (htimer hu)),
        fun _ _ => .inr (.inr (.inl (Nat.lt_add_right _ (Nat.succ_pos _))))⟩
  | wake =>
    exact ⟨fun ha => absurd ha Bool.false_ne_true,
      fun _ => .inr (.inr (Nat.lt_add_left _ (Nat.succ_pos _))), hc.buffered⟩
  | rest _ hnone =>
    exact ⟨hc.armed, fun hu => absurd hu (by simp [hnone]), hc.buffered⟩
  | swap =>
    exact ⟨hc.armed, fun hu => absurd hu (Nat.lt_irrefl 0),
      fun _ _ => .inr (.inr (.inl (Nat.lt_add_right _ (Nat.succ_pos _))))⟩
  | lock _ hwaiting =>
    refine ⟨hc.armed, hc.counted, fun hl hb => ?_⟩
    exact (hc.buffered hl hb).imp_right fun hrest => hrest.imp_right fun hrest =>
      hrest.imp_left fun hflushers => by simp only; omega
  | flushed fine =>
    cases fine with
    | false => exact ⟨hc.armed, hc.counted, fun hlive => absurd hlive Bool.false_ne_true⟩
    | true => exact ⟨hc.armed, hc.counted, fun _ hb => absurd hb (Nat.lt_irrefl 0)⟩
  | select stage hidle =>
    refine ⟨hc.armed, hc.counted, fun hl hb => ?_⟩
    exact (hc.buffered hl hb).imp_right fun hrest => hrest.imp_right fun hrest =>
      .inl (hrest.resolve_right hidle)
  | feed => exact ⟨hc.armed, hc.counted, fun _ _ => .inr (.inr (.inr rfl))⟩
  | sent fine =>
    cases fine with
    | false => exact ⟨hc.armed, hc.counted, fun hlive => absurd hlive Bool.false_ne_true⟩
    | true => exact ⟨hc.armed, hc.counted, fun _ hb => absurd hb (Nat.lt_irrefl 0)⟩
  | teardown => exact ⟨hc.armed, hc.counted, fun hlive => absurd hlive Bool.false_ne_true⟩

theorem Covered.flushPending (hc : Covered socket) (hl : socket.live = true)
    (hb : 0 < socket.buffered) : socket.FlushPending :=
  (hc.buffered hl hb).imp_left fun hcovered =>
    ⟨hcovered, hc.counted hcovered⟩

/-- Whatever the interleaving, the frames in the buffer of a sink that works have somebody who
is going to flush them, and while the handler is suspended in a receive that is a timer, a
flush driver or the select task. -/
theorem frames_never_left (actions : List Action) (socket : Socket)
    (hrun : runActions step actions {} = some socket) (hlive : socket.live = true)
    (hbuffered : 0 < socket.buffered) :
    socket.FlushPending ∧ (socket.handler = .suspended →
      0 < socket.unflushed ∧ 0 < socket.sleeping + socket.awake ∨
        0 < socket.waiting + socket.flushing ∨ socket.select = .sending) := by
  have hinitial : Covered {} := ⟨nofun, fun hl => absurd hl (Nat.lt_irrefl 0),
    fun _ hl => absurd hl (Nat.lt_irrefl 0)⟩
  have hc : Covered socket := (reaches_of_runActions hrun).keeps
    (fun _ _ _ hs hb => hb.step hs) hinitial
  have hp := hc.flushPending hlive hbuffered
  refine ⟨hp, fun hsuspended => ?_⟩
  simpa [Socket.FlushPending, Socket.TimerDue, hsuspended, Handler.Flushes] using hp

def deferredReply : List Action :=
  [.send 5 true, .commit true, .account, .arm, .spawn, .command, .feed, .receive, .load, .store,
    .tryLock, .park]

theorem deferred_reply_covered :
    ∃ socket, runActions step deferredReply {} = some socket ∧ socket.handler = .suspended ∧
      socket.FlushPending :=
  ⟨_, rfl, rfl, (frames_never_left deferredReply _ rfl rfl (by decide)).1⟩

@[grind]
def Handler.holdsSink : Handler → Nat
  | .committed _ _ | .polling _ => 1
  | _ => 0

/-- The parties between `lock` and the drop of the guard. -/
@[grind]
def Socket.holders (socket : Socket) : Nat :=
  socket.handler.holdsSink + socket.flushing + if socket.select = .sending then 1 else 0

/-- The timers that have not yet cleared `flush_armed`. -/
@[grind]
def Socket.timers (socket : Socket) : Nat :=
  socket.sleeping + if socket.handler = .spawning then 1 else 0

structure Exclusive (socket : Socket) : Prop where
  sink : socket.holders = if socket.locked then 1 else 0
  timer : socket.timers = if socket.flushArmed then 1 else 0

/-- A move between two places of the handler that hold the same, and neither of which spawns. -/
theorem Exclusive.moveTo (he : Exclusive socket) {handler : Handler}
    (hat : socket.handler = handler) (place : Handler)
    (hsink : place.holdsSink = handler.holdsSink)
    (htimer : handler ≠ .spawning ∧ place ≠ .spawning) :
    Exclusive { socket with handler := place } where
  sink := by simpa [Socket.holders, hat, hsink] using he.sink
  timer := by simpa [Socket.timers, hat, htimer] using he.timer

theorem Exclusive.step (he : Exclusive socket) (hs : step action socket = some next) :
    Exclusive next := by
  obtain ⟨hsink, htimer⟩ := id he
  cases moved_of_step hs with
  | send _ _ hat | queue hat | rely hat | receive hat | lose hat | park hat =>
    exact he.moveTo hat _ rfl (by simp)
  | message hat => exact hat.elim (he.moveTo · _ rfl (by simp)) (he.moveTo · _ rfl (by simp))
  | load hat => exact he.moveTo hat _ (by split <;> rfl) (by split <;> simp)
  | @refuse bytes deferFlush hat =>
    have hmoved := he.moveTo hat (if deferFlush then .arming else .idle) (by split <;> rfl)
      (by split <;> simp)
    exact ⟨hmoved.sink, hmoved.timer⟩
  | store hat =>
    have hmoved := he.moveTo hat .locking rfl (by simp)
    exact ⟨hmoved.sink, hmoved.timer⟩
  | delegate hat =>
    have hmoved := he.moveTo hat .parking rfl (by simp)
    exact ⟨hmoved.sink, hmoved.timer⟩
  | flush hat =>
    have hmoved := he.moveTo hat (.polling false) rfl (by simp)
    exact ⟨hmoved.sink, hmoved.timer⟩
  -- Who takes the lock finds nobody at it, and who drops it was alone.
  | commit | leave | take | lock | feed | select | teardown => constructor <;> grind
  | poll flush => cases flush <;> constructor <;> grind [Socket.settle]
  | flushed fine => cases fine <;> constructor <;> grind [Socket.settle]
  | sent fine => cases fine <;> constructor <;> grind [Socket.settle]
  -- `flush_armed` is set by the handler that spawns and cleared by the timer that wakes.
  | arm | spawn | wake => constructor <;> grind
  | rest => exact ⟨hsink, htimer⟩
  | swap => exact ⟨hsink, htimer⟩

/-- Whatever the interleaving, the sink is locked by one party at most, and no second timer is
armed while one sleeps. -/
theorem sink_held_by_one (actions : List Action) (socket : Socket)
    (hrun : runActions step actions {} = some socket) : Exclusive socket :=
  (reaches_of_runActions hrun).keeps (fun _ _ _ hs hb => hb.step hs) ⟨rfl, rfl⟩

theorem deferred_reply_exclusive :
    ∃ socket, runActions step deferredReply {} = some socket ∧ socket.locked = true ∧
      Exclusive socket :=
  ⟨_, rfl, rfl, sink_held_by_one deferredReply _ rfl⟩

end FastapiTurbo.WebSocketCoalesce
