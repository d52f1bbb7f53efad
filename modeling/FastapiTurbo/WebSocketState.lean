import FastapiTurbo.Lib.Transition

/-! The state cell of a WebSocket connection (`websocket.rs`).  It is stored to without a
look at it by `accept`, `reject`, `close`, `close_and_wait` and the receives of the handler,
and by the select task when a Close frame was read or written. -/
namespace FastapiTurbo.WebSocketState

open Lib

inductive WsState where
  | connecting
  | connected
  | disconnected
  deriving DecidableEq

inductive Handler where
  | idle
  /-- `accept` took the oneshot; `tx.send(Accept)` is next. -/
  | sending
  /-- `accept` is in `ready_rx.recv()`. -/
  | awaiting
  /-- `state.store(CONNECTED)` is next. -/
  | storing
  /-- `reject` took the oneshot; `tx.send(Reject)` is next. -/
  | rejecting
  /-- `state.store(DISCONNECTED)` is next, at the end of the call. -/
  | disconnecting
  /-- The store of `close_and_wait`, before it queues the Close. -/
  | closingFirst
  /-- `queue_seq` of `close_and_wait` is next. -/
  | queueing
  deriving DecidableEq

inductive Handshake where
  | waiting
  | accepted
  | upgraded
  | over
  deriving DecidableEq

inductive SelectTask where
  | selecting
  /-- A Close frame was read, or one was written; the store is next. -/
  | disconnecting
  | ended
  deriving DecidableEq

structure Connection where
  loopMode : Bool
  state : WsState
  acceptTx : Bool
  handshake : Handshake
  task : SelectTask
  handler : Handler
  queuedCloses : Nat
  /-- There is a Close frame to be received, or the inbound channel is closed. -/
  inboundOver : Bool
  deriving DecidableEq

def Connection.initial (loopMode : Bool) : Connection where
  loopMode := loopMode
  state := .connecting
  acceptTx := true
  handshake := .waiting
  task := .ended
  handler := .idle
  queuedCloses := 0
  inboundOver := false

inductive Action where
  | accept
  | reject
  | close
  | closeAndWait
  /-- A receive gets the Close frame or the error of a closed channel. -/
  | receiveEnd
  | handler
  /-- `on_upgrade` publishes the sink, signals ready and spawns the select task. -/
  | upgrade
  /-- The route handler ends without an upgrade, and the channels are dropped. -/
  | abandon
  /-- The select task reads the peer's Close frame. -/
  | peerClose
  | writeClose
  | task
  | stop
  deriving DecidableEq

namespace Connection

def handlerStep (conn : Connection) : Option Connection :=
  match conn.handler with
  | .idle => none
  | .sending => some { conn with
      handshake := if conn.handshake = .waiting then .accepted else conn.handshake
      handler := if conn.loopMode then .storing else .awaiting }
  | .awaiting =>
    match conn.handshake with
    | .upgraded | .over => some { conn with handler := .storing }
    | _ => none
  | .storing => some { conn with state := .connected, handler := .idle }
  | .rejecting => some { conn with
      handshake := if conn.handshake = .waiting then .over else conn.handshake
      handler := .disconnecting }
  | .disconnecting => some { conn with state := .disconnected, handler := .idle }
  | .closingFirst => some { conn with state := .disconnected, handler := .queueing }
  | .queueing => some { conn with queuedCloses := conn.queuedCloses + 1, handler := .idle }

def start (conn : Connection) : Action → Option Connection
  | .accept =>
    if conn.acceptTx then some { conn with acceptTx := false, handler := .sending }
    else some { conn with handler := .storing }
  | .reject =>
    if conn.acceptTx then some { conn with acceptTx := false, handler := .rejecting }
    else some { conn with handler := .disconnecting }
  | .close =>
    some { conn with queuedCloses := conn.queuedCloses + 1, handler := .disconnecting }
  | .closeAndWait => some { conn with handler := .closingFirst }
  | .receiveEnd => if conn.inboundOver then some { conn with handler := .disconnecting } else none
  | _ => none

end Connection

def step (action : Action) (conn : Connection) : Option Connection :=
  match action with
  | .accept | .reject | .close | .closeAndWait | .receiveEnd =>
    match conn.handler with
    | .idle => conn.start action
    | _ => none
  | .handler => conn.handlerStep
  | .upgrade =>
    match conn.handshake with
    | .accepted => some { conn with handshake := .upgraded, task := .selecting }
    | _ => none
  | .abandon =>
    match conn.handshake with
    | .waiting | .accepted | .over => some { conn with handshake := .over, inboundOver := true }
    | _ => none
  | .peerClose =>
    match conn.task with
    | .selecting => some { conn with task := .disconnecting, inboundOver := true }
    | _ => none
  | .writeClose =>
    match conn.task, conn.queuedCloses with
    | .selecting, queued + 1 => some { conn with task := .disconnecting, queuedCloses := queued }
    | _, _ => none
  | .task =>
    match conn.task with
    | .disconnecting =>
      some { conn with state := .disconnected, task := .ended, inboundOver := true }
    | _ => none
  | .stop =>
    match conn.task with
    | .selecting => some { conn with task := .ended, inboundOver := true }
    | _ => none

def Handler.inAccept : Handler → Bool
  | .sending | .awaiting | .storing => true
  | _ => false

inductive Stepped (conn : Connection) : Action → Connection → Prop
  | accept {next} (hnext : next.state = conn.state) (hin : next.handler.inAccept = true) :
      Stepped conn .accept next
  | goOn {action next} (hnext : next.state = conn.state)
      (hin : next.handler.inAccept = conn.handler.inAccept) : Stepped conn action next
  | connect {action next} (hhandler : conn.handler.inAccept = true)
      (hnext : next.state = .connected) (hin : next.handler.inAccept = false) :
      Stepped conn action next
  | disconnect {next} (hhandler : conn.handler.inAccept = false)
      (hnext : next.state = .disconnected) (hin : next.handler.inAccept = false) :
      Stepped conn .handler next
  | taskDisconnects {next} (hnext : next.state = .disconnected)
      (hin : next.handler = conn.handler) : Stepped conn .task next

variable {conn next : Connection}

theorem stepped_of_handlerStep (hs : conn.handlerStep = some next) :
    Stepped conn .handler next := by
  unfold Connection.handlerStep at hs
  split at hs
  case h_1 => cases hs
  case h_2 hh =>
    cases hs
    refine .goOn rfl ?_
    rw [hh]
    dsimp only
    split <;> rfl
  case h_3 hh =>
    split at hs <;> cases hs
    all_goals exact .goOn rfl (by rw [hh]; rfl)
  case h_4 hh =>
    cases hs
    exact .connect (by rw [hh]; rfl) rfl rfl
  case h_6 hh =>
    cases hs
    exact .disconnect (by rw [hh]; rfl) rfl rfl
  case h_7 hh =>
    cases hs
    exact .disconnect (by rw [hh]; rfl) rfl rfl
  all_goals
    cases hs
    exact .goOn rfl (by simp [*, Handler.inAccept])

variable {action : Action}

theorem stepped_of_start (hidle : conn.handler = .idle) (hs : conn.start action = some next) :
    Stepped conn action next := by
  cases action with
  | accept =>
    simp only [Connection.start] at hs
    split at hs <;> cases hs <;> exact .accept rfl rfl
  | reject | close | closeAndWait | receiveEnd =>
    simp only [Connection.start] at hs
    repeat' split at hs
    all_goals cases hs
    all_goals exact .goOn rfl (by rw [hidle]; rfl)
  | _ => cases hs

theorem stepped_of_step (hs : step action conn = some next) : Stepped conn action next := by
  cases action with
  | accept | reject | close | closeAndWait | receiveEnd =>
    simp only [step] at hs
    split at hs
    · next hidle => exact stepped_of_start hidle hs
    · cases hs
  | handler => exact stepped_of_handlerStep hs
  | task =>
    simp only [step] at hs
    split at hs <;> cases hs
    exact .taskDisconnects rfl rfl
  | upgrade | abandon | peerClose | writeClose | stop =>
    simp only [step] at hs
    split at hs <;> cases hs
    all_goals exact .goOn rfl rfl

/-- From wherever the cell is `DISCONNECTED` in the run, it stays so. -/
def StaysDisconnected (actions : List Action) (conn : Connection) : Prop :=
  ∀ front middle back between after, actions = front ++ (middle ++ back) →
    runActions step front conn = some between → between.state = .disconnected →
    runActions step middle between = some after → after.state = .disconnected

/-- No `accept` is begun on a connection that is `DISCONNECTED`, and the select task does
not store while one is under way. -/
def Unraced (conn : Connection) : Action → Prop
  | .accept => conn.state ≠ .disconnected
  | .task => conn.handler.inAccept = false
  | _ => True

instance (conn : Connection) : (action : Action) → Decidable (Unraced conn action)
  | .accept => inferInstanceAs (Decidable (conn.state ≠ .disconnected))
  | .task => inferInstanceAs (Decidable (conn.handler.inAccept = false))
  | .reject | .close | .closeAndWait | .receiveEnd | .handler | .upgrade | .abandon
  | .peerClose | .writeClose | .stop => .isTrue trivial

def Fresh (conn : Connection) : Prop :=
  conn.handler.inAccept = true → conn.state ≠ .disconnected

theorem Fresh.step (hf : Fresh conn) (hu : Unraced conn action) (hs : Stepped conn action next) :
    Fresh next ∧ (conn.state = .disconnected → next.state = .disconnected) := by
  unfold Fresh at hf ⊢
  cases hs with
  | accept hn hinner => exact ⟨fun _ => by rw [hn]; exact hu, hn.trans⟩
  | goOn hn hinner => exact ⟨by rw [hinner, hn]; exact hf, hn.trans⟩
  | connect hh hn hinner =>
    exact ⟨by simp [hinner], fun hstate => absurd hstate (hf hh)⟩
  | disconnect hh hn hinner => exact ⟨by simp [hinner], fun _ => hn⟩
  | taskDisconnects hn hinner =>
    have ho : conn.handler.inAccept = false := hu
    exact ⟨by simp [hinner, ho], fun _ => hn⟩

variable {actions : List Action}

theorem staysDisconnected_of_meets (hfresh : Fresh conn)
    (hmeets : Meets step Unraced actions conn) :
    StaysDisconnected actions conn := by
  rintro front middle back between after rfl hf hstate hm
  obtain ⟨hmeetsFront, hmeetsRest⟩ := hmeets.of_append hf
  obtain ⟨hmeetsMiddle, -⟩ := hmeetsRest.of_append hm
  have hb : Fresh between := hmeetsFront.keeps hf
    (fun _ _ _ hu hs hh => (hh.step hu (stepped_of_step hs)).1) hfresh
  have hk : ∀ action (connection next : Connection), Unraced connection action →
      step action connection = some next → Fresh connection ∧ connection.state = .disconnected →
        Fresh next ∧ next.state = .disconnected := by
    intro action connection next hu hs hh
    obtain ⟨hn, hkept⟩ := hh.1.step hu (stepped_of_step hs)
    exact ⟨hn, hkept hh.2⟩
  exact (hmeetsMiddle.keeps hm hk ⟨hb, hstate⟩).2

/-- An `accept` that is under way ends with its store, whatever the cell was. -/
theorem exists_connected_of_inAccept {last : Connection} (hinner : conn.handler.inAccept = true)
    (hrun : runActions step actions conn = some last) (hl : last.handler.inAccept = false) :
    ∃ front back after, actions = front ++ back ∧ runActions step front conn = some after ∧
      after.state = .connected := by
  induction actions generalizing conn with
  | nil =>
    cases hrun
    rw [hinner] at hl
    cases hl
  | cons action rest ih =>
    obtain ⟨next, hn, hr⟩ := Option.bind_eq_some_iff.1 hrun
    have hgo : next.handler.inAccept = true → ∃ front back after, action :: rest = front ++ back ∧
        runActions step front conn = some after ∧ after.state = .connected := by
      intro hnextIn
      obtain ⟨front, back, after, rfl, hf, ha⟩ := ih hnextIn hr
      exact ⟨action :: front, back, after, rfl, by rw [runActions, hn]; exact hf, ha⟩
    cases stepped_of_step hn with
    | accept hs hnextIn => exact hgo hnextIn
    | goOn hs hnextIn => exact hgo (hnextIn.trans hinner)
    | connect hh hs hnextIn =>
      exact ⟨[action], rest, next, rfl, by rw [runActions, hn]; rfl, hs⟩
    | disconnect hh hs hnextIn =>
      rw [hinner] at hh
      cases hh
    | taskDisconnects hs hnextIn => exact hgo (by rw [hnextIn, hinner])

/-- An `accept` that is raced leaves the cell `DISCONNECTED` with its store to come. -/
theorem raced_of_not_unraced (hr : ¬Unraced conn action) (hs : step action conn = some next) :
    next.state = .disconnected ∧ next.handler.inAccept = true := by
  cases action with
  | accept =>
    have hstate : conn.state = .disconnected := Decidable.not_not.1 hr
    simp only [step, Connection.start] at hs
    repeat' split at hs
    all_goals cases hs
    all_goals exact ⟨hstate, rfl⟩
  | task =>
    have hinner : conn.handler.inAccept = true := Bool.not_eq_false _ ▸ hr
    simp only [step] at hs
    split at hs <;> cases hs
    exact ⟨rfl, hinner⟩
  | _ => exact absurd trivial hr

private theorem meets_of_staysDisconnected {last : Connection} (hs : StaysDisconnected actions conn)
    (hrun : runActions step actions conn = some last) (hl : last.handler.inAccept = false) :
    Meets step Unraced actions conn := by
  induction actions generalizing conn with
  | nil => trivial
  | cons action rest ih =>
    obtain ⟨next, hn, hr⟩ := Option.bind_eq_some_iff.1 hrun
    have hfirst : runActions step [action] conn = some next := by
      rw [runActions, hn]
      rfl
    constructor
    · apply Decidable.of_not_not
      intro hraced
      obtain ⟨hstate, hinner⟩ := raced_of_not_unraced hraced hn
      obtain ⟨front, back, after, rfl, hf, ha⟩ := exists_connected_of_inAccept hinner hr hl
      have hstill := hs [action] front back next after rfl hfirst hstate hf
      rw [ha] at hstill
      cases hstill
    · intro other ho
      rw [hn] at ho
      cases ho
      refine ih ?_ hr
      rintro front middle back between after rfl hf
      refine hs (action :: front) middle back between after rfl ?_
      rw [runActions, hn]
      exact hf

/-- If no `accept` is raced, a connection that was once `DISCONNECTED` stays so, and in a run
that leaves no `accept` under way it stays so only then. -/
theorem stays_disconnected_iff (loopMode : Bool) (actions : List Action) :
    (Meets step Unraced actions (.initial loopMode) →
        StaysDisconnected actions (.initial loopMode)) ∧
      ∀ last, runActions step actions (.initial loopMode) = some last →
        last.handler.inAccept = false →
        (StaysDisconnected actions (.initial loopMode) ↔
          Meets step Unraced actions (.initial loopMode)) := by
  have hstays : Meets step Unraced actions (.initial loopMode) →
      StaysDisconnected actions (.initial loopMode) := staysDisconnected_of_meets nofun
  exact ⟨hstays, fun last hrun hlast =>
    ⟨fun hs => meets_of_staysDisconnected hs hrun hlast, hstays⟩⟩

def closedDuringAccept : List Action :=
  [.accept, .handler, .upgrade, .peerClose, .task, .handler, .handler]

theorem accept_revives_closed_connection :
    (runActions step (closedDuringAccept.take 5) (.initial false)).map Connection.state =
        some .disconnected ∧
      (runActions step closedDuringAccept (.initial false)).map Connection.state =
        some .connected := by
  decide

def closedAfterAccept : List Action :=
  [.accept, .handler, .upgrade, .handler, .handler, .peerClose, .task, .receiveEnd, .handler]

theorem closed_after_accept_stays_disconnected :
    StaysDisconnected closedAfterAccept (.initial false) := by
  have hrun : (runActions step closedAfterAccept (.initial false)).isSome = true := by decide
  obtain ⟨last, hl⟩ := Option.isSome_iff_exists.1 hrun
  have hinner : last.handler.inAccept = false := by
    have hh : (runActions step closedAfterAccept (.initial false)).map Connection.handler =
        some .idle := by decide
    rw [hl] at hh
    rw [Option.some.inj hh]
    rfl
  refine ((stays_disconnected_iff false closedAfterAccept).2 last hl hinner).2 ?_
  simp [Meets, closedAfterAccept, Unraced, step, Connection.initial, Connection.start,
    Connection.handlerStep, Handler.inAccept]

end FastapiTurbo.WebSocketState
