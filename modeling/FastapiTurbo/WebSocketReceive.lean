import FastapiTurbo.WebSocketInbound

/-! What the handler of a WebSocket gets to see of its inbound frames: the calls that
have ended are those of a session that reads one stream from its start, and a handler
that is suspended while there is something to read is about to be woken. -/
namespace FastapiTurbo.WebSocketReceive

open Lib WebSocketInbound List Option

/-- The Python object over the frames that are still to be read. -/
structure Session where
  appState : AppState
  stream : List WsMessage
  deriving DecidableEq

namespace Session

def receive (session : Session) (kind : RecvKind) : Source × Session :=
  match session.appState, session.stream with
  | .disconnected, _ => (.alreadyDisconnected, session)
  | .connected, [] => (.channelClosed, ⟨AppState.connected.afterReceive kind .channelClosed, []⟩)
  | .connected, message :: rest =>
    (.served message, ⟨AppState.connected.afterReceive kind (.served message), rest⟩)

def after : Call → Session → Option Session
  | .close, session => some { session with appState := .disconnected }
  | .receive kind source, session =>
    if (session.receive kind).1 = source then some (session.receive kind).2 else none

end Session

def Call.frame : Call → Option WsMessage
  | .receive _ source => source.frame
  | .close => none

def Call.ended : Call → Bool
  | .receive _ .channelClosed => true
  | _ => false

variable {call : Call} {session : Session}

private theorem after_append {next : Session} (more : List WsMessage) (he : Call.ended call = false)
    (ha : session.after call = some next) :
    Session.after call ⟨session.appState, session.stream ++ more⟩ =
      some ⟨next.appState, next.stream ++ more⟩ := by
  obtain ⟨appState, stream⟩ := session
  cases call with
  | close =>
    cases ha
    rfl
  | receive kind source =>
    simp only [Session.after, ite_none_right_eq_some, Option.some.injEq] at ha
    obtain ⟨rfl, rfl⟩ := ha
    cases appState with
    | disconnected => rfl
    | connected =>
      cases stream with
      | nil => cases he
      | cons message rest => simp [Session.after, Session.receive]

variable {calls : List Call}

theorem runActions_after_append {next : Session} (more : List WsMessage)
    (he : ∀ call ∈ calls, Call.ended call = false)
    (hrun : runActions Session.after calls session = some next) :
    runActions Session.after calls ⟨session.appState, session.stream ++ more⟩ =
      some ⟨next.appState, next.stream ++ more⟩ := by
  induction calls generalizing session with
  | nil =>
    cases hrun
    rfl
  | cons call rest ih =>
    obtain ⟨middle, hm, hr⟩ := bind_eq_some_iff.1 hrun
    have hf := after_append more (he call mem_cons_self) hm
    rw [runActions, hf]
    exact ih (fun other ho => he other (mem_cons_of_mem call ho)) hr

theorem stream_of_after {next : Session} (ha : session.after call = some next) :
    session.stream = (Call.frame call).toList ++ next.stream := by
  obtain ⟨appState, stream⟩ := session
  cases call with
  | close =>
    cases ha
    rfl
  | receive kind source =>
    simp only [Session.after, ite_none_right_eq_some, Option.some.injEq] at ha
    obtain ⟨rfl, rfl⟩ := ha
    cases appState with
    | disconnected => rfl
    | connected =>
      cases stream with
      | nil => rfl
      | cons message rest => rfl

theorem stream_of_runActions {next : Session}
    (hrun : runActions Session.after calls session = some next) :
    session.stream = calls.filterMap Call.frame ++ next.stream := by
  induction calls generalizing session with
  | nil =>
    cases hrun
    rfl
  | cons call rest ih =>
    obtain ⟨middle, hm, hr⟩ := bind_eq_some_iff.1 hrun
    rw [stream_of_after hm, ih hr, filterMap_cons]
    cases Call.frame call with
    | none => rfl
    | some message => rfl

def inHand : Handler → List WsMessage
  | .draining _ first _ => [first]
  | .disarming _ (.served message) => [message]
  | _ => []

def pending (conn : Connection) : List WsMessage :=
  inHand conn.handler ++ conn.buf ++ conn.channel

/-- Between its look at the buffer and the drain, the handler has found it empty. -/
def SeenEmpty : Handler → Prop
  | .blocking _ | .pulling _ | .creating _ | .storing _ _ | .arming _ _ | .checking _ _
  | .suspended _ _ | .disarming _ .channelClosed => True
  | _ => False

def Holds : Reader → Prop
  | .reading | .teardown => True
  | .firing next | .taking next | .resolving _ next => next ≠ .gone
  | .gone => False

structure Orderly (conn : Connection) : Prop where
  replays : runActions Session.after conn.calls ⟨.connected, conn.pushed⟩ =
    some ⟨conn.appState, pending conn⟩
  ended : ∀ call ∈ conn.calls, Call.ended call = true → conn.closed = true ∧ pending conn = []
  seenEmpty : SeenEmpty conn.handler → conn.buf = []
  open_ : Holds conn.reader → conn.closed = false
  inCall : conn.handler ≠ .running → conn.appState = .connected
  disarming : ∀ kind source, conn.handler = .disarming kind source →
    source = .channelClosed ∧ conn.closed = true ∧ conn.channel = [] ∨
      ∃ message, source = .served message

theorem orderly_initial (loopMode : Bool) : Orderly (.initial loopMode) where
  replays := rfl
  ended := by simp [Connection.initial]
  seenEmpty := fun _ => rfl
  open_ := fun _ => rfl
  inCall := fun hh => absurd rfl hh
  disarming := by simp [Connection.initial]

theorem pending_finish (conn : Connection) (kind : RecvKind) (source : Source) :
    pending (conn.finish kind source) = conn.buf ++ conn.channel := rfl

variable {conn next : Connection}

theorem Orderly.finished (ho : Orderly conn) (hc : next.calls = conn.calls ++ [call])
    (hp : next.pushed = conn.pushed) (ha : Session.after call ⟨conn.appState, pending conn⟩ =
      some ⟨next.appState, pending next⟩) :
    runActions Session.after next.calls ⟨.connected, next.pushed⟩ =
      some ⟨next.appState, pending next⟩ := by
  rw [hc, hp, runActions_append, ho.replays, bind_some, runActions, ha]
  rfl

theorem mem_concat_ended {last : Call} {hh : Prop}
    (hc : ∀ call ∈ calls, Call.ended call = true → hh) (hl : Call.ended last = true → hh) :
    ∀ call ∈ calls ++ [last], Call.ended call = true → hh := by
  intro call hmem
  rcases mem_append.1 hmem with hold | hnew
  · exact hc call hold
  · exact mem_singleton.1 hnew ▸ hl

theorem holds_of_resume {next : Resume} (hh : Holds next.reader) : next ≠ .gone := by
  rintro rfl
  exact hh

theorem Orderly.served (ho : Orderly conn) {kind : RecvKind} {message : WsMessage}
    (hh : conn.handler ≠ .running) (hp : pending conn = message :: pending next)
    (hn : next.handler = .running)
    (hc : next.calls = conn.calls ++ [.receive kind (.served message)])
    (hpushed : next.pushed = conn.pushed)
    (happ : next.appState = conn.appState.afterReceive kind (.served message))
    (hr : next.reader = conn.reader) (hclosed : next.closed = conn.closed) :
    Orderly next where
  replays := by
    refine ho.finished hc hpushed ?_
    rw [happ, ho.inCall hh, hp]
    simp [Session.after, Session.receive]
  ended := by
    rw [hc]
    refine mem_concat_ended ?_ (nomatch ·)
    intro call hmem hended
    have he := (ho.ended call hmem hended).2
    rw [hp] at he
    cases he
  seenEmpty := by
    rw [hn]
    exact False.elim
  open_ := by
    rw [hr, hclosed]
    exact ho.open_
  inCall := fun hrunning => absurd hn hrunning
  disarming := by simp [hn]

theorem Orderly.channelClosed (ho : Orderly conn) {kind : RecvKind} (hh : conn.handler ≠ .running)
    (hc : conn.closed = true) (hp : pending conn = []) (hnextPending : pending next = [])
    (hn : next.handler = .running)
    (hcalls : next.calls = conn.calls ++ [.receive kind .channelClosed])
    (hpushed : next.pushed = conn.pushed)
    (happ : next.appState = conn.appState.afterReceive kind .channelClosed)
    (hr : next.reader = conn.reader) (hnextClosed : next.closed = conn.closed) :
    Orderly next where
  replays := by
    refine ho.finished hcalls hpushed ?_
    rw [happ, ho.inCall hh, hp, hnextPending]
    simp [Session.after, Session.receive]
  ended := fun _ _ _ => ⟨hnextClosed.trans hc, hnextPending⟩
  seenEmpty := by
    rw [hn]
    exact False.elim
  open_ := by
    rw [hr, hnextClosed]
    exact ho.open_
  inCall := fun hrunning => absurd hn hrunning
  disarming := by simp [hn]

theorem Orderly.moved (ho : Orderly conn) (hc : next.calls = conn.calls)
    (hpushed : next.pushed = conn.pushed) (happ : next.appState = conn.appState)
    (hp : pending next = pending conn) (hclosed : conn.closed = true → next.closed = true)
    (hs : SeenEmpty next.handler → next.buf = []) (hopen : Holds next.reader → next.closed = false)
    (hcall : next.handler ≠ .running → conn.handler ≠ .running ∨ conn.appState = .connected)
    (hd : ∀ kind source, next.handler = .disarming kind source →
      source = .channelClosed ∧ next.closed = true ∧ next.channel = [] ∨
        ∃ message, source = .served message) : Orderly next where
  replays := by
    rw [hc, hpushed, happ, hp]
    exact ho.replays
  ended := by
    rw [hc, hp]
    intro call hmem he
    obtain ⟨hconn, hempty⟩ := ho.ended call hmem he
    exact ⟨hclosed hconn, hempty⟩
  seenEmpty := hs
  open_ := hopen
  inCall := by
    intro hh
    rw [happ]
    exact (hcall hh).elim ho.inCall id
  disarming := hd

theorem Orderly.not_ended (ho : Orderly conn) (hh : Holds conn.reader) :
    ∀ call ∈ conn.calls, Call.ended call = false := by
  intro call hmem
  cases he : Call.ended call with
  | false => rfl
  | true =>
    have hc := (ho.ended call hmem he).1
    rw [ho.open_ hh] at hc
    cases hc

theorem Orderly.pushed (ho : Orderly conn) (message : WsMessage) (hr : conn.reader = .reading) :
    Orderly { conn with
      channel := conn.channel ++ [message]
      pushed := conn.pushed ++ [message]
      reader := .firing (if message.isClose then .teardown else .reading) } where
  replays := by
    have he := ho.not_ended (by rw [hr]; trivial)
    have hrun := runActions_after_append [message] he ho.replays
    simpa [pending] using hrun
  ended := by
    intro call hmem he
    rw [ho.not_ended (by rw [hr]; trivial) call hmem] at he
    cases he
  seenEmpty := ho.seenEmpty
  open_ := fun _ => ho.open_ (by rw [hr]; trivial)
  inCall := ho.inCall
  disarming := by
    intro kind source hh
    rcases ho.disarming kind source hh with ⟨-, hc, -⟩ | hs
    · rw [ho.open_ (by rw [hr]; trivial)] at hc
      cases hc
    · exact .inr hs

theorem Orderly.step (ho : Orderly conn) (hs : Stepped conn next) : Orderly next := by
  cases hs with
  | push message hr => exact ho.pushed message hr
  | stop hr =>
    exact ho.moved rfl rfl rfl rfl id ho.seenEmpty
      (fun _ => ho.open_ (by rw [hr]; trivial)) .inl ho.disarming
  | drop hr =>
    refine ho.moved rfl rfl rfl rfl (fun _ => rfl) ho.seenEmpty
      (fun hholds => absurd rfl hholds) .inl ?_
    intro kind source hh
    rcases ho.disarming kind source hh with ⟨hsource, -, hc⟩ | hserved
    · exact .inl ⟨hsource, rfl, hc⟩
    · exact .inr hserved
  | swap hr ha | take hr hslot =>
    refine ho.moved rfl rfl rfl rfl id ho.seenEmpty ?_ .inl ho.disarming
    exact fun hholds => ho.open_ (by rw [hr]; exact hholds)
  | skip hr ha | takeNothing hr hslot | resolve hr =>
    refine ho.moved rfl rfl rfl rfl id ho.seenEmpty ?_ .inl ho.disarming
    exact fun hholds => ho.open_ (by rw [hr]; exact holds_of_resume hholds)
  | call kind hh happ =>
    refine ho.moved rfl rfl rfl ?_ id False.elim ho.open_ (fun _ => .inr happ) nofun
    simp [pending, inHand, hh]
  | refuse kind hh happ =>
    refine { ho with replays := ?_, ended := ?_, inCall := ?_ }
    · refine ho.finished rfl rfl ?_
      rw [happ]
      rfl
    · exact mem_concat_ended ho.ended (nomatch ·)
    · exact fun hrunning => absurd hh hrunning
  | close hh =>
    refine { ho with replays := ?_, ended := ?_, inCall := ?_ }
    · exact ho.finished rfl rfl rfl
    · exact mem_concat_ended ho.ended (nomatch ·)
    · exact fun hrunning => absurd hh hrunning
  | popFront hh hbuf =>
    refine ho.served (by simp [hh]) ?_ rfl rfl rfl rfl rfl rfl
    simp [pending, inHand, hh, hbuf, Connection.finish]
  | enter hh hbuf =>
    have hinHand : ∀ kind,
        inHand (if conn.loopMode then .pulling kind else .blocking kind) = [] := by
      intro kind
      split <;> rfl
    refine ho.moved rfl rfl rfl ?_ id (fun _ => hbuf) ho.open_
      (fun _ => .inl (by simp [hh])) ?_
    · simp only [pending, hinHand, hh]
      rfl
    · intro kind source hn
      split at hn <;> cases hn
  | recv hh hc =>
    have hbuf := ho.seenEmpty (by rcases hh with h | h <;> rw [h] <;> trivial)
    refine ho.moved rfl rfl rfl ?_ id False.elim ho.open_
      (fun _ => .inl (by rcases hh with h | h <;> simp [h])) nofun
    rcases hh with h | h <;> simp [pending, inHand, h, hbuf, hc]
  | recvClosed hh hc hclosed =>
    have hbuf := ho.seenEmpty (by rcases hh with h | h <;> rw [h] <;> trivial)
    refine ho.channelClosed (by rcases hh with h | h <;> simp [h]) hclosed ?_ ?_ rfl
      rfl rfl rfl rfl rfl
    · rcases hh with h | h <;> simp [pending, inHand, h, hbuf, hc]
    · simp [pending_finish, hbuf, hc]
  | miss hh hc | create hh | store hh | arm hh
  | suspend hh hc hclosed =>
    have hbuf := ho.seenEmpty (by rw [hh]; trivial)
    refine ho.moved rfl rfl rfl ?_ id (fun _ => hbuf) ho.open_
      (fun _ => .inl (by simp [hh])) nofun
    simp [pending, inHand, hh]
  | recheck hh hc =>
    have hbuf := ho.seenEmpty (by rw [hh]; trivial)
    refine ho.moved rfl rfl rfl ?_ id False.elim ho.open_
      (fun _ => .inl (by simp [hh])) nofun
    simp [pending, inHand, hh, hbuf, hc]
  | recheckClosed hh hc hclosed =>
    have hbuf := ho.seenEmpty (by rw [hh]; trivial)
    refine ho.moved rfl rfl rfl ?_ id (fun _ => hbuf) ho.open_
      (fun _ => .inl (by simp [hh])) ?_
    · simp [pending, inHand, hh]
    · intro kind source hn
      cases hn
      exact .inl ⟨rfl, hclosed, hc⟩
  | drain hh hc =>
    refine ho.moved rfl rfl rfl ?_ id ?_ ho.open_ .inl ?_
    · simp [pending, hc]
    · rw [hh]
      exact False.elim
    · intro kind source hn
      rw [hh] at hn
      cases hn
  | drained hh =>
    refine ho.served (by simp [hh]) ?_ rfl rfl rfl rfl rfl rfl
    simp [pending, inHand, hh, Connection.finish]
  | drainedArmed hh =>
    refine ho.moved rfl rfl rfl ?_ id False.elim ho.open_
      (fun _ => .inl (by simp [hh])) ?_
    · simp [pending, inHand, hh]
    · intro kind source hn
      cases hn
      exact .inr ⟨_, rfl⟩
  | disarm hh =>
    rcases ho.disarming _ _ hh with ⟨rfl, hclosed, hc⟩ | ⟨message, rfl⟩
    · have hbuf := ho.seenEmpty (by rw [hh]; trivial)
      refine ho.channelClosed (by simp [hh]) hclosed ?_ ?_ rfl rfl rfl rfl rfl rfl
      · simp [pending, inHand, hh, hbuf, hc]
      · simp [pending_finish, hbuf, hc]
    · refine ho.served (by simp [hh]) ?_ rfl rfl rfl rfl rfl rfl
      simp [pending, inHand, hh, Connection.finish]
  | wake hh hresolved =>
    refine ho.moved rfl rfl rfl ?_ id False.elim ho.open_
      (fun _ => .inl (by simp [hh])) nofun
    simp [pending, inHand, hh]
  | cancel hh =>
    refine ho.moved rfl rfl rfl ?_ id False.elim ho.open_ nofun nofun
    simp [pending, inHand, hh]

theorem orderly_of_reaches {loopMode : Bool} (hr : Reaches step (.initial loopMode) conn) :
    Orderly conn :=
  hr.keeps (fun _ _ _ hs ho => ho.step (stepped_of_step hs))
    (orderly_initial loopMode)

def Resolving (conn : Connection) (future : Nat) : Prop :=
  future ∈ conn.resolved ∨ ∃ next, conn.reader = .resolving future next

/-- The future is resolved, or the `fire` that the reader is in gets to it. -/
def WillResolve (conn : Connection) (future : Nat) : Prop :=
  Resolving conn future ∨
    conn.slot = some future ∧
      ((∃ next, conn.reader = .taking next) ∨ conn.armed = true ∧ ∃ next, conn.reader =
        .firing next)

/-- A handler from its store of the future on: nobody but a `fire` takes the future out
of the slot, and nobody but a `fire` that goes on to the slot disarms it.  The future in
the slot may have been taken by the `fire` of an earlier frame. -/
structure Awake (conn : Connection) : Prop where
  stored : ∀ kind future, conn.handler = .arming kind future →
    Resolving conn future ∨ conn.slot = some future
  armed : ∀ kind future,
    conn.handler = .checking kind future ∨ conn.handler = .suspended kind future →
    Resolving conn future ∨
      conn.slot = some future ∧ (conn.armed = true ∨ ∃ next, conn.reader = .taking next)
  woken : ∀ kind future, conn.handler = .suspended kind future →
    conn.channel ≠ [] ∨ conn.closed = true → WillResolve conn future

theorem awake_of_elsewhere (hh : ∀ kind future, conn.handler ≠ .arming kind future ∧
      conn.handler ≠ .checking kind future ∧ conn.handler ≠ .suspended kind future) :
    Awake conn where
  stored kind future h := absurd h (hh kind future).1
  armed kind future h := by
    rcases h with h | h
    · exact absurd h (hh kind future).2.1
    · exact absurd h (hh kind future).2.2
  woken kind future h := absurd h (hh kind future).2.2

/-- The reader starts a `fire` for what it just did. -/
theorem Awake.fires (ha : Awake conn) {resume : Resume}
    (hr : conn.reader = .reading ∨ conn.reader = .teardown) (hn : next.reader = .firing resume)
    (hh : next.handler = conn.handler) (hslot : next.slot = conn.slot)
    (harmed : next.armed = conn.armed)
    (hresolved : next.resolved = conn.resolved) : Awake next := by
  obtain ⟨hs, harm, hw⟩ := ha
  constructor
  · simp only [Resolving] at hs ⊢
    grind
  · simp only [Resolving] at harm ⊢
    grind
  · simp only [WillResolve, Resolving] at harm ⊢
    grind

theorem Awake.step (ha : Awake conn) (hstep : Stepped conn next) : Awake next := by
  cases hstep with
  | push message hr => exact ha.fires (.inl hr) rfl rfl rfl rfl rfl
  | drop hr => exact ha.fires (.inr hr) rfl rfl rfl rfl rfl
  | @take taken resume hr hslot =>
    -- Whoever waits for what was in the slot has it resolved next.
    have ht : ∀ future, Resolving conn future ∨ conn.slot = some future →
        Resolving { conn with slot := none, reader := .resolving taken resume } future := by
      intro future hf
      rcases hf with (hresolved | ⟨other, ho⟩) | hf
      · exact .inl hresolved
      · rw [hr] at ho
        cases ho
      · rw [hslot] at hf
        cases hf
        exact .inr ⟨resume, rfl⟩
    obtain ⟨hs, harm, -⟩ := ha
    constructor
    · exact fun kind future h => .inl (ht future (hs kind future h))
    · exact fun kind future h => .inl (ht future ((harm kind future h).imp_right And.left))
    · exact fun kind future h _ =>
        .inl (ht future ((harm kind future (.inr h)).imp_right And.left))
  | stop hr | swap hr harmed | skip hr harmed | takeNothing hr hslot
  | resolve hr | store hh | arm hh | suspend hh hc hclosed
  | refuse kind hh happ | close hh | drain hh hc =>
    obtain ⟨hs, harm, hw⟩ := ha
    simp only [WillResolve, Resolving] at hs harm hw
    constructor <;> simp only [WillResolve, Resolving] <;> grind
  | enter hh hbuf =>
    refine awake_of_elsewhere fun kind future => ?_
    split <;> exact ⟨nofun, nofun, nofun⟩
  | call | popFront | recv | recvClosed | miss | create | recheck | recheckClosed | drained
  | drainedArmed | disarm | wake | cancel =>
    exact awake_of_elsewhere fun kind future => ⟨nofun, nofun, nofun⟩

theorem awake_of_reaches {loopMode : Bool} (hr : Reaches step (.initial loopMode) conn) :
    Awake conn :=
  hr.keeps (fun _ _ _ hs ha => ha.step (stepped_of_step hs))
    (awake_of_elsewhere fun _ _ => ⟨nofun, nofun, nofun⟩)

/-- The reader alone, without reading another frame, resolves the future in so many
steps. -/
def ResolvesIn (fires : Nat) (conn : Connection) (future : Nat) : Prop :=
  ∃ after, runActions step (List.replicate fires .reader) conn = some after ∧
    future ∈ after.resolved ∧ after.handler = conn.handler

variable {future : Nat}

theorem ResolvesIn.succ {fires : Nat} (hr : ResolvesIn fires next future)
    (hs : conn.readerStep = some next) (hh : next.handler = conn.handler) :
    ResolvesIn (fires + 1) conn future := by
  obtain ⟨after, hrun, hresolved, ha⟩ := hr
  refine ⟨after, ?_, hresolved, ha.trans hh⟩
  rw [replicate_succ, runActions, step, hs, bind_some, hrun]

theorem resolvesIn_of_resolving {next : Resume} (hr : conn.reader = .resolving future next) :
    ResolvesIn 1 conn future := by
  have hl : ResolvesIn 0
      { conn with resolved := future :: conn.resolved, reader := next.reader } future :=
    ⟨_, rfl, mem_cons_self, rfl⟩
  exact hl.succ (by rw [Connection.readerStep, hr]) rfl

theorem resolvesIn_of_taking {next : Resume} (hr : conn.reader = .taking next)
    (hs : conn.slot = some future) : ResolvesIn 2 conn future := by
  have hl : ResolvesIn 1
      { conn with slot := none, reader := .resolving future next } future :=
    resolvesIn_of_resolving rfl
  exact hl.succ (by simp [Connection.readerStep, hr, hs]) rfl

private theorem resolvesIn_of_firing {next : Resume} (hr : conn.reader = .firing next)
    (ha : conn.armed = true) (hs : conn.slot = some future) : ResolvesIn 3 conn future := by
  have hl : ResolvesIn 2 { conn with armed := false, reader := .taking next } future :=
    resolvesIn_of_taking rfl hs
  exact hl.succ (by simp [Connection.readerStep, hr, ha]) rfl

theorem WillResolve.resolvesIn (hw : WillResolve conn future) :
    ∃ fires ≤ 3, ResolvesIn fires conn future := by
  rcases hw with (hresolved | ⟨next, hr⟩) | ⟨hs, ⟨next, hr⟩ | ⟨ha, next, hr⟩⟩
  · exact ⟨0, by omega, conn, rfl, hresolved, rfl⟩
  · exact ⟨1, by omega, resolvesIn_of_resolving hr⟩
  · exact ⟨2, by omega, resolvesIn_of_taking hr hs⟩
  · exact ⟨3, by omega, resolvesIn_of_firing hr ha hs⟩

def delivered (conn : Connection) : List WsMessage :=
  conn.calls.filterMap Call.frame

/-- The handler gets the frames that were pushed, each once and in order, and all of
them before it is told of the end; and where it is suspended with something to be told,
the reader is at most three steps of its own away from waking it. -/
theorem receive_ordered_and_woken {loopMode : Bool} {conn : Connection}
    (hreaches : Reaches step (.initial loopMode) conn) :
    conn.pushed = delivered conn ++ pending conn ∧
      (∀ kind, .receive kind .channelClosed ∈ conn.calls → conn.pushed = delivered conn) ∧
      ∀ kind future, conn.handler = .suspended kind future →
        conn.channel ≠ [] ∨ conn.closed = true → ∃ fires ≤ 3, ResolvesIn fires conn future := by
  have ho := orderly_of_reaches hreaches
  have hp : conn.pushed = delivered conn ++ pending conn :=
    stream_of_runActions ho.replays
  refine ⟨hp, ?_, ?_⟩
  · intro kind he
    rw [hp, (ho.ended _ he rfl).2, append_nil]
  · intro kind future hs hr
    exact ((awake_of_reaches hreaches).woken kind future hs hr).resolvesIn

/-- The `fire` for the first frame is held up between the flag and the slot, while the
handler finds the frame itself and arms a second future.  That future is then resolved for
the first frame, so that the `fire` for the second frame finds none. -/
def staleFire : List Action :=
  [.call .text, .handler, .handler, .handler, .handler, .handler,
    .push (.text "a"), .handler, .reader, .handler, .handler,
    .call .bytes, .handler, .handler, .handler, .handler, .handler, .handler,
    .reader, .reader, .push (.text "b"), .reader, .reader]

def afterStaleFire : Connection where
  loopMode := true
  channel := [.text "b"]
  closed := false
  buf := []
  armed := false
  slot := none
  resolved := [1]
  created := 2
  reader := .reading
  handler := .suspended .bytes 1
  appState := .connected
  pushed := [.text "a", .text "b"]
  calls := [.receive .text (.served (.text "a"))]

theorem stale_fire_wakes :
    runActions step staleFire (.initial true) = some afterStaleFire ∧
      afterStaleFire.pushed = delivered afterStaleFire ++ pending afterStaleFire ∧
      ∃ fires ≤ 3, ResolvesIn fires afterStaleFire 1 := by
  have hrun : runActions step staleFire (.initial true) = some afterStaleFire := by decide
  obtain ⟨hp, -, hw⟩ := receive_ordered_and_woken (reaches_of_runActions hrun)
  exact ⟨hrun, hp, hw .bytes 1 rfl (.inl (by decide))⟩

end FastapiTurbo.WebSocketReceive
