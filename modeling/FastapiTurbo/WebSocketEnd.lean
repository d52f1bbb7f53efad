import FastapiTurbo.WebSocketReceive

/-! How the end of a WebSocket connection is told to `receive_text` and
`receive_bytes`: the peer's Close frame is a message of the channel like any other, and
behind it there is only the error of a closed channel. -/
namespace FastapiTurbo.WebSocketEnd

open Lib WebSocketInbound WebSocketReceive List

def WsMessage.closeCode : WsMessage → Option Nat
  | .close code _ => some code
  | _ => none

def peerCode (pushed : List WsMessage) : Option Nat :=
  pushed.findSome? WsMessage.closeCode

def Source.isData : Source → Bool
  | .served message => !message.isClose
  | _ => false

/-- A `receive_text` or `receive_bytes` that got no data raises `WebSocketDisconnect`,
with the peer's code if the peer gave one. -/
def SignalsEnd (peer : Option Nat) : Call → Prop
  | .receive .dict _ | .close => True
  | .receive kind source => Source.isData source = false →
      ∃ code reason, answer kind source = .raised (.disconnect code reason) ∧
        ∀ due, peer = some due → code = due

/-- A `receive_text` or `receive_bytes` finds a frame or the peer's Close still unread, or
`_app_state` is `DISCONNECTED` already and the peer's code, if there is one, is 1000. -/
def Heralded (peer : Option Nat) (session : Session) : Call → Prop
  | .receive .dict _ | .close => True
  | .receive _ _ =>
    match session.appState with
    | .connected => session.stream ≠ []
    | .disconnected => ∀ due, peer = some due → due = 1000

/-- A receive of a kind other than `dict`, by the session that it is made on. -/
theorem signalsEnd_receive_iff {peer : Option Nat} {session : Session} {kind : RecvKind}
    (hk : kind ≠ .dict)
    (hp : ∀ code reason, .close code reason ∈ session.stream → peer = some code) :
    SignalsEnd peer (.receive kind (session.receive kind).1) ↔
      Heralded peer session (.receive kind (session.receive kind).1) := by
  obtain ⟨appState, sm⟩ := session
  cases appState with
  | disconnected =>
    cases kind with
    | dict => exact absurd rfl hk
    | text | bytes => simp [SignalsEnd, Heralded, Session.receive, Source.isData, answer, eq_comm]
  | connected =>
    cases sm with
    | nil =>
      cases kind with
      | dict => exact absurd rfl hk
      | text | bytes => simp [SignalsEnd, Heralded, Session.receive, Source.isData, answer]
    | cons message rest =>
      have hc : ∀ code reason, message = .close code reason → peer = some code := by
        rintro code reason rfl
        exact hp code reason mem_cons_self
      cases kind with
      | dict => exact absurd rfl hk
      | text | bytes =>
        cases message with
        | text | binary =>
          simp [SignalsEnd, Heralded, Session.receive, Source.isData, WsMessage.isClose]
        | close code reason =>
          simp [SignalsEnd, Heralded, Session.receive, Source.isData, WsMessage.isClose, answer,
            surface, hc code reason rfl]

private theorem signalsEnd_iff_of_after {peer : Option Nat} {call : Call} {session next : Session}
    (hp : ∀ code reason, .close code reason ∈ session.stream → peer = some code)
    (ha : session.after call = some next) :
    SignalsEnd peer call ↔ Heralded peer session call := by
  cases call with
  | close => exact Iff.rfl
  | receive kind source =>
    simp only [Session.after, Option.ite_none_right_eq_some] at ha
    obtain ⟨rfl, -⟩ := ha
    by_cases hk : kind = .dict
    · subst hk
      exact Iff.rfl
    · exact signalsEnd_receive_iff hk hp

theorem signalsEnd_iff_meets {peer : Option Nat} {calls : List Call} {session next : Session}
    (hp : ∀ code reason, .close code reason ∈ session.stream → peer = some code)
    (hrun : runActions Session.after calls session = some next) :
    (∀ call ∈ calls, SignalsEnd peer call) ↔ Meets Session.after (Heralded peer) calls session := by
  induction calls generalizing session with
  | nil => simp [Meets]
  | cons call rest ih =>
    obtain ⟨middle, hm, hr⟩ := Option.bind_eq_some_iff.1 hrun
    have hs := stream_of_after hm
    have ht := ih (fun code reason hmem => hp code reason
      (hs ▸ mem_append_right _ hmem)) hr
    rw [forall_mem_cons, signalsEnd_iff_of_after hp hm, ht, Meets]
    refine and_congr_right fun _ => ?_
    constructor
    · rintro hmeets other ho
      rw [hm] at ho
      cases ho
      exact hmeets
    · exact fun hmeets => hmeets middle hm

def Reads : Reader → Prop
  | .reading => True
  | .firing next | .taking next | .resolving _ next => next = .reading
  | .teardown | .gone => False

/-- The reader stops at the Close frame, so that it pushes at most one, and it is not gone
before it has dropped the sender. -/
structure CloseLast (conn : Connection) : Prop where
  reads : Reads conn.reader → ∀ message ∈ conn.pushed, message.isClose = false
  last : ∀ message ∈ conn.pushed.dropLast, message.isClose = false
  dropped : ¬Holds conn.reader → conn.closed = true

theorem reads_reader {next : Resume} (hr : Reads next.reader) : next = .reading := by
  cases next with
  | reading => rfl
  | teardown | gone => exact hr.elim

private theorem holds_reader {next : Resume} (hn : next ≠ .gone) : Holds next.reader := by
  cases next with
  | reading | teardown => trivial
  | gone => exact absurd rfl hn

theorem CloseLast.step {conn next : Connection} (hl : CloseLast conn)
    (hs : Stepped conn next) : CloseLast next := by
  cases hs with
  | push message hr =>
    have hn := hl.reads (by rw [hr]; trivial)
    constructor
    · intro hreads other hmem
      rcases mem_append.1 hmem with hold | hnew
      · exact hn other hold
      · rw [mem_singleton.1 hnew]
        cases hc : message.isClose with
        | false => rfl
        | true => simp [Reads, hc] at hreads
    · simpa using hn
    · intro hd
      refine absurd (show Holds (.firing _) from ?_) hd
      split <;> exact nofun
  | stop hr => exact ⟨nofun, hl.last, fun hd => absurd trivial hd⟩
  | drop hr => exact ⟨nofun, hl.last, fun _ => rfl⟩
  | swap hr ha | take hr hslot =>
    refine ⟨fun hreads => hl.reads (by rw [hr]; exact hreads), hl.last, ?_⟩
    exact fun hd => hl.dropped (by rw [hr]; exact hd)
  | skip hr ha | takeNothing hr hslot | resolve hr =>
    refine ⟨fun hreads => hl.reads (by rw [hr]; exact reads_reader hreads), hl.last, ?_⟩
    exact fun hd => hl.dropped (by rw [hr]; exact fun hnext => hd (holds_reader hnext))
  | _ => exact ⟨hl.reads, hl.last, hl.dropped⟩

theorem closeLast_of_reaches {loopMode : Bool} {conn : Connection}
    (hr : Reaches step (.initial loopMode) conn) : CloseLast conn :=
  hr.keeps (fun _ _ _ hs hl => hl.step (stepped_of_step hs))
    ⟨fun _ => nofun, nofun, fun hd => absurd trivial hd⟩

theorem CloseLast.peerCode_eq {conn : Connection} (hl : CloseLast conn) {code : Nat}
    {reason : String}
    (hmem : .close code reason ∈ conn.pushed) : peerCode conn.pushed = some code := by
  have hne : conn.pushed ≠ [] := ne_nil_of_mem hmem
  have hs := dropLast_concat_getLast hne
  have hgetLast : conn.pushed.getLast hne = .close code reason := by
    rw [← hs, mem_append] at hmem
    rcases hmem with hf | hb
    · cases hl.last _ hf
    · exact (mem_singleton.1 hb).symm
  have hf : conn.pushed.dropLast.findSome? WsMessage.closeCode = none := by
    rw [findSome?_eq_none_iff]
    intro message hm
    have hd := hl.last message hm
    cases message with
    | text | binary => rfl
    | close => cases hd
  unfold peerCode
  rw [← hs, findSome?_append, hf, hgetLast]
  rfl

/-- How far a call is from its end once the channel is closed, apart from the frames
that it still drains. -/
def stepsLeft : Handler → Nat
  | .running => 0
  | .disarming _ _ => 1
  | .draining _ _ _ => 2
  | .checking _ _ => 3
  | .arming _ _ => 4
  | .storing _ _ => 5
  | .creating _ => 6
  | .blocking _ | .pulling _ => 7
  | .entering _ => 8
  | .suspended _ _ => 9

def distance (conn : Connection) : Nat :=
  stepsLeft conn.handler + conn.channel.length

/-- The call of the handler is still under way, or it has just ended. -/
def Ends (ended : Nat) (conn : Connection) : Prop :=
  conn.calls.length = if conn.handler = .running then ended + 1 else ended

theorem handlerStep_isSome_of_closed {conn : Connection} (hclosed : conn.closed = true)
    (hw : ∀ kind future, conn.handler = .suspended kind future → future ∈ conn.resolved)
    (hc : conn.handler ≠ .running) : conn.handlerStep.isSome = true := by
  unfold Connection.handlerStep
  split
  case h_1 hh => exact absurd hh hc
  case h_11 kind future hh => simp [hw kind future hh]
  all_goals repeat' split
  all_goals simp_all

theorem distance_lt_of_handlerStep {conn next : Connection} {ended : Nat} (hc : conn.closed = true)
    (he : Ends ended conn) (hs : conn.handlerStep = some next) :
    next.closed = true ∧ Ends ended next ∧ distance next < distance conn ∧
      ∀ kind future, next.handler ≠ .suspended kind future := by
  unfold Connection.handlerStep at hs
  simp only [Ends, distance] at he ⊢
  split at hs
  case h_1 => cases hs
  all_goals repeat' split at hs
  all_goals cases hs
  all_goals simp_all [stepsLeft, Connection.finish]
  all_goals omega

private theorem exists_reaches_running {conn : Connection} {ended : Nat} (hc : conn.closed = true)
    (hw : ∀ kind future, conn.handler = .suspended kind future → future ∈ conn.resolved)
    (he : Ends ended conn) :
    ∃ after, Reaches step conn after ∧ after.handler = .running ∧
      after.calls.length = ended + 1 := by
  induction hb : distance conn using Nat.strongRecOn generalizing conn with
  | ind bound ih =>
    by_cases hr : conn.handler = .running
    · exact ⟨conn, .refl, hr, by simpa [Ends, hr] using he⟩
    · obtain ⟨next, hn⟩ := Option.isSome_iff_exists.1
        (handlerStep_isSome_of_closed hc hw hr)
      obtain ⟨hnextClosed, hnextEnds, hl, ha⟩ :=
        distance_lt_of_handlerStep hc he hn
      obtain ⟨after, hreaches, hafter⟩ := ih (distance next) (hb ▸ hl) hnextClosed
        (fun kind future hs => absurd hs (ha kind future)) hnextEnds rfl
      exact ⟨after, .head ⟨.handler, hn⟩ hreaches, hafter⟩

/-- Over all interleavings and in both modes: the calls tell the end by
`WebSocketDisconnect` and nothing else exactly if each of them finds the session as
`Heralded` asks for; and a call that is under way when the reader is gone does end. -/
theorem end_signalled_iff {loopMode : Bool} {conn : Connection}
    (hreaches : Reaches step (.initial loopMode) conn) :
    ((∀ call ∈ conn.calls, SignalsEnd (peerCode conn.pushed) call) ↔
        Meets Session.after (Heralded (peerCode conn.pushed)) conn.calls
          ⟨.connected, conn.pushed⟩) ∧
      (conn.reader = .gone → conn.handler ≠ .running →
        ∃ after, Reaches step conn after ∧ after.handler = .running ∧
          after.calls.length = conn.calls.length + 1) := by
  have hl := closeLast_of_reaches hreaches
  refine ⟨signalsEnd_iff_meets (fun _ _ hmem => hl.peerCode_eq hmem)
    (orderly_of_reaches hreaches).replays, ?_⟩
  intro hg hcall
  have hc : conn.closed = true := hl.dropped (by rw [hg]; exact id)
  refine exists_reaches_running hc ?_ (by simp [Ends, hcall])
  intro kind future hs
  rcases (awake_of_reaches hreaches).woken kind future hs (.inr hc) with
    (hr | ⟨next, hn⟩) | ⟨-, ⟨next, hn⟩ | ⟨-, next, hn⟩⟩
  · exact hr
  all_goals rw [hg] at hn
  all_goals cases hn

def peerCloses : List Action :=
  [.call .text, .handler, .push (.close 4001 "bye"), .reader, .reader, .reader, .handler, .handler]

def afterPeerCloses : Connection where
  loopMode := false
  channel := []
  closed := true
  buf := []
  armed := false
  slot := none
  resolved := []
  created := 0
  reader := .gone
  handler := .running
  appState := .connected
  pushed := [.close 4001 "bye"]
  calls := [.receive .text (.served (.close 4001 "bye"))]

theorem peer_close_is_signalled :
    runActions step peerCloses (.initial false) = some afterPeerCloses ∧
      ∀ call ∈ afterPeerCloses.calls, SignalsEnd (some 4001) call := by
  have hrun : runActions step peerCloses (.initial false) = some afterPeerCloses := by decide
  refine ⟨hrun, (end_signalled_iff (reaches_of_runActions hrun)).1.2 ?_⟩
  exact ⟨cons_ne_nil _ _, fun _ _ => trivial⟩

/-- A transport that ends without a Close frame, and a second `receive_text` after the
peer's Close, give a `RuntimeError`. -/
theorem end_raises_runtime_error :
    (∃ conn, runActions step [.call .text, .handler, .stop, .reader, .reader, .handler]
        (.initial false) = some conn ∧
      conn.calls = [.receive .text .channelClosed]) ∧
    (∃ conn, runActions step [.call .text, .handler, .handler] afterPeerCloses = some conn ∧
      conn.calls =
        [.receive .text (.served (.close 4001 "bye")), .receive .text .channelClosed]) ∧
    answer .text .channelClosed = .raised (.runtimeError "WebSocket closed") ∧
    ¬SignalsEnd none (.receive .text .channelClosed) := by
  refine ⟨⟨_, rfl, rfl⟩, ⟨_, rfl, rfl⟩, rfl, ?_⟩
  simp [SignalsEnd, Source.isData, answer]

end FastapiTurbo.WebSocketEnd
