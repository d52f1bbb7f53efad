import FastapiTurbo.Lib.Transducer
import FastapiTurbo.WebSocketInbound
import FastapiTurbo.WebSocketState

/-! The Python WebSocket object (`websockets.py`) over its two doors: the Rust connection,
and the receive and send channels of the in-process ASGI application.  The frames of the
client arrive at any point of the script, once the connection is accepted; the select task
is done with each of them before the next operation.  Its echo of a Close is part of the
closing handshake and not of the frames that the script sends. -/
namespace FastapiTurbo.WebSocketScripts

open Lib
open WebSocketInbound (WsMessage RecvKind Received WsError answer asBytes fromUtf8 surface)
open WebSocketState (WsState)

inductive ErrorClass where
  | runtimeError
  | webSocketDisconnect
  | attributeError
  /-- An exception of `json.dumps`. -/
  | other (name : String)
  deriving DecidableEq

def errorClass : WsError → ErrorClass
  | .disconnect _ _ => .webSocketDisconnect
  | .runtimeError _ => .runtimeError

inductive Value where
  | none
  | received (value : Received)
  /-- `websocket.connect`. -/
  | connectDict
  deriving DecidableEq

inductive Frame where
  | text (text : String)
  | bytes (bytes : List UInt8)
  | close (code : Int) (reason : String)
  deriving DecidableEq

inductive Door where
  /-- `_ws`, and whether its select task has ended, at the client's Close. -/
  | rust (ended : Bool)
  /-- `_ws` is `None`; whether `websocket.connect` is still to be received, and
  `_asgi_closed`. -/
  | asgi (connect closed : Bool)
  deriving DecidableEq

structure WebSocket where
  appState : WsState
  door : Door
  /-- The frames of the client that have arrived and are still to be received. -/
  inbox : List WsMessage
  deriving DecidableEq

/-- A message of the low-level `send`, by its type; an absent `code` is 1000. -/
inductive Message where
  | accept
  | send (text : Option String) (bytes : Option (List UInt8))
  | close (code : Option Int) (reason : Option String)
  | other
  deriving DecidableEq

inductive Op where
  | accept
  | send (message : Message)
  | sendText (data : String)
  | sendBytes (data : List UInt8)
  /-- With what `json.dumps` makes of the data. -/
  | sendJson (dumped : Outcome String ErrorClass) (mode : String)
  | receive (kind : RecvKind)
  | close (code : Int) (reason : Option String)
  deriving DecidableEq

inductive Event where
  | op (op : Op)
  | arrive (message : WsMessage)
  deriving DecidableEq

abbrev Answer :=
  Option (Reply (Outcome Value ErrorClass) Frame WebSocket)

namespace WebSocket

def overRust : WebSocket :=
  ⟨.connecting, .rust false, []⟩

def overAsgi : WebSocket :=
  ⟨.connecting, .asgi true false, []⟩

variable (ws : WebSocket)

def returns (value : Value) (emitted : List Frame) : Answer :=
  some ⟨.returned value, emitted, ws⟩

def raises (error : ErrorClass) : Answer :=
  some ⟨.raised error, [], ws⟩

def accept : Answer :=
  if ws.appState ≠ .connecting then ws.returns .none []
  else
    match ws.door with
    | .rust _ => { ws with appState := .connected }.returns .none []
    | .asgi true closed =>
      { ws with appState := .connected, door := .asgi false closed }.returns .none []
    | .asgi false _ =>
      match ws.inbox with
      | [] => none
      | _ :: rest => { ws with appState := .disconnected, inbox := rest }.returns .none []

/-- The Rust methods take the code as a `u16`; what they raise otherwise is caught. -/
def isU16 (code : Int) : Bool :=
  0 ≤ code && code < 65536

/-- A close before `accept` refuses the handshake on either door. -/
def close (code : Int) (reason : Option String) : Answer :=
  match ws.appState, ws.door with
  | .disconnected, _ => ws.returns .none []
  | .connecting, .asgi connect _ =>
    { ws with appState := .disconnected, door := .asgi connect true }.returns .none []
  | .connecting, .rust _ => { ws with appState := .disconnected }.returns .none []
  | .connected, .rust ended =>
    { ws with appState := .disconnected }.returns .none
      (if !ended && isU16 code then [.close code (reason.getD "")] else [])
  | .connected, .asgi connect closed =>
    { ws with appState := .disconnected, door := .asgi connect true }.returns .none
      (if closed then [] else [.close code (reason.getD "")])

def sendFrame (frame : Frame) : Answer :=
  match ws.door with
  | .rust true => ws.raises .runtimeError
  | .rust false | .asgi _ _ => ws.returns .none [frame]

def sendText (data : String) : Answer :=
  if ws.appState ≠ .connected then ws.raises .runtimeError else ws.sendFrame (.text data)

def sendBytes (data : List UInt8) : Answer :=
  if ws.appState ≠ .connected then ws.raises .runtimeError else ws.sendFrame (.bytes data)

def validSendJsonModes : List String :=
  ["text", "binary"]

def sendJson (dumped : Outcome String ErrorClass) (mode : String) : Answer :=
  if mode ∉ validSendJsonModes then ws.raises .runtimeError
  else if ws.appState ≠ .connected then ws.raises .runtimeError
  else
    match dumped with
    | .raised error => ws.raises error
    | .returned text =>
      ws.sendFrame (if mode = "text" then .text text else .bytes (asBytes text))

/-- `self._ws.send_text` and `self._ws.send_bytes`, whichever the door. -/
def wsSend (frame : Frame) : Answer :=
  match ws.door with
  | .rust _ => ws.sendFrame frame
  | .asgi _ _ => ws.raises .attributeError

def send : Message → Answer
  | .accept => ws.accept
  | .send text bytes =>
    if ws.appState ≠ .connected then ws.raises .runtimeError
    else
      match text, bytes with
      | some text, _ => ws.wsSend (.text text)
      | none, some bytes => ws.wsSend (.bytes bytes)
      | none, none => ws.returns .none []
  | .close code reason => ws.close (code.getD 1000) reason
  | .other => ws.returns .none []

def result : Outcome Received WsError → Outcome Value ErrorClass
  | .returned value => .returned (.received value)
  | .raised error => .raised (errorClass error)

/-- `_asgi_receive_text`, `_asgi_receive_bytes` and `receive` on a message of the client. -/
def asgiReceive : RecvKind → WsMessage → Outcome Received WsError
  | .dict, message => surface .dict message
  | .text, .text text => .returned (.text text)
  | .text, .binary _ => .returned (.text "")
  | .bytes, .binary bytes => .returned (.bytes bytes)
  | .bytes, .text _ => .returned (.bytes [])
  | .text, .close code reason | .bytes, .close code reason => .raised (.disconnect code reason)

/-- A receive of the Rust door whose channel is closed. -/
def receiveClosed (kind : RecvKind) : Answer :=
  some ⟨result (answer kind .channelClosed), [],
    { ws with
      appState := if kind = .dict then .disconnected else ws.appState
      door := .rust true }⟩

def asgiConnect : RecvKind → Value
  | .dict => .connectDict
  | .text => .received (.text "")
  | .bytes => .received (.bytes [])

/-- Before `accept` nothing is pushed into the channel of the Rust door, which is closed
when the upgrade is given up.  What has arrived is received even when the select task has
ended. -/
def receive (kind : RecvKind) : Answer :=
  match ws.appState, ws.door with
  | .disconnected, _ => some ⟨result (answer kind .alreadyDisconnected), [], ws⟩
  | .connecting, .rust _ => ws.receiveClosed kind
  | .connected, .rust ended =>
    match ws.inbox with
    | [] => if ended then ws.receiveClosed kind else none
    | message :: rest =>
      some ⟨result (answer kind (.served message)), [],
        { ws with
          appState := if kind = .dict && message.isClose then .disconnected else .connected
          inbox := rest }⟩
  | _, .asgi true closed =>
    { ws with door := .asgi false closed }.returns (asgiConnect kind) []
  | _, .asgi false _ =>
    match ws.inbox with
    | [] => none
    | message :: rest =>
      some ⟨result (asgiReceive kind message), [],
        { ws with
          appState := if message.isClose then .disconnected else ws.appState
          inbox := rest }⟩

/-- A frame of the client.  The select task ends with a Close, and what comes after it is
not read. -/
def arrive (message : WsMessage) : Answer :=
  if ws.appState = .connecting then none
  else
    match ws.door with
    | .rust true => ws.returns .none []
    | .rust false =>
      { ws with door := .rust message.isClose, inbox := ws.inbox ++ [message] }.returns .none []
    | .asgi _ _ => { ws with inbox := ws.inbox ++ [message] }.returns .none []

end WebSocket

def stepOp : Op → WebSocket → Answer
  | .accept, ws => ws.accept
  | .send message, ws => ws.send message
  | .sendText data, ws => ws.sendText data
  | .sendBytes data, ws => ws.sendBytes data
  | .sendJson dumped mode, ws => ws.sendJson dumped mode
  | .receive kind, ws => ws.receive kind
  | .close code reason, ws => ws.close code reason

def step : Event → WebSocket → Answer
  | .op op, ws => stepOp op ws
  | .arrive message, ws => ws.arrive message

/-- Over the Rust door, the client's Close has arrived and waits to be received. -/
def WebSocket.Closing (ws : WebSocket) : Prop :=
  ws.appState = .connected ∧ ws.door = .rust true ∧ ws.inbox ≠ []

/-- `receive_text` or `receive_bytes` has raised for the client's Close, of which only the
ASGI branch takes note. -/
def WebSocket.Heard (ws : WebSocket) : Prop :=
  ws.appState = .connected ∧ ws.door = .rust true ∧ ws.inbox = []

/-- The two doors answer this operation alike; the state is that over the Rust door. -/
def AgreesOn (ws : WebSocket) : Op → Prop
  | .accept | .send .accept | .send .other => True
  | .send (.send text bytes) =>
    ws.appState = .connected → (text = none ∧ bytes = none ↔ ¬ws.Heard)
  | .sendText _ | .sendBytes _ => ¬ws.Closing
  | .sendJson dumped mode =>
    mode ∈ WebSocket.validSendJsonModes →
      match dumped with
      | .returned _ => ¬ws.Closing
      | .raised error => ws.Heard → error = .runtimeError
  | .send (.close code _) => ws.appState = .connected → ¬ws.Heard →
      ws.door = .rust false ∧ WebSocket.isU16 (code.getD 1000)
  | .close code _ => ws.appState = .connected → ¬ws.Heard →
      ws.door = .rust false ∧ WebSocket.isU16 code
  | .receive kind =>
    ws.appState ≠ .disconnected →
      ws.appState = .connected ∧ ¬ws.Heard ∧
        ∀ message ∈ ws.inbox.head?,
          (∀ bytes, kind = .text → message = .binary bytes → bytes = []) ∧
            ∀ text, kind = .bytes → message = .text text → text = ""

def Agrees (ws : WebSocket) : Event → Prop
  | .op op => AgreesOn ws op
  | .arrive _ => True

/-- How the same script stands over the Rust door and over the ASGI door. -/
inductive Related : WebSocket → WebSocket → Prop
  | connecting : Related .overRust .overAsgi
  | connected (inbox : List WsMessage) (hdata : ∀ message ∈ inbox, message.isClose = false) :
      Related ⟨.connected, .rust false, inbox⟩ ⟨.connected, .asgi false false, inbox⟩
  /-- The client's Close has arrived behind some data.  Over the ASGI door more frames may
  stand behind it. -/
  | closing (inbox unread : List WsMessage) (final : WsMessage)
      (hdata : ∀ message ∈ inbox, message.isClose = false) (hclose : final.isClose = true) :
      Related ⟨.connected, .rust true, inbox ++ [final]⟩
        ⟨.connected, .asgi false false, inbox ++ final :: unread⟩
  | heard (unread : List WsMessage) (connect closed : Bool) :
      Related ⟨.connected, .rust true, []⟩ ⟨.disconnected, .asgi connect closed, unread⟩
  | disconnected (inbox unread : List WsMessage) (ended connect closed : Bool) :
      Related ⟨.disconnected, .rust ended, inbox⟩ ⟨.disconnected, .asgi connect closed, unread⟩

variable {ws other : WebSocket}

section States

variable (inbox unread : List WsMessage) (final : WsMessage)

private theorem closing_append :
    WebSocket.Closing ⟨.connected, .rust true, inbox ++ [final]⟩ :=
  ⟨rfl, rfl, by simp⟩

private theorem not_heard_append :
    ¬WebSocket.Heard ⟨.connected, .rust true, inbox ++ [final]⟩ := by
  simp [WebSocket.Heard]

private theorem not_heard_open : ¬WebSocket.Heard ⟨.connected, .rust false, inbox⟩ := by
  simp [WebSocket.Heard]

private theorem heard_nil : WebSocket.Heard ⟨.connected, .rust true, []⟩ :=
  ⟨rfl, rfl, rfl⟩

end States

section Lockstep

variable (hrelated : Related ws other)
include hrelated

theorem lockstep_accept : Lockstep Related ws.accept other.accept := by
  cases hrelated with
  | connecting => exact .answered _ _ (.connected [] (by simp))
  | connected inbox hdata => exact .answered _ _ (.connected inbox hdata)
  | closing inbox unread final hdata hclose =>
    exact .answered _ _ (.closing inbox unread final hdata hclose)
  | heard unread connect closed => exact .answered _ _ (.heard unread connect closed)
  | disconnected inbox unread ended connect closed =>
    exact .answered _ _ (.disconnected inbox unread ended connect closed)

theorem lockstep_sendFrame (frame : Frame) (hopen : ¬ws.Closing) :
    Lockstep Related
      (if ws.appState ≠ .connected then ws.raises .runtimeError else ws.sendFrame frame)
      (if other.appState ≠ .connected then other.raises .runtimeError
        else other.sendFrame frame) := by
  cases hrelated with
  | connecting => exact .answered _ _ .connecting
  | connected inbox hdata => exact .answered _ _ (.connected inbox hdata)
  | closing inbox unread final hdata hclose => exact absurd (closing_append inbox final) hopen
  | heard unread connect closed => exact .answered _ _ (.heard unread connect closed)
  | disconnected inbox unread ended connect closed =>
    exact .answered _ _ (.disconnected inbox unread ended connect closed)

private theorem lockstep_raises (error : ErrorClass) :
    Lockstep Related (ws.raises error) (other.raises error) :=
  .answered _ _ hrelated

theorem lockstep_sendJson {dumped : Outcome String ErrorClass} {mode : String}
    (hagrees : AgreesOn ws (.sendJson dumped mode)) :
    Lockstep Related (ws.sendJson dumped mode) (other.sendJson dumped mode) := by
  unfold WebSocket.sendJson
  by_cases hmode : mode ∉ WebSocket.validSendJsonModes
  · rw [if_pos hmode, if_pos hmode]
    exact lockstep_raises hrelated _
  have hagreed := hagrees (Decidable.not_not.1 hmode)
  rw [if_neg hmode, if_neg hmode]
  cases dumped with
  | returned text => exact lockstep_sendFrame hrelated _ hagreed
  | raised error =>
    cases hrelated with
    | connecting => exact .answered _ _ .connecting
    | connected inbox hdata => exact .answered _ _ (.connected inbox hdata)
    | closing inbox unread final hdata hclose =>
      exact .answered _ _ (.closing inbox unread final hdata hclose)
    | heard unread connect closed =>
      rw [hagreed heard_nil]
      exact .answered _ _ (.heard unread connect closed)
    | disconnected inbox unread ended connect closed =>
      exact .answered _ _ (.disconnected inbox unread ended connect closed)

theorem lockstep_close {code : Int} {reason : Option String}
    (hagrees : AgreesOn ws (.close code reason)) :
    Lockstep Related (ws.close code reason) (other.close code reason) := by
  cases hrelated with
  | connecting => exact .answered _ _ (.disconnected [] [] false true true)
  | connected inbox hdata =>
    have hcode : WebSocket.isU16 code = true := (hagrees rfl (not_heard_open inbox)).2
    simp only [WebSocket.close, hcode]
    exact .answered _ _ (.disconnected inbox inbox false false true)
  | closing inbox unread final hdata hclose =>
    exact absurd (hagrees rfl (not_heard_append inbox final)).1 (by simp)
  | heard unread connect closed =>
    exact .answered _ _ (.disconnected [] unread true connect closed)
  | disconnected inbox unread ended connect closed =>
    exact .answered _ _ (.disconnected inbox unread ended connect closed)

theorem lockstep_arrive (message : WsMessage) :
    Lockstep Related (ws.arrive message) (other.arrive message) := by
  cases hrelated with
  | connecting => exact .unanswered
  | connected inbox hdata =>
    refine .answered _ _ ?_
    cases hclose : message.isClose with
    | true => exact .closing inbox [] message hdata hclose
    | false =>
      refine .connected (inbox ++ [message]) fun arrived hmem => ?_
      rcases List.mem_append.1 hmem with hbefore | hlast
      · exact hdata arrived hbefore
      · exact List.mem_singleton.1 hlast ▸ hclose
  | closing inbox unread final hdata hclose =>
    simp only [WebSocket.arrive, List.append_assoc, List.cons_append]
    exact .answered _ _ (.closing inbox (unread ++ [message]) final hdata hclose)
  | heard unread connect closed =>
    exact .answered _ _ (.heard (unread ++ [message]) connect closed)
  | disconnected inbox unread ended connect closed =>
    cases ended with
    | true => exact .answered _ _ (.disconnected inbox (unread ++ [message]) true connect closed)
    | false => exact .answered _ _ (.disconnected _ _ _ connect closed)

end Lockstep

variable {kind : RecvKind}

private theorem asgiReceive_eq {message : WsMessage}
    (hbinary : ∀ bytes, kind = .text → message = .binary bytes → bytes = [])
    (htext : ∀ text, kind = .bytes → message = .text text → text = "") :
    WebSocket.asgiReceive kind message = answer kind (.served message) := by
  cases kind with
  | dict => rfl
  | text =>
    cases message with
    | text text => rfl
    | close code reason => rfl
    | binary bytes =>
      rw [hbinary bytes rfl rfl]
      rfl
  | bytes =>
    cases message with
    | binary bytes => rfl
    | close code reason => rfl
    | text text =>
      rw [htext text rfl rfl]
      rfl

theorem lockstep_receive (hrelated : Related ws other) (hagrees : AgreesOn ws (.receive kind)) :
    Lockstep Related (ws.receive kind) (other.receive kind) := by
  cases hrelated with
  | connecting => exact absurd (hagrees nofun).1 nofun
  | heard unread connect closed => exact absurd heard_nil (hagrees nofun).2.1
  | disconnected inbox unread ended connect closed =>
    exact .answered _ _ (.disconnected inbox unread ended connect closed)
  | connected inbox hdata =>
    cases inbox with
    | nil => exact .unanswered
    | cons message rest =>
      obtain ⟨hbinary, htext⟩ := (hagrees nofun).2.2 message rfl
      obtain ⟨hopen, hrest⟩ := List.forall_mem_cons.1 hdata
      simp only [WebSocket.receive, asgiReceive_eq hbinary htext, hopen, Bool.and_false]
      exact .answered _ _ (.connected rest hrest)
  | closing inbox unread final hdata hclose =>
    cases inbox with
    | nil =>
      obtain ⟨hbinary, htext⟩ := (hagrees nofun).2.2 final rfl
      simp only [WebSocket.receive, List.nil_append, asgiReceive_eq hbinary htext, hclose]
      refine .answered _ _ ?_
      cases kind with
      | dict => exact .disconnected [] unread true false false
      | text | bytes => exact .heard unread false false
    | cons message rest =>
      obtain ⟨hbinary, htext⟩ := (hagrees nofun).2.2 message rfl
      obtain ⟨hopen, hrest⟩ := List.forall_mem_cons.1 hdata
      simp only [WebSocket.receive, List.cons_append, asgiReceive_eq hbinary htext, hopen,
        Bool.and_false]
      exact .answered _ _ (.closing rest unread final hrest hclose)

private theorem lockstep_send (hrelated : Related ws other) {text : Option String}
    {bytes : Option (List UInt8)} (hagrees : AgreesOn ws (.send (.send text bytes))) :
    Lockstep Related (ws.send (.send text bytes)) (other.send (.send text bytes)) := by
  cases hrelated with
  | connecting => exact .answered _ _ .connecting
  | disconnected inbox unread ended connect closed =>
    exact .answered _ _ (.disconnected inbox unread ended connect closed)
  | connected inbox hdata =>
    obtain ⟨rfl, rfl⟩ := (hagrees rfl).2 (not_heard_open inbox)
    exact .answered _ _ (.connected inbox hdata)
  | closing inbox unread final hdata hclose =>
    obtain ⟨rfl, rfl⟩ := (hagrees rfl).2 (not_heard_append inbox final)
    exact .answered _ _ (.closing inbox unread final hdata hclose)
  | heard unread connect closed =>
    have hpresent : ¬(text = none ∧ bytes = none) := fun hnone =>
      (hagrees rfl).1 hnone heard_nil
    cases text <;> cases bytes
    case none.none => exact absurd ⟨rfl, rfl⟩ hpresent
    all_goals exact .answered _ _ (.heard unread connect closed)

theorem lockstep_of_agrees (event : Event) (ws other : WebSocket) (hrelated : Related ws other)
    (hagrees : Agrees ws event) : Lockstep Related (step event ws) (step event other) := by
  cases event with
  | arrive message => exact lockstep_arrive hrelated message
  | op op =>
    cases op with
    | accept => exact lockstep_accept hrelated
    | sendText data | sendBytes data => exact lockstep_sendFrame hrelated _ hagrees
    | sendJson dumped mode => exact lockstep_sendJson hrelated hagrees
    | receive kind => exact lockstep_receive hrelated hagrees
    | close code reason => exact lockstep_close hrelated hagrees
    | send message =>
      cases message with
      | accept => exact lockstep_accept hrelated
      | other => exact .answered _ _ hrelated
      | close code reason =>
        exact lockstep_close hrelated (hagrees : AgreesOn ws (.close _ reason))
      | send text bytes => exact lockstep_send hrelated hagrees

/-- Nothing is sent once `_app_state` is `DISCONNECTED`. -/
theorem step_of_disconnected (event : Event) (hstate : ws.appState = .disconnected) :
    ∃ outcome next, step event ws = some ⟨outcome, [], next⟩ ∧ next.appState = .disconnected := by
  obtain ⟨appState, door, inbox⟩ := ws
  cases hstate
  cases event with
  | arrive message =>
    rcases door with (_ | _) | _ <;> exact ⟨_, _, rfl, rfl⟩
  | op op =>
    cases op with
    | send message => cases message <;> exact ⟨_, _, rfl, rfl⟩
    | sendJson dumped mode =>
      simp only [step, stepOp, WebSocket.sendJson]
      split <;> exact ⟨_, _, rfl, rfl⟩
    | _ => exact ⟨_, _, rfl, rfl⟩

theorem emissions_of_disconnected (events : List Event) {ws : WebSocket}
    (hstate : ws.appState = .disconnected) : emissions step events ws = [] := by
  induction events generalizing ws with
  | nil => rfl
  | cons event rest ih =>
    obtain ⟨outcome, next, hstep, hnext⟩ := step_of_disconnected event hstate
    rw [emissions, hstep]
    exact ih hnext

theorem asBytes_of_fromUtf8 {bytes : List UInt8} {text : String}
    (htext : fromUtf8 bytes = some text) : asBytes text = bytes := by
  unfold fromUtf8 String.fromUTF8? at htext
  split at htext <;> cases htext
  rfl

theorem eq_empty_of_asBytes {text : String} (hbytes : asBytes text = []) : text = "" := by
  apply String.toByteArray_inj.1
  apply ByteArray.ext
  exact Array.toList_eq_nil_iff.1 hbytes

section Alike

variable {rest : List Event} (hrelated : Related ws other)
include hrelated

theorem agrees_of_close_alike {op : Op} {code : Int} {reason : Option String}
    (hop : ∀ ws, stepOp op ws = WebSocket.close ws code reason)
    (halike : ObservedAlike step step (.op op :: rest) ws other) :
    AgreesOn ws (.close code reason) := by
  have hemitted := halike.2
  rw [emissions, emissions, step, step, hop, hop] at hemitted
  intro hstate hnot
  cases hrelated with
  | connecting | disconnected inbox unread ended connect closed => cases hstate
  | heard unread connect closed => exact absurd heard_nil hnot
  | connected inbox hdata =>
    refine ⟨rfl, ?_⟩
    cases hcode : WebSocket.isU16 code with
    | true => rfl
    | false =>
      simp [WebSocket.close, WebSocket.returns, hcode, emissions_of_disconnected] at hemitted
  | closing inbox unread final hdata hclose =>
    simp [WebSocket.close, WebSocket.returns, emissions_of_disconnected] at hemitted

omit hrelated in
private theorem agrees_of_receive_eq {message : WsMessage}
    (hsame : WebSocket.result (answer kind (.served message)) =
      WebSocket.result (WebSocket.asgiReceive kind message)) :
    (∀ bytes, kind = .text → message = .binary bytes → bytes = []) ∧
      ∀ text, kind = .bytes → message = .text text → text = "" := by
  constructor
  · rintro bytes rfl rfl
    cases htext : fromUtf8 bytes with
    | none => simp [answer, surface, htext, WebSocket.result, WebSocket.asgiReceive] at hsame
    | some text =>
      simp only [answer, surface, htext] at hsame
      cases hsame
      rw [← asBytes_of_fromUtf8 htext]
      rfl
  · rintro text rfl rfl
    refine eq_empty_of_asBytes ?_
    simpa [answer, surface, WebSocket.result, WebSocket.asgiReceive] using hsame

theorem agrees_of_receive_alike
    (halike : ObservedAlike step step (.op (.receive kind) :: rest) ws other) :
    AgreesOn ws (.receive kind) := by
  have houtcome := halike.outcome_eq
  cases hrelated with
  | connecting | heard unread connect closed => cases kind <;> cases houtcome
  | disconnected inbox unread ended connect closed => exact absurd rfl
  | connected inbox hdata =>
    refine fun _ => ⟨rfl, not_heard_open inbox, fun message hhead => ?_⟩
    obtain ⟨later, rfl⟩ := List.head?_eq_some_iff.1 hhead
    exact agrees_of_receive_eq (Option.some.inj houtcome)
  | closing inbox unread final hdata hclose =>
    refine fun _ => ⟨rfl, not_heard_append inbox final, fun message hhead => ?_⟩
    cases inbox with
    | nil =>
      cases hhead
      exact agrees_of_receive_eq (Option.some.inj houtcome)
    | cons first later =>
      cases hhead
      exact agrees_of_receive_eq (Option.some.inj houtcome)

theorem agrees_of_send_alike {text : Option String} {bytes : Option (List UInt8)}
    (halike : ObservedAlike step step (.op (.send (.send text bytes)) :: rest) ws other) :
    AgreesOn ws (.send (.send text bytes)) := by
  have houtcome := halike.outcome_eq
  intro hstate
  cases hrelated with
  | connecting | disconnected inbox unread ended connect closed => cases hstate
  | connected inbox hdata | closing inbox unread final hdata hclose
  | heard unread connect closed =>
    cases text <;> cases bytes <;> cases houtcome <;>
      simp [not_heard_open, not_heard_append, heard_nil]

theorem not_closing_of_send_alike {op : Op} (frame : Frame)
    (hop : ∀ ws, ws.appState = .connected → stepOp op ws = WebSocket.sendFrame ws frame)
    (halike : ObservedAlike step step (.op op :: rest) ws other) : ¬ws.Closing := by
  have houtcome := halike.outcome_eq
  rintro ⟨hstate, hdoor, hinbox⟩
  cases hrelated with
  | connecting | disconnected inbox unread ended connect closed => cases hstate
  | connected inbox hdata => cases hdoor
  | heard unread connect closed => exact hinbox rfl
  | closing inbox unread final hdata hclose =>
    rw [step, step, hop _ rfl, hop _ rfl] at houtcome
    cases houtcome

private theorem agrees_of_sendJson_alike {dumped : Outcome String ErrorClass} {mode : String}
    (halike : ObservedAlike step step (.op (.sendJson dumped mode) :: rest) ws other) :
    AgreesOn ws (.sendJson dumped mode) := by
  intro hmode
  cases dumped with
  | returned text =>
    refine not_closing_of_send_alike hrelated
      (if mode = "text" then .text text else .bytes (asBytes text)) (fun ws hstate => ?_) halike
    simp only [stepOp, WebSocket.sendJson, hmode, hstate, not_true, ne_eq, if_false]
  | raised error =>
    have houtcome := halike.outcome_eq
    rintro ⟨hstate, hdoor, hinbox⟩
    cases hrelated with
    | connecting | disconnected inbox unread ended connect closed => cases hstate
    | connected inbox hdata => cases hdoor
    | closing inbox unread final hdata hclose => simp at hinbox
    | heard unread connect closed =>
      simpa [step, stepOp, WebSocket.sendJson, hmode, WebSocket.raises] using houtcome

private theorem agrees_of_alike {event : Event}
    (halike : ObservedAlike step step (event :: rest) ws other) : Agrees ws event := by
  cases event with
  | arrive message => exact trivial
  | op op =>
    cases op with
    | accept => exact trivial
    | sendText data =>
      refine not_closing_of_send_alike hrelated (.text data) (fun ws hstate => ?_) halike
      simp only [stepOp, WebSocket.sendText, hstate, ne_eq, not_true, if_false]
    | sendBytes data =>
      refine not_closing_of_send_alike hrelated (.bytes data) (fun ws hstate => ?_) halike
      simp only [stepOp, WebSocket.sendBytes, hstate, ne_eq, not_true, if_false]
    | sendJson dumped mode => exact agrees_of_sendJson_alike hrelated halike
    | receive kind => exact agrees_of_receive_alike hrelated halike
    | close code reason => exact agrees_of_close_alike hrelated (fun _ => rfl) halike
    | send message =>
      cases message with
      | accept | other => exact trivial
      | send text bytes => exact agrees_of_send_alike hrelated halike
      | close code reason =>
        have hagrees : AgreesOn ws (.close (code.getD 1000) reason) :=
          agrees_of_close_alike hrelated (fun _ => rfl) halike
        exact hagrees

end Alike

def lowLevelScript : List Event :=
  [.op .accept, .op (.send (.send (some "hi") none))]

/-- The client says hello and closes before the script has answered. -/
def helloAndClose : List Event :=
  [.op .accept, .arrive (.text "hello"), .arrive (.close 1000 ""), .op (.receive .text),
    .op (.sendText "hi")]

end FastapiTurbo.WebSocketScripts
