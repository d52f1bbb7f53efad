import FastapiTurbo.WebSocketOutbound

/-! The order in which the frames of a handler get to the sink of its WebSocket. -/
namespace FastapiTurbo.WebSocketOrder

open Lib WebSocketOutbound List
open WebSocketInbound (WsMessage)

@[simp] theorem frames_nil : frames [] = [] := rfl

@[simp] theorem frames_cons (command : Cmd) (rest : List Cmd) :
    frames (command :: rest) = command.frame.toList ++ frames rest := by
  cases command <;> rfl

@[simp] theorem frames_append (frame back : List Cmd) :
    frames (frame ++ back) = frames frame ++ frames back :=
  filterMap_append

def held : Task → List WsMessage
  | .locking frame | .writing frame => [frame]
  | _ => []

def taskCount : Task → Nat
  | .locking _ | .writing _ | .written _ _ => 1
  | _ => 0

def carried : Handler → List WsMessage
  | .loading frame | .trying frame | .counting frame | .pushing frame => [frame]
  | .countingSeq cmds | .queueing cmds => frames cmds
  | .idle | .awaiting => []

def handlerCount : Handler → Nat
  | .pushing _ => 1
  | .queueing cmds => (frames cmds).length
  | _ => 0

/-- The handler is in no operation, or in one that is left to a waiter. -/
def Rests : Handler → Prop
  | .idle | .awaiting => True
  | _ => False

def waiting (waiters : List Waiter) : List WsMessage :=
  frames (waiters.flatMap Waiter.cmds)

/-- The frames that were sent and are still to be written, in the order in which they
will be. -/
def onTheWay (socket : Socket) : List WsMessage :=
  held socket.task ++ frames socket.channel ++ waiting socket.waiters ++ carried socket.handler

def owed (socket : Socket) : Nat :=
  taskCount socket.task + (frames socket.channel).length + (waiting socket.waiters).length +
    handlerCount socket.handler

def Left : Task → Prop
  | .leaving | .draining | .taking | .gone => True
  | _ => False

/-- No frame is accepted any more: the sink takes none, or the select task writes none
and the count of what it left behind keeps the handler from the sink. -/
def Blocked (socket : Socket) : Prop :=
  socket.sink = .refusing ∨ socket.sink = .taken ∨
    Left socket.task ∧ owed socket < socket.queued

structure Ordered (socket : Socket) : Prop where
  owed_le : owed socket ≤ socket.queued
  /-- There is at most one waiter, and the handler does nothing beside it. -/
  alone : socket.waiters = [] ∨ Rests socket.handler ∧ ∃ waiter, socket.waiters = [waiter]
  unbounded : socket.capacity = none → socket.waiters = []
  closed_left : socket.closed = true → Left socket.task
  /-- Nothing is lost, or nothing can follow what was. -/
  flows : socket.issued = socket.accepted ++ onTheWay socket ∨
    socket.accepted <+: socket.issued ∧ Blocked socket
  /-- A Close frame is the last one that is accepted. -/
  close_last : (∀ frame ∈ socket.accepted, frame.isClose = false) ∨
    Blocked socket ∧ ∀ frame ∈ socket.accepted.dropLast, frame.isClose = false

theorem ordered_initial (loopMode direct : Bool) : Ordered (.initial loopMode direct) where
  owed_le := Nat.le_refl 0
  alone := .inl rfl
  unbounded := fun _ => rfl
  closed_left := nofun
  flows := .inl rfl
  close_last := .inl nofun

variable {socket : Socket}

theorem Ordered.isPrefix (ho : Ordered socket) : socket.accepted <+: socket.issued := by
  rcases ho.flows with hf | ⟨hcut, -⟩
  · exact ⟨onTheWay socket, hf.symm⟩
  · exact hcut

theorem Ordered.no_close_before_last (ho : Ordered socket) :
    ∀ frame ∈ socket.accepted.dropLast, frame.isClose = false := by
  rcases ho.close_last with hn | ⟨-, hl⟩
  · exact fun frame hmem => hn frame (dropLast_subset _ hmem)
  · exact hl

structure Shaped (socket : Socket) : Prop where
  alone : socket.waiters = [] ∨ Rests socket.handler ∧ ∃ waiter, socket.waiters = [waiter]
  unbounded : socket.capacity = none → socket.waiters = []
  closed_left : socket.closed = true → Left socket.task

theorem Shaped.of_nil (hw : socket.waiters = []) (hc : socket.closed = true → Left socket.task) :
    Shaped socket :=
  ⟨.inl hw, fun _ => hw, hc⟩

variable {next : Socket}

theorem Ordered.moved (hordered : Ordered socket) (ha : next.accepted = socket.accepted)
    (hissued : next.issued = socket.issued) (hs : Shaped next)
    (ho : owed next ≤ next.queued) (hb : Blocked socket → Blocked next)
    (hway : onTheWay next = onTheWay socket ∨ Blocked next) : Ordered next where
  owed_le := ho
  alone := hs.alone
  unbounded := hs.unbounded
  closed_left := hs.closed_left
  flows := by
    rw [ha, hissued]
    rcases hway with hway | hway
    · rw [hway]
      exact hordered.flows.imp_right fun hcut => ⟨hcut.1, hb hcut.2⟩
    · exact .inr ⟨hordered.isPrefix, hway⟩
  close_last := by
    rw [ha]
    exact hordered.close_last.imp_right fun hl => ⟨hb hl.1, hl.2⟩

variable {frame : WsMessage}

theorem Ordered.wrote (hordered : Ordered socket) (hs : socket.sink = .writable)
    (hl : ¬(Left socket.task ∧ owed socket < socket.queued))
    (ha : next.accepted = socket.accepted ++ [frame])
    (hissued : next.issued = socket.issued) (hshaped : Shaped next)
    (hway : onTheWay socket = frame :: onTheWay next)
    (howe : owed next ≤ next.queued) (hc : frame.isClose = true → next.sink = .refusing) :
    Ordered next := by
  have ho : ¬Blocked socket := by
    rintro (hr | ht | hb)
    · rw [hs] at hr
      cases hr
    · rw [hs] at ht
      cases ht
    · exact hl hb
  have hfl : socket.issued = socket.accepted ++ onTheWay socket :=
    hordered.flows.resolve_right fun hcut => ho hcut.2
  have hn : ∀ other ∈ socket.accepted, other.isClose = false :=
    hordered.close_last.resolve_right fun hlast => ho hlast.1
  refine { hshaped with owed_le := howe, flows := .inl ?_, close_last := ?_ }
  · rw [hissued, hfl, hway, ha, append_assoc]
    rfl
  · rw [ha]
    cases hf : frame.isClose with
    | false =>
      refine .inl fun other hmem => ?_
      rcases mem_append.1 hmem with hold | hnew
      · exact hn other hold
      · rw [mem_singleton.1 hnew, hf]
    | true => exact .inr ⟨.inl (hc hf), by simpa using hn⟩

theorem write_cases (socket : Socket) (frame : WsMessage) (attempt : Attempt) :
    (∃ sink ok, socket.sink = .writable ∧ (frame.isClose = true → sink = .refusing) ∧
        socket.write frame attempt =
          ({ socket with sink, accepted := socket.accepted ++ [frame] }, ok)) ∨
      ∃ sink, (socket.sink = .writable → sink = .refusing) ∧
        (socket.sink ≠ .writable → sink = socket.sink) ∧
        socket.write frame attempt = ({ socket with sink }, false) := by
  cases hs : socket.sink with
  | writable =>
    cases attempt with
    | accepted =>
      refine .inl ⟨if frame.isClose then .refusing else .writable, true, rfl, ?_, ?_⟩
      · intro hc
        rw [if_pos hc]
      · simp [Socket.write, hs]
    | acceptedThenFailed =>
      exact .inl ⟨.refusing, false, rfl, fun _ => rfl, by simp [Socket.write, hs]⟩
    | failed | notReady =>
      exact .inr ⟨.refusing, fun _ => rfl, fun hne => absurd rfl hne, by simp [Socket.write, hs]⟩
  | absent | refusing | taken =>
    have hw : socket.write frame attempt = (socket, false) := by
      simp only [Socket.write, hs]
    exact .inr ⟨socket.sink, by simp [hs], fun _ => hs, hw⟩

theorem Blocked.of_sink (hb : Blocked socket) (hs : socket.sink = .refusing ∨ socket.sink = .taken →
      next.sink = .refusing ∨ next.sink = .taken) (hl : Left socket.task → Left next.task)
    (ho : Left socket.task → owed socket < socket.queued → owed next < next.queued) :
    Blocked next := by
  rcases hb with hr | hta | ⟨ht, hleft⟩
  · exact (hs (.inl hr)).elim .inl fun h => .inr (.inl h)
  · exact (hs (.inr hta)).elim .inl fun h => .inr (.inl h)
  · exact .inr (.inr ⟨hl ht, ho ht hleft⟩)

/-- With `queued` at 0 there is nothing ahead of the handler. -/
theorem nothing_ahead_of_queued_eq_zero (hordered : Ordered socket) (hq : socket.queued = 0) :
    held socket.task ++ frames socket.channel ++ waiting socket.waiters = [] := by
  have ho := hordered.owed_le
  simp only [owed] at ho
  have hc : frames socket.channel = [] := length_eq_zero_iff.1 (by omega)
  have hw : waiting socket.waiters = [] := length_eq_zero_iff.1 (by omega)
  have hh : held socket.task = [] := by
    cases ht : socket.task <;> simp_all [taskCount, held]
  rw [hh, hc, hw]
  rfl

theorem Ordered.waiters_eq_nil (hordered : Ordered socket) (hrests : ¬Rests socket.handler) :
    socket.waiters = [] :=
  hordered.alone.resolve_right fun ho => hrests ho.1

variable {current : Handler}

theorem Ordered.goOn (hordered : Ordered socket) (hhandler : socket.handler = current)
    {handler : Handler} (hc : carried handler = carried current)
    (hcount : handlerCount handler = handlerCount current)
    (hrests : Rests current → Rests handler) :
    Ordered { socket with handler } := by
  subst hhandler
  have ho : owed { socket with handler } = owed socket := by simp only [owed, hcount]
  refine hordered.moved rfl rfl ⟨?_, hordered.unbounded, hordered.closed_left⟩ ?_ ?_ (.inl ?_)
  · exact hordered.alone.imp_right fun hother => ⟨hrests hother.1, hother.2⟩
  · rw [ho]
    exact hordered.owed_le
  · refine fun hb => hb.of_sink id id fun _ hl => ?_
    rw [ho]
    exact hl
  · simp only [onTheWay, hc]

theorem Ordered.tryDirectSend (hordered : Ordered socket)
    (hhandler : socket.handler = .trying frame) (attempt : Attempt) :
    Ordered (socket.tryDirectSend frame attempt) := by
  have hc : carried socket.handler = [frame] := by rw [hhandler]; rfl
  have hwa := hordered.waiters_eq_nil (by rw [hhandler]; exact id)
  unfold Socket.tryDirectSend
  split
  · next hg =>
    simp only [Bool.and_eq_true, beq_iff_eq] at hg
    have hq : socket.queued = 0 := hg.1.1.2
    have ho := hordered.owed_le
    have ha := nothing_ahead_of_queued_eq_zero hordered hq
    rcases write_cases socket frame attempt with
      ⟨sink, ok, hs, hclosed, hw⟩ | ⟨sink, hope, hother, hw⟩
    · rw [hw]
      refine hordered.wrote hs ?_ rfl rfl (.of_nil hwa hordered.closed_left) ?_ ?_ hclosed
      · rintro ⟨-, hl⟩
        omega
      · simp only [onTheWay, ha, hc]
        rfl
      · simp only [owed, hhandler] at ho ⊢
        exact ho
    · rw [hw]
      -- The frame is lost, with a sink that takes no other.
      have hb : Blocked { socket with sink, handler := .idle } := by
        cases hs : socket.sink with
        | writable => exact .inl (hope hs)
        | refusing => exact .inl ((hother (by simp [hs])).trans hs)
        | absent | taken => simp [Socket.published, hs] at hg
      refine hordered.moved rfl rfl (.of_nil hwa hordered.closed_left) ?_ (fun _ => hb)
        (.inr hb)
      simp only [owed, hhandler] at ho ⊢
      exact ho
  · exact hordered.goOn hhandler rfl rfl id

section

variable (hordered : Ordered socket) (hh : socket.handler = current) (hr : ¬Rests current)
include hordered hh hr

theorem Ordered.counted {handler : Handler} (more : Nat) (hc : carried handler = carried current)
    (hcount : handlerCount handler = handlerCount current + more) :
    Ordered { socket with queued := socket.queued + more, handler } := by
  subst hh
  have ho := hordered.owed_le
  have hm : owed { socket with queued := socket.queued + more, handler } = owed socket + more := by
    simp only [owed]
    omega
  have hw := hordered.waiters_eq_nil hr
  refine hordered.moved rfl rfl (.of_nil hw hordered.closed_left) ?_ ?_ (.inl ?_)
  · rw [hm]
    exact Nat.add_le_add_right ho more
  · refine fun hb => hb.of_sink id id fun _ hl => ?_
    rw [hm]
    exact Nat.add_lt_add_right hl more
  · simp only [onTheWay, hc]

theorem Ordered.refused (command : Cmd) {handler : Handler} (hc : socket.closed = true)
    (hcarried : carried current = command.frame.toList ++ carried handler)
    (hcount : handlerCount current = command.frame.toList.length + handlerCount handler) :
    Ordered { socket with handler } := by
  subst hh
  have ho := hordered.owed_le
  have hw := hordered.waiters_eq_nil hr
  have hl : owed { socket with handler } + command.frame.toList.length = owed socket := by
    simp only [owed]
    omega
  refine hordered.moved rfl rfl (.of_nil hw hordered.closed_left) ?_ ?_ ?_
  · exact Nat.le_trans (by omega) ho
  · exact fun hb => hb.of_sink id id fun _ hold => Nat.lt_of_le_of_lt (by omega) hold
  · cases hf : command.frame with
    | none => exact .inl (by simp [onTheWay, hcarried, hf])
    | some frame =>
      refine .inr (.inr (.inr ⟨hordered.closed_left hc, Nat.lt_of_lt_of_le ?_ ho⟩))
      rw [hf, Option.toList_some, length_singleton] at hl
      omega

theorem Ordered.pushed {command : Cmd} {handler : Handler}
    (hc : carried current = command.frame.toList ++ carried handler)
    (hcount : handlerCount current = command.frame.toList.length + handlerCount handler) :
    Ordered { socket with channel := socket.channel ++ [command], handler } := by
  subst hh
  have hw := hordered.waiters_eq_nil hr
  have hs : owed { socket with channel := socket.channel ++ [command], handler } = owed socket := by
    simp only [owed, frames_append, frames_cons, frames_nil, append_nil, length_append]
    omega
  refine hordered.moved rfl rfl (.of_nil hw hordered.closed_left) ?_ ?_ (.inl ?_)
  · exact hs ▸ hordered.owed_le
  · exact fun hb => hb.of_sink id id fun _ hold => hs ▸ hold
  · simp [onTheWay, hc, hw, waiting]

theorem Ordered.deferred {cmds : List Cmd} {handler : Handler} {awaited : Bool}
    (hf : socket.full = true) (hn : Rests handler) (hc : carried current = frames cmds)
    (hcount : handlerCount current = (frames cmds).length) :
    Ordered { socket with waiters := socket.waiters ++ [⟨cmds, awaited⟩], handler } := by
  subst hh
  have hw := hordered.waiters_eq_nil hr
  have hno : carried handler = [] ∧ handlerCount handler = 0 := by
    cases handler <;> first | exact ⟨rfl, rfl⟩ | exact hn.elim
  have hs : owed { socket with waiters := socket.waiters ++ [⟨cmds, awaited⟩], handler } =
      owed socket := by
    simp [owed, hw, waiting, hcount, hno.2]
  refine hordered.moved rfl rfl ⟨.inr ⟨hn, ⟨cmds, awaited⟩, ?_⟩, ?_, hordered.closed_left⟩ ?_ ?_
    (.inl ?_)
  · simp [hw]
  · intro hcarried
    rw [Socket.full, show socket.capacity = none from hcarried] at hf
    cases hf
  · exact hs ▸ hordered.owed_le
  · exact fun hb => hb.of_sink id id fun _ hold => hs ▸ hold
  · simp [onTheWay, hc, waiting, hno.1]

end

theorem Ordered.handlerStep (hordered : Ordered socket) {attempt : Attempt}
    (hs : socket.handlerStep attempt = some next) : Ordered next := by
  unfold Socket.handlerStep at hs
  split at hs
  case h_1 => cases hs
  case h_2 frame hhandler =>
    split at hs <;> cases hs
    · exact hordered.goOn hhandler rfl rfl id
    · exact hordered.goOn hhandler rfl rfl id
  case h_3 frame hhandler =>
    cases hs
    exact hordered.tryDirectSend hhandler attempt
  case h_4 frame hhandler =>
    cases hs
    exact hordered.counted hhandler id 1 rfl rfl
  case h_5 frame hhandler =>
    split at hs
    · next hc =>
      cases hs
      exact hordered.refused hhandler id (.send frame) hc rfl rfl
    · split at hs <;> cases hs
      · next hf => exact hordered.deferred hhandler id hf trivial rfl rfl
      · exact hordered.pushed hhandler id rfl rfl
  case h_6 hhandler =>
    split at hs <;> cases hs
    exact hordered.goOn hhandler rfl rfl fun _ => trivial
  case h_7 cmds hhandler =>
    cases hs
    exact hordered.counted hhandler id _ rfl (by simp [handlerCount])
  case h_8 hhandler =>
    cases hs
    exact hordered.goOn hhandler rfl rfl fun _ => trivial
  case h_9 command rest hhandler =>
    have hcarried := frames_cons command rest
    have hcount : handlerCount (.queueing (command :: rest)) =
        command.frame.toList.length + handlerCount (.queueing rest) := by
      simp [handlerCount]
    split at hs
    · next hc =>
      cases hs
      exact hordered.refused hhandler id command hc hcarried hcount
    · split at hs <;> cases hs
      · next hf => exact hordered.deferred hhandler id hf trivial rfl rfl
      · exact hordered.pushed hhandler id hcarried hcount

theorem Ordered.shifted (hordered : Ordered socket) (ha : next.accepted = socket.accepted)
    (hissued : next.issued = socket.issued) (hq : next.queued = socket.queued) (hs : Shaped next)
    (ho : owed next ≤ owed socket) (hsink : socket.sink = .refusing ∨ socket.sink = .taken →
      next.sink = .refusing ∨ next.sink = .taken) (hleft : Left socket.task → Left next.task)
    (hway : onTheWay next = onTheWay socket ∨ Left next.task ∧ owed next < owed socket) :
    Ordered next := by
  refine hordered.moved ha hissued hs ?_ ?_ ?_
  · rw [hq]
    exact Nat.le_trans ho hordered.owed_le
  · refine fun hb => hb.of_sink hsink hleft fun _ hles => ?_
    rw [hq]
    exact Nat.lt_of_le_of_lt ho hles
  · refine hway.imp_right fun hl => .inr (.inr ⟨hl.1, ?_⟩)
    rw [hq]
    exact Nat.lt_of_lt_of_le hl.2 hordered.owed_le

theorem Ordered.deliver (hordered : Ordered socket) {index : Nat}
    (hs : socket.deliver index = some next) : Ordered next := by
  unfold Socket.deliver at hs
  split at hs
  case h_1 => cases hs
  case h_2 waiter hwa =>
    obtain ⟨hrests, hw⟩ : Rests socket.handler ∧ socket.waiters = [waiter] ∧ index = 0 := by
      rcases hordered.alone with hn | ⟨hrests, only, ho⟩
      · simp [hn] at hwa
      · rw [ho] at hwa ⊢
        cases index with
        | zero => exact ⟨hrests, by simpa using hwa, rfl⟩
        | succ index => simp at hwa
    obtain ⟨hw, rfl⟩ := hw
    split at hs
    case h_1 hc =>
      cases hs
      refine hordered.shifted rfl rfl rfl (.of_nil ?_ hordered.closed_left) ?_ id id (.inl ?_)
      all_goals simp [owed, onTheWay, hw, waiting, hc]
    case h_2 command rest hc =>
      split at hs
      · next hclosed =>
        cases hs
        have howe : owed { socket with waiters := socket.waiters.eraseIdx 0 } +
            (frames (command :: rest)).length = owed socket := by
          simp only [owed, hw, waiting, eraseIdx_cons_zero, flatMap_cons,
            flatMap_nil, append_nil, hc, frames_nil, length_nil]
          omega
        refine hordered.shifted rfl rfl rfl (.of_nil ?_ hordered.closed_left) (by omega) id id ?_
        · simp [hw]
        · cases hf : frames (command :: rest) with
          | nil => exact .inl (by simp [onTheWay, hw, waiting, hc, hf])
          | cons frame more =>
            rw [hf, length_cons] at howe
            exact .inr ⟨hordered.closed_left hclosed, by omega⟩
      · split at hs <;> cases hs
        refine hordered.shifted rfl rfl rfl ⟨.inr ⟨hrests, { waiter with cmds := rest }, ?_⟩, ?_,
          hordered.closed_left⟩ ?_ id id (.inl ?_)
        · simp [hw]
        · intro hcarried
          simp [hordered.unbounded hcarried] at hw
        · simp [owed, hw, waiting, hc]
          omega
        · simp [onTheWay, hw, waiting, hc]

def Published (socket : Socket) : Prop :=
  socket.sink = .absent → socket.task = .absent

variable {now : Task}

section

variable (hordered : Ordered socket)
include hordered

theorem Ordered.taskOn (ht : socket.task = now) {sink : Sink} {holder : Holder} {task : Task}
    (hs : socket.sink = .refusing ∨ socket.sink = .taken → sink = .refusing ∨ sink = .taken)
    (hh : held task = held now) (hc : taskCount task = taskCount now)
    (hl : Left now → Left task) : Ordered { socket with sink, holder, task } := by
  subst ht
  refine hordered.shifted rfl rfl rfl ⟨hordered.alone, hordered.unbounded, ?_⟩ ?_ hs hl
    (.inl ?_)
  · exact fun hclosed => hl (hordered.closed_left hclosed)
  · simp only [owed, hc, Nat.le_refl]
  · simp only [onTheWay, hh]

/-- The first command of the channel is taken out by the loop, which has its frame then,
or by `drain_next`, which drops it. -/
theorem Ordered.popped {command : Cmd} {rest : List Cmd} (hc : socket.channel = command :: rest)
    (ht : socket.task = now) {task : Task} (hh : held now = []) (hcount : taskCount now = 0)
    (hl : Left now → Left task)
    (hn : held task = command.frame.toList ∧ taskCount task = command.frame.toList.length ∨
      Left task ∧ held task = [] ∧ taskCount task = 0) :
    Ordered { socket with channel := rest, task } := by
  subst ht
  have hb : owed socket = command.frame.toList.length +
      owed { socket with channel := rest, task } - taskCount task := by
    simp only [owed, hc, frames_cons, length_append]
    omega
  refine hordered.shifted rfl rfl rfl ⟨hordered.alone, hordered.unbounded, ?_⟩ ?_ id hl ?_
  · exact fun hclosed => hl (hordered.closed_left hclosed)
  · rcases hn with ⟨-, hn⟩ | ⟨-, -, hn⟩ <;> omega
  · rcases hn with ⟨hn, -⟩ | ⟨hg, hn, hz⟩
    · exact .inl (by simp [onTheWay, hn, hh, hc])
    · cases hf : command.frame with
      | none => exact .inl (by simp [onTheWay, hn, hh, hc, hf])
      | some frame =>
        rw [hf, Option.toList_some, length_singleton] at hb
        exact .inr ⟨hg, by omega⟩

theorem Ordered.taskWrite (hp : Published socket) (ht : socket.task = .writing frame)
    (attempt : Attempt) :
    Ordered { (socket.write frame attempt).1 with
      holder := .nobody, task := .written frame (socket.write frame attempt).2 } := by
  have ho := hordered.owed_le
  have hc : socket.closed ≠ true := fun hc => by
    simpa [ht, Left] using hordered.closed_left hc
  rcases write_cases socket frame attempt with
    ⟨sink, ok, hs, hclosed, hw⟩ | ⟨sink, hope, hother, hw⟩
  · rw [hw]
    refine hordered.wrote hs ?_ rfl rfl
      ⟨hordered.alone, hordered.unbounded, fun h => absurd h hc⟩ ?_ ?_ hclosed
    · simp [ht, Left]
    · simp [onTheWay, ht, held]
    · simpa [owed, ht, taskCount] using ho
  · rw [hw]
    have hb : sink = .refusing ∨ sink = .taken := by
      cases hs : socket.sink with
      | writable => exact .inl (hope hs)
      | refusing => exact .inl ((hother (by simp [hs])).trans hs)
      | taken => exact .inr ((hother (by simp [hs])).trans hs)
      | absent =>
        have ha := hp hs
        rw [ht] at ha
        cases ha
    have hn : Blocked { socket with sink, holder := .nobody, task := .written frame false } :=
      hb.imp_right .inl
    refine hordered.moved rfl rfl
      ⟨hordered.alone, hordered.unbounded, fun h => absurd h hc⟩ ?_ (fun _ => hn) (.inr hn)
    simpa [owed, ht, taskCount] using ho

/-- `queued.fetch_sub` after a write. -/
theorem Ordered.uncounted {sentOk : Bool} (ht : socket.task = .written frame sentOk)
    (task : Task) (hh : held task = []) (hcount : taskCount task = 0) :
    Ordered { socket with queued := socket.queued - 1, task } := by
  have ho := hordered.owed_le
  have hb : held socket.task = [] ∧ taskCount socket.task = 1 := by
    rw [ht]
    exact ⟨rfl, rfl⟩
  have hl : owed { socket with queued := socket.queued - 1, task } + 1 = owed socket := by
    simp only [owed]
    omega
  refine hordered.moved rfl rfl ⟨hordered.alone, hordered.unbounded, ?_⟩ ?_ ?_ (.inl ?_)
  · exact fun hc => by simpa [ht, Left] using hordered.closed_left hc
  · exact Nat.le_sub_of_add_le (by omega)
  · refine fun hblocked => hblocked.of_sink id ?_ ?_
    · simp [ht, Left]
    · simp [ht, Left]
  · simp only [onTheWay, hh, hb.1]

theorem Ordered.taskStep (hp : Published socket) {attempt : Attempt}
    (hs : socket.taskStep attempt = some next) : Ordered next := by
  unfold Socket.taskStep at hs
  split at hs
  case h_1 | h_2 | h_3 => cases hs
  case h_4 frame ht =>
    split at hs <;> cases hs
    exact hordered.taskOn ht id rfl rfl id
  case h_5 frame ht =>
    cases hs
    exact hordered.taskWrite hp ht attempt
  case h_6 frame sentOk ht =>
    cases hs
    refine hordered.uncounted ht _ ?_ ?_
    all_goals cases sentOk <;> cases frame.isClose <;> rfl
  case h_7 ht | h_8 ht =>
    split at hs <;> cases hs
    all_goals exact hordered.taskOn ht (by simp [*]) rfl rfl fun _ => trivial
  case h_9 ht =>
    cases hs
    refine hordered.shifted rfl rfl rfl ⟨hordered.alone, hordered.unbounded, fun _ => trivial⟩ ?_ id
      (fun _ => trivial) (.inl ?_)
    · simp [owed, taskCount]
    · simp [onTheWay, ht, held]
  case h_10 ht =>
    split at hs <;> cases hs
    · next command rest hc =>
      exact ht ▸ hordered.popped hc ht rfl rfl id (.inr ⟨trivial, rfl, rfl⟩)
    · exact hordered.taskOn ht id rfl rfl fun _ => trivial
  case h_11 ht =>
    split at hs <;> cases hs
    exact hordered.taskOn ht (fun _ => .inr rfl) rfl rfl fun _ => trivial

theorem Ordered.issue (hw : socket.waiters = []) {handler : Handler}
    (hc : carried handler = [frame]) (hcount : handlerCount handler = 0)
    (hs : socket.issue frame handler = some next) : Ordered next := by
  unfold Socket.issue at hs
  split at hs <;> cases hs
  next hidl =>
  have hr : carried socket.handler = [] ∧ handlerCount socket.handler = 0 := by
    rw [hidl]
    exact ⟨rfl, rfl⟩
  have ho : owed { socket with issued := socket.issued ++ [frame], handler } = owed socket := by
    simp only [owed, hcount, hr.2]
  have hb : Blocked socket →
      Blocked { socket with issued := socket.issued ++ [frame], handler } := fun hb =>
    hb.of_sink id id fun _ hleft => ho ▸ hleft
  refine ⟨ho ▸ hordered.owed_le, .inl hw, fun _ => hw, hordered.closed_left, ?_, ?_⟩
  · refine hordered.flows.imp (fun hf => ?_) fun hcut => ⟨?_, hb hcut.2⟩
    · simp only [hf, onTheWay, hc, hr.1, append_nil, append_assoc]
    · exact hcut.1.trans (prefix_append _ _)
  · exact hordered.close_last.imp_right fun hl => ⟨hb hl.1, hl.2⟩

end

/-- Thread mode apart, an operation that sends is begun when the commands of the earlier
ones are in the channel. -/
def Unhindered (socket : Socket) : Action → Prop
  | .send _ | .close _ _ | .closeAndWait _ _ => socket.capacity = none ∨ socket.waiters = []
  | _ => True

instance (socket : Socket) : (action : Action) → Decidable (Unhindered socket action)
  | .send _ | .close _ _ | .closeAndWait _ _ =>
    inferInstanceAs (Decidable (socket.capacity = none ∨ socket.waiters = []))
  | .handler _ | .deliver _ | .upgrade | .recv | .peerClose | .stop | .task _ | .flushLock
  | .flushUnlock | .fail => .isTrue trivial

private theorem sink_of_write_absent (socket : Socket) (frame : WsMessage) (attempt : Attempt)
    (hs : (socket.write frame attempt).1.sink = .absent) :
    socket.sink = .absent ∧ socket.write frame attempt = (socket, false) := by
  unfold Socket.write at hs ⊢
  split at hs <;> simp_all
  split at hs <;> cases hs

theorem published_step {action : Action} (hp : Published socket)
    (hs : step action socket = some next) : Published next := by
  unfold Published at *
  have hw := sink_of_write_absent socket
  cases action with
  | handler attempt => grind [step, Socket.handlerStep, Socket.tryDirectSend]
  | task attempt => grind [step, Socket.taskStep]
  | _ => grind [step, Socket.issue, Socket.deliver]

private theorem ordered_step {action : Action} (ho : Ordered socket) (hp : Published socket)
    (hu : Unhindered socket action) (hs : step action socket = some next) : Ordered next := by
  have hn : socket.capacity = none ∨ socket.waiters = [] → socket.waiters = [] :=
    fun h => h.elim ho.unbounded id
  cases action with
  | send frame =>
    simp only [step] at hs
    split at hs
    · cases hs
    · exact ho.issue (hn hu) rfl rfl hs
  | close code reason | closeAndWait code reason =>
    exact ho.issue (hn hu) rfl rfl hs
  | handler attempt => exact ho.handlerStep hs
  | deliver index => exact ho.deliver hs
  | upgrade =>
    simp only [step] at hs
    split at hs <;> cases hs
    next ht hsink =>
    exact ho.taskOn ht (by simp [hsink]) rfl rfl id
  | recv =>
    simp only [step] at hs
    split at hs <;> cases hs
    · next frame rest ht hc =>
      exact ho.popped hc ht rfl rfl False.elim (.inl ⟨rfl, rfl⟩)
    · next rest ht hc =>
      exact ht ▸ ho.popped hc ht rfl rfl id (.inl ⟨rfl, rfl⟩)
  | peerClose =>
    simp only [step] at hs
    split at hs <;> cases hs
    next ht =>
    exact ho.taskOn ht id rfl rfl id
  | stop =>
    simp only [step] at hs
    split at hs <;> cases hs
    next ht =>
    exact ho.taskOn ht id rfl rfl False.elim
  | task attempt => exact ho.taskStep hp hs
  | flushLock | flushUnlock =>
    simp only [step] at hs
    split at hs <;> cases hs
    exact ho.taskOn rfl id rfl rfl id
  | fail =>
    simp only [step] at hs
    split at hs <;> cases hs
    exact ho.taskOn rfl (fun _ => .inl rfl) rfl rfl id

private theorem ordered_of_unhindered {acts : List Action} {loopMode direct : Bool}
    (hrun : runActions step acts (.initial loopMode direct) = some socket)
    (hm : Meets step Unhindered acts (.initial loopMode direct)) : Ordered socket := by
  have hk : ∀ action before after, Unhindered before action → step action before = some after →
      Ordered before ∧ Published before → Ordered after ∧ Published after :=
    fun _ _ _ hu hs hb =>
      ⟨ordered_step hb.1 hb.2 hu hs, published_step hb.2 hs⟩
  exact (hm.keeps hrun hk ⟨ordered_initial loopMode direct, fun _ => rfl⟩).1

theorem accepted_in_program_order (actions : List Action) (loopMode direct : Bool)
    (socket : Socket) (hrun : runActions step actions (.initial loopMode direct) = some socket)
    (hmeets : Meets step Unhindered actions (.initial loopMode direct)) :
    socket.accepted <+: socket.issued ∧
      ∀ frame ∈ socket.accepted.dropLast, frame.isClose = false :=
  have hordered := ordered_of_unhindered hrun hmeets
  ⟨hordered.isPrefix, hordered.no_close_before_last⟩

def messageThenClose : List Action :=
  [.upgrade, .send (.text "bye"), .handler .accepted, .handler .accepted, .close 1000 "",
    .handler .accepted, .handler .accepted, .handler .accepted, .recv, .task .accepted,
    .task .accepted]

theorem message_then_close_in_order :
    ∃ socket : Socket, runActions step messageThenClose (.initial true true) = some socket ∧
      socket.accepted = [.text "bye", .close 1000 ""] ∧ socket.accepted <+: socket.issued :=
  ⟨_, rfl, rfl, (accepted_in_program_order messageThenClose true true _ rfl (by decide)).1⟩

def queueing (frame : WsMessage) : List Action :=
  [.send frame, .handler .accepted, .handler .accepted, .handler .accepted]

def draining : List Action :=
  [.task .accepted, .task .accepted, .task .accepted, .recv]

theorem runActions_queueing (hf : frame.isClose = false) (hhandler : socket.handler = .idle)
    (hc : socket.closed = false) (hq : socket.queued ≠ 0) (hfull : socket.full = false) :
    runActions step (queueing frame) socket =
      some { socket with
        queued := socket.queued + 1
        channel := socket.channel ++ [.send frame]
        issued := socket.issued ++ [frame] } := by
  simp [queueing, runActions, step, Socket.issue, Socket.handlerStep, hf, hhandler, hc, hq]
  exact hfull

theorem runActions_fill (hf : frame.isClose = false) {capacity : Nat} (n : Nat)
    (hhandler : socket.handler = .idle) (hc : socket.closed = false) (hq : socket.queued ≠ 0)
    (hcarried : socket.capacity = some capacity) (hr : socket.channel.length + n ≤ capacity) :
    runActions step (List.replicate n (queueing frame)).flatten socket =
      some { socket with
        queued := socket.queued + n
        channel := socket.channel ++ List.replicate n (.send frame)
        issued := socket.issued ++ List.replicate n frame } := by
  induction n generalizing socket with
  | zero => simp [runActions]
  | succ n ih =>
    have hfull : socket.full = false := by
      simp only [Socket.full, hcarried, decide_eq_false_iff_not]
      omega
    rw [replicate_succ, flatten_cons, runActions_append,
      runActions_queueing hf hhandler hc hq hfull]
    refine Eq.trans (ih hhandler hc (Nat.succ_ne_zero _) hcarried ?_) ?_
    · rw [length_append, length_singleton]
      omega
    · simp [replicate_succ, Nat.add_assoc, Nat.add_comm 1]

theorem runActions_draining {after : WsMessage} (hf : frame.isClose = false) {rest : List Cmd}
    (ht : socket.task = .locking frame) (hh : socket.holder = .nobody)
    (hs : socket.sink = .writable) (hc : socket.channel = .send after :: rest) :
    runActions step draining socket =
      some { socket with
        queued := socket.queued - 1
        channel := rest
        task := .locking after
        accepted := socket.accepted ++ [frame] } := by
  simp [draining, runActions, step, Socket.taskStep, Socket.write, hf, ht, hh, hs, hc]

theorem runActions_drain {after : WsMessage} (hf : frame.isClose = false) (n : Nat)
    (ht : socket.task = .locking frame) (hh : socket.holder = .nobody)
    (hs : socket.sink = .writable)
    (hc : socket.channel = List.replicate n (.send frame) ++ [.send after]) :
    runActions step (List.replicate (n + 1) draining).flatten socket =
      some { socket with
        queued := socket.queued - (n + 1)
        channel := []
        task := .locking after
        accepted := socket.accepted ++ List.replicate (n + 1) frame } := by
  induction n generalizing socket with
  | zero =>
    exact runActions_draining hf ht hh hs hc
  | succ n ih =>
    rw [replicate_succ, flatten_cons, runActions_append, runActions_draining hf ht hh hs hc]
    refine Eq.trans (ih rfl hh hs rfl) ?_
    simp [replicate_succ, Nat.sub_sub, Nat.add_comm 1]

/-- On a full channel the command of `close` is left to a waiter. -/
theorem runActions_close {code : Nat} {reason : String} (hhandler : socket.handler = .idle)
    (hc : socket.closed = false) (hf : socket.full = true) :
    runActions step [.close code reason, .handler .accepted, .handler .accepted] socket =
      some { socket with
        queued := socket.queued + 1
        waiters := socket.waiters ++ [⟨[.send (.close code reason)], false⟩]
        issued := socket.issued ++ [.close code reason] } := by
  have hl : ∀ next : Socket, next.capacity = socket.capacity → next.channel = socket.channel →
      next.full = true := fun next hcarried hchannel => by
    rw [← hf]
    simp only [Socket.full, hcarried, hchannel]
  simp [runActions, step, Socket.issue, Socket.handlerStep, hhandler, hc, Cmd.frame, hl]

/-- While a message is being written, others fill the channel, so that the command of
`close` is left to a waiter.  The task takes a message out, and the one that is sent after
`close` finds room before the waiter does. -/
def overtaking (capacity : Nat) (frame last : WsMessage) : List Action :=
  (List.replicate capacity (queueing frame)).flatten ++
    ([.close 1006 "", .handler .accepted, .handler .accepted] ++
      (draining ++ (queueing last ++
        ((List.replicate capacity draining).flatten ++ [.task .accepted, .task .accepted]))))

theorem runActions_overtaking (frame last : WsMessage) (hf : frame.isClose = false)
    (hl : last.isClose = false) (room : Nat) (socket : Socket)
    (hc : socket.capacity = some (room + 1)) (hhandler : socket.handler = .idle)
    (hclosed : socket.closed = false) (hq : socket.queued = 1) (hchannel : socket.channel = [])
    (ht : socket.task = .locking frame) (hh : socket.holder = .nobody)
    (hs : socket.sink = .writable) :
    ∃ after, runActions step (overtaking (room + 1) frame last) socket = some after ∧
      after.accepted = socket.accepted ++ List.replicate (room + 2) frame ++ [last] ∧
      after.issued =
        socket.issued ++ List.replicate (room + 1) frame ++ [.close 1006 "", last] := by
  refine exists_runActions_append (runActions_fill hf (room + 1) hhandler hclosed
    (by omega) hc (by simp [hchannel])) ?_
  refine exists_runActions_append (runActions_close hhandler hclosed ?_) ?_
  · simp [Socket.full, hc]
  refine exists_runActions_append (runActions_draining hf ht hh hs
    (by simp only [hchannel]; rfl)) ?_
  refine exists_runActions_append (runActions_queueing hl hhandler hclosed ?_ ?_) ?_
  · simp [hq]
  · simp [Socket.full, hc]
  refine exists_runActions_append (runActions_drain hf room rfl hh hs rfl) ?_
  simp [runActions, step, Socket.taskStep, Socket.write, hh, hs, replicate_succ]

/-- A handler that is 257 messages ahead of its client calls `close`, and the teardown of
one of its dependencies sends a message after that. -/
def overtaken : List Action :=
  [.upgrade, .send (.text "tick"), .handler .accepted, .handler .notReady, .handler .accepted,
    .handler .accepted, .recv] ++ overtaking wsOutCap (.text "tick") (.text "bye")

theorem message_overtakes_close :
    ∃ socket, runActions step overtaken (.initial true true) = some socket ∧
      .text "bye" ∈ socket.accepted ∧ .close 1006 "" ∉ socket.accepted ∧
      ¬socket.accepted <+: socket.issued := by
  have hs : runActions step [.upgrade, .send (.text "tick"), .handler .accepted,
      .handler .notReady, .handler .accepted, .handler .accepted, .recv] (.initial true true) =
      some { Socket.initial true true with
        sink := .writable, queued := 1, task := .locking (.text "tick"),
        issued := [.text "tick"] } := rfl
  refine exists_runActions_append hs ?_
  obtain ⟨room, hr⟩ : ∃ room, wsOutCap = room + 1 := ⟨255, rfl⟩
  obtain ⟨socket, hrun, ha, hissued⟩ :=
    runActions_overtaking (.text "tick") (.text "bye") rfl rfl room
      { Socket.initial true true with
        sink := .writable, queued := 1, task := .locking (.text "tick"),
        issued := [.text "tick"] } (congrArg some hr) rfl rfl rfl rfl rfl rfl rfl
  refine ⟨socket, hr ▸ hrun, ?_, ?_, ?_⟩
  · simp [ha]
  · simp [ha, Socket.initial]
  · simp [ha, hissued, Socket.initial, replicate_succ]

end FastapiTurbo.WebSocketOrder
