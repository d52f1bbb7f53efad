import FastapiTurbo.Lib.Tasks
import FastapiTurbo.WebSocketOutbound

/-! The acknowledgements of `close_and_wait` (`websocket.rs`).  An acknowledgement goes
into the outbound channel behind its Close frame, and whoever holds it last has to fire it:
the call of `queue_seq`, its capacity waiter, or the task that owns the receiver.  A send
takes its permit in one step and pushes its command in another; both are atomic operations
on the channel, and the receiver may go on in between. -/
namespace FastapiTurbo.WebSocketFlush

open Lib WebSocketOutbound List Option

inductive WriterCmd where
  | send (isClose : Bool)
  | flush (ack : Nat)
  deriving DecidableEq

def WriterCmd.isFlush : WriterCmd → Bool
  | .send _ => false
  | .flush _ => true

inductive FlushAck where
  | waiting
  /-- Fired, or in thread mode dropped: the `recv` of `CloseAwaitable` returns. -/
  | released
  /-- The handle of a loop-mode future is dropped, and the future is still pending. -/
  | lost
  deriving DecidableEq

inductive Receiver where
  /-- With `handle_ws_upgrade`, or in the closure of `on_upgrade`. -/
  | held
  | selecting
  /-- Out of the loop, before `rx_out.close()`. -/
  | leaving
  | draining
  /-- `drain_next` found nothing: `sink_w.lock().await.take()`. -/
  | finishing
  | dropped
  deriving DecidableEq

/-- A call of `queue_seq` or `queue_send`, with the commands it still has. -/
structure Send where
  cmds : List WriterCmd
  permit : Bool := false
  /-- On `Full` it goes on as a task of its own. -/
  waiter : Bool := false
  deriving DecidableEq

structure Outbound where
  loopMode : Bool
  /-- `rt.is_some()`. -/
  runtime : Bool
  receiver : Receiver := .held
  queue : List WriterCmd := []
  sends : List Send := []
  acks : Nat → FlushAck := fun _ => .waiting
  created : Nat := 0

namespace Outbound

def closed (out : Outbound) : Bool :=
  match out.receiver with
  | .draining => true
  | .finishing => true
  | .dropped => true
  | _ => false

def full (out : Outbound) : Bool :=
  out.loopMode && wsOutCap ≤ out.queue.length + out.sends.countP Send.permit

def setSend (out : Outbound) (place : Nat) (send : Send) : Outbound :=
  { out with sends := out.sends.set place send }

def settle (out : Outbound) (cmds : List WriterCmd) (ack : FlushAck) : Outbound :=
  { out with acks := fun n => if .flush n ∈ cmds then ack else out.acks n }

def queueSeq (out : Outbound) (cmds : List WriterCmd) : Outbound :=
  { out with sends := out.sends ++ [{ cmds }] }

def closeAndWait (out : Outbound) : Outbound :=
  { out.queueSeq [.send true, .flush out.created] with
    acks := fun n => if n = out.created then .waiting else out.acks n
    created := out.created + 1 }

/-- `tx.try_send(c)`, or `tx.send(c)`, up to the permit. -/
def acquire (out : Outbound) (place : Nat) (send : Send) : Option Outbound :=
  if send.permit || send.cmds.isEmpty || out.closed then
    none
  else if out.full then
    if send.waiter then
      none
    else if out.runtime then
      some (out.setSend place { send with waiter := true })
    else
      some ((out.settle send.cmds .released).setSend place { send with cmds := [] })
  else
    some (out.setSend place { send with permit := true })

/-- The channel is closed.  `try_send` of loop mode gives up on all commands at once. -/
def refuse (out : Outbound) (place : Nat) (send : Send) : Option Outbound :=
  if send.permit || !out.closed then
    none
  else
    match send.cmds with
    | [] => none
    | cmd :: rest =>
      if out.loopMode && !send.waiter then
        some ((out.settle (cmd :: rest) .released).setSend place { send with cmds := [] })
      else
        some ((out.settle [cmd] .released).setSend place { send with cmds := rest })

def push (out : Outbound) (place : Nat) (send : Send) : Option Outbound :=
  if send.permit then
    match send.cmds with
    | [] => none
    | cmd :: rest =>
      some { out.setSend place { send with cmds := rest, permit := false } with
        queue := out.queue ++ [cmd] }
  else
    none

def next (out : Outbound) (receiver : WriterCmd → Receiver) : Option Outbound :=
  match out.queue with
  | [] => none
  | cmd :: rest =>
    some { out.settle [cmd] .released with queue := rest, receiver := receiver cmd }

def discard (out : Outbound) : Outbound :=
  { out.settle out.queue (if out.loopMode then .lost else .released) with
    queue := [], receiver := .dropped }

end Outbound

inductive Action where
  | closeAndWait
  /-- `close()`. -/
  | close
  | queueSend
  | acquire (send : Nat)
  | refuse (send : Nat)
  | push (send : Nat)
  /-- The upgrade is done and the select task is spawned. -/
  | spawn
  /-- `handle_ws_upgrade` returns an error, or the closure is dropped without being run. -/
  | abort
  | recv (sentOk : Bool)
  | leave
  | closeReceiver
  | drainNext
  | drained
  | drop
  deriving DecidableEq

def afterRecv (sentOk : Bool) : WriterCmd → Receiver
  | .send isClose => if sentOk && !isClose then .selecting else .leaving
  | .flush _ => .selecting

def advance (out : Outbound) (before : Receiver) (after : Option Outbound) : Option Outbound :=
  if out.receiver = before then after else none

def step : Action → Outbound → Option Outbound
  | .closeAndWait, out => some out.closeAndWait
  | .close, out => some (out.queueSeq [.send true])
  | .queueSend, out => some (out.queueSeq [.send false])
  | .acquire place, out => out.sends[place]?.bind (out.acquire place)
  | .refuse place, out => out.sends[place]?.bind (out.refuse place)
  | .push place, out => out.sends[place]?.bind (out.push place)
  | .spawn, out => advance out .held (some { out with receiver := .selecting })
  | .abort, out => advance out .held (some out.discard)
  | .recv sentOk, out => advance out .selecting (out.next (afterRecv sentOk))
  | .leave, out => advance out .selecting (some { out with receiver := .leaving })
  | .closeReceiver, out => advance out .leaving (some { out with receiver := .draining })
  | .drainNext, out => advance out .draining (out.next fun _ => .draining)
  | .drained, out =>
    advance out .draining
      (if out.queue = [] then some { out with receiver := .finishing } else none)
  | .drop, out => advance out .finishing (some out.discard)

/-- The commands that a send has not yet a permit for: it finds out when the channel is
closed, and then fires what is among them. -/
def Send.unsent (send : Send) : List WriterCmd :=
  if send.permit then send.cmds.tail else send.cmds

/-- Somebody waits for an acknowledgement that nobody is going to release: there is no
receiver, and no send that will be refused has it. -/
def Outbound.Stranded (out : Outbound) : Prop :=
  out.receiver = .dropped ∧
    ∃ ack < out.created, out.acks ack ≠ .released ∧
      ∀ send ∈ out.sends, .flush ack ∉ send.unsent

def Action.drops : Action → Bool
  | .abort => true
  | .drop => true
  | _ => false

/-- Nobody is between the permit and the push of an acknowledgement, and the queue of loop
mode has none. -/
def Outbound.Quiet (out : Outbound) : Prop :=
  (∀ send ∈ out.sends, send.permit = true → ∀ cmd ∈ send.cmds.head?, cmd.isFlush = false) ∧
    (out.loopMode = true → ∀ cmd ∈ out.queue, cmd.isFlush = false)

instance (out : Outbound) : Decidable out.Quiet :=
  inferInstanceAs (Decidable (_ ∧ _))

def DropsQuietly (out : Outbound) (action : Action) : Prop :=
  action.drops = true → out.Quiet

instance (out : Outbound) (action : Action) : Decidable (DropsQuietly out action) :=
  inferInstanceAs (Decidable (_ → _))

inductive Stepped (out : Outbound) : Action → Outbound → Prop where
  | queued {action : Action} {cmds : List WriterCmd} (hplain : ∀ ack, .flush ack ∉ cmds) :
      Stepped out action (out.queueSeq cmds)
  | created {action : Action} : Stepped out action out.closeAndWait
  | settled {action : Action} {place : Nat} {send new : Send} {front : List WriterCmd}
      (hplace : out.sends[place]? = some send) (hpermit : send.permit = false)
      (hcmds : send.cmds = front ++ new.cmds)
      (hnew : new.permit = true → out.receiver ≠ .dropped) :
      Stepped out action ((out.settle front .released).setSend place new)
  | pushed {action : Action} {place : Nat} {send new : Send} {cmd : WriterCmd}
      (hplace : out.sends[place]? = some send) (hpermit : send.permit = true)
      (hcmds : send.cmds = cmd :: new.cmds) (hnew : new.permit = false) :
      Stepped out action { out.setSend place new with queue := out.queue ++ [cmd] }
  | received {action : Action} {cmd : WriterCmd} {rest : List WriterCmd} {receiver : Receiver}
      (hqueue : out.queue = cmd :: rest) (hreceiver : out.receiver ≠ .dropped)
      (hafter : receiver ≠ .dropped) :
      Stepped out action { out.settle [cmd] .released with queue := rest, receiver := receiver }
  | turned {action : Action} {receiver : Receiver} (hreceiver : out.receiver ≠ .dropped)
      (hafter : receiver ≠ .dropped) : Stepped out action { out with receiver := receiver }
  | discarded {action : Action} (hdrops : action.drops = true)
      (hreceiver : out.receiver ≠ .dropped) : Stepped out action out.discard

@[simp]
theorem settle_nil (out : Outbound) (ack : FlushAck) : out.settle [] ack = out := by
  simp [Outbound.settle]

variable {out : Outbound}

private theorem receiver_ne_dropped (ho : out.closed = false) : out.receiver ≠ .dropped := by
  intro hd
  simp [Outbound.closed, hd] at ho

variable {next : Outbound} {action : Action} {place : Nat} {send : Send}

theorem stepped_of_acquire (hp : out.sends[place]? = some send)
    (hs : out.acquire place send = some next) : Stepped out action next := by
  rw [Outbound.acquire] at hs
  split at hs
  · cases hs
  · rename_i hg
    simp only [Bool.or_eq_true, not_or, Bool.not_eq_true] at hg
    obtain ⟨⟨hpermit, -⟩, ho⟩ := hg
    split at hs
    · split at hs
      · cases hs
      · split at hs <;> cases hs
        · rw [← settle_nil out .released]
          exact .settled hp hpermit rfl fun _ => receiver_ne_dropped ho
        · refine .settled hp hpermit (by simp) fun _ => receiver_ne_dropped ho
    · cases hs
      rw [← settle_nil out .released]
      exact .settled hp hpermit rfl fun _ => receiver_ne_dropped ho

theorem stepped_of_refuse (hplace : out.sends[place]? = some send)
    (hs : out.refuse place send = some next) : Stepped out action next := by
  rw [Outbound.refuse] at hs
  split at hs
  · cases hs
  · rename_i hg
    simp only [Bool.or_eq_true, not_or, Bool.not_eq_true] at hg
    have hp := hg.1
    have hk : send.permit = true → out.receiver ≠ .dropped := by simp [hp]
    split at hs
    · cases hs
    · rename_i cmd rest hc
      split at hs <;> cases hs
      · exact .settled hplace hp (by simp [hc]) hk
      · exact .settled hplace hp (by simp [hc]) hk

theorem stepped_of_push (hp : out.sends[place]? = some send)
    (hs : out.push place send = some next) : Stepped out action next := by
  rw [Outbound.push] at hs
  split at hs
  · rename_i hpermit
    split at hs <;> cases hs
    rename_i cmd rest hc
    exact .pushed hp hpermit hc rfl
  · cases hs

theorem stepped_of_next {rcv : WriterCmd → Receiver} (hr : out.receiver ≠ .dropped)
    (ha : ∀ cmd, rcv cmd ≠ .dropped) (hs : out.next rcv = some next) : Stepped out action next := by
  rw [Outbound.next] at hs
  split at hs <;> cases hs
  rename_i cmd rest hq
  exact .received hq hr (ha cmd)

theorem afterRecv_ne_dropped (sentOk : Bool) (cmd : WriterCmd) :
    afterRecv sentOk cmd ≠ .dropped := by
  cases cmd with
  | send isClose => cases sentOk <;> cases isClose <;> decide
  | flush ack => simp [afterRecv]

theorem receiver_of_advance {before : Receiver} {after : Option Outbound}
    (hs : advance out before after = some next) : out.receiver = before ∧ after = some next := by
  rw [advance] at hs
  split at hs
  · rename_i hr
    exact ⟨hr, hs⟩
  · cases hs

theorem stepped_of_step (hs : step action out = some next) : Stepped out action next := by
  cases action with
  | closeAndWait =>
    cases hs
    exact .created
  | close | queueSend =>
    cases hs
    exact .queued (by simp)
  | acquire place =>
    obtain ⟨send, hp, hm⟩ := bind_eq_some_iff.1 hs
    exact stepped_of_acquire hp hm
  | refuse place =>
    obtain ⟨send, hp, hm⟩ := bind_eq_some_iff.1 hs
    exact stepped_of_refuse hp hm
  | push place =>
    obtain ⟨send, hp, hm⟩ := bind_eq_some_iff.1 hs
    exact stepped_of_push hp hm
  | spawn | leave | closeReceiver =>
    obtain ⟨hr, ha⟩ := receiver_of_advance hs
    cases ha
    exact .turned (by simp [hr]) (by simp)
  | abort | drop =>
    obtain ⟨hr, ha⟩ := receiver_of_advance hs
    cases ha
    exact .discarded rfl (by simp [hr])
  | recv sentOk =>
    obtain ⟨hr, ha⟩ := receiver_of_advance hs
    exact stepped_of_next (by simp [hr]) (afterRecv_ne_dropped sentOk) ha
  | drainNext =>
    obtain ⟨hr, ha⟩ := receiver_of_advance hs
    exact stepped_of_next (by simp [hr]) (fun _ => by simp) ha
  | drained =>
    obtain ⟨hr, ha⟩ := receiver_of_advance hs
    split at ha <;> cases ha
    exact .turned (by simp [hr]) (by simp)

def Outbound.copies (out : Outbound) (ack : Nat) : Nat :=
  out.queue.count (.flush ack) + (out.sends.flatMap Send.cmds).count (.flush ack)

/-- An acknowledgement is in one place at most, and there it waits. -/
structure Single (out : Outbound) : Prop where
  once : ∀ ack, out.copies ack ≤ 1
  waiting : ∀ ack, 0 < out.copies ack → ack < out.created ∧ out.acks ack = .waiting

theorem single_initial (loopMode runtime : Bool) : Single { loopMode, runtime } where
  once := by simp [Outbound.copies]
  waiting := by simp [Outbound.copies]

theorem copies_queueSeq (out : Outbound) (cmds : List WriterCmd) (ack : Nat) :
    (out.queueSeq cmds).copies ack = out.copies ack + cmds.count (.flush ack) := by
  simp [Outbound.copies, Outbound.queueSeq, Nat.add_assoc]

theorem copies_closeAndWait (out : Outbound) (ack : Nat) :
    out.closeAndWait.copies ack = out.copies ack + if ack = out.created then 1 else 0 := by
  have hq := copies_queueSeq out [.send true, .flush out.created] ack
  refine hq.trans ?_
  by_cases hnew : ack = out.created
  · simp [hnew]
  · have ho : (WriterCmd.flush out.created == .flush ack) = false := by
      simp [Ne.symm hnew]
    simp [count_cons, ho, hnew]

theorem copies_setSend (hp : out.sends[place]? = some send) (new : Send) (ack : Nat) :
    (out.setSend place new).copies ack + send.cmds.count (.flush ack) =
      out.copies ack + new.cmds.count (.flush ack) := by
  have hm := count_flatMap_moved Send.cmds hp new (.flush ack)
  simp only [Outbound.copies, Outbound.setSend]
  omega

variable {new : Send}

theorem copies_settled {front : List WriterCmd} (hp : out.sends[place]? = some send)
    (hc : send.cmds = front ++ new.cmds) (ack : Nat) :
    ((out.settle front .released).setSend place new).copies ack + front.count (.flush ack) =
      out.copies ack := by
  have hm := copies_setSend hp new ack
  rw [hc, count_append] at hm
  have hs : ((out.settle front .released).setSend place new).copies ack =
      (out.setSend place new).copies ack := rfl
  omega

theorem copies_pushed {cmd : WriterCmd} (hp : out.sends[place]? = some send)
    (hc : send.cmds = cmd :: new.cmds) (ack : Nat) :
    Outbound.copies { out.setSend place new with queue := out.queue ++ [cmd] } ack =
      out.copies ack := by
  have hm := copies_setSend hp new ack
  rw [hc, count_cons] at hm
  simp only [Outbound.copies, count_append, count_singleton] at hm ⊢
  simp only [Outbound.setSend] at hm ⊢
  omega

theorem copies_received {cmd : WriterCmd} {rest : List WriterCmd} {rcv : Receiver}
    (hq : out.queue = cmd :: rest) (ack : Nat) :
    Outbound.copies { out.settle [cmd] .released with queue := rest, receiver := rcv } ack +
      [cmd].count (.flush ack) = out.copies ack := by
  simp only [Outbound.copies, Outbound.settle, hq, count_cons, count_nil]
  omega

theorem copies_discard (out : Outbound) (ack : Nat) :
    out.discard.copies ack + out.queue.count (.flush ack) = out.copies ack := by
  simp only [Outbound.copies, Outbound.discard, Outbound.settle, count_nil]
  omega

theorem Single.hand_over (hs : Single out) (taken : List WriterCmd)
    (hc : ∀ ack, next.copies ack + taken.count (.flush ack) = out.copies ack)
    (hacks : ∀ ack, .flush ack ∉ taken → next.acks ack = out.acks ack)
    (hcreated : next.created = out.created) : Single next := by
  constructor
  · intro ack
    have ho := hs.once ack
    have hh := hc ack
    omega
  · intro ack hp
    have ho := hs.once ack
    have hh := hc ack
    have hk : .flush ack ∉ taken := by
      rw [← count_eq_zero]
      omega
    rw [hcreated, hacks ack hk]
    exact hs.waiting ack (by omega)

theorem Single.created (hs : Single out) : Single out.closeAndWait := by
  -- The new number is in no place before.
  have hf : out.copies out.created = 0 := by
    by_contra hp
    exact Nat.lt_irrefl _ (hs.waiting _ (Nat.pos_of_ne_zero hp)).1
  constructor
  · intro ack
    rw [copies_closeAndWait]
    by_cases hnew : ack = out.created
    · simp [hnew, hf]
    · simp [hnew, hs.once ack]
  · intro ack hp
    rw [copies_closeAndWait] at hp
    by_cases hnew : ack = out.created
    · simp [Outbound.closeAndWait, hnew]
    · rw [if_neg hnew] at hp
      obtain ⟨hl, hw⟩ := hs.waiting ack hp
      exact ⟨Nat.lt_succ_of_lt hl, (if_neg hnew).trans hw⟩

theorem single_of_stepped (hstepped : Stepped out action next) (hs : Single out) : Single next := by
  cases hstepped with
  | @queued cmds hplain =>
    refine hs.hand_over [] ?_ (fun _ _ => rfl) rfl
    intro ack
    rw [copies_queueSeq, count_eq_zero.2 (hplain ack)]
    rfl
  | created => exact hs.created
  | settled hp hpermit hc hnew =>
    exact hs.hand_over _ (copies_settled hp hc) (fun _ hk => if_neg hk) rfl
  | pushed hp hpermit hc hnew =>
    exact hs.hand_over [] (copies_pushed hp hc) (fun _ _ => rfl) rfl
  | received hq hr ha =>
    exact hs.hand_over _ (copies_received hq) (fun _ hk => if_neg hk) rfl
  | turned hr ha => exact hs.hand_over [] (fun _ => rfl) (fun _ _ => rfl) rfl
  | discarded hd hr =>
    exact hs.hand_over _ (copies_discard out) (fun _ hk => if_neg hk) rfl

theorem single_of_reaches {loopMode runtime : Bool}
    (hr : Reaches step { loopMode, runtime } out) : Single out :=
  hr.keeps (fun _ _ _ hs => single_of_stepped (stepped_of_step hs))
    (single_initial loopMode runtime)

theorem Send.unsent_subset (send : Send) : send.unsent ⊆ send.cmds := by
  rw [Send.unsent]
  split
  · exact fun _ => mem_of_mem_tail
  · exact List.Subset.refl _

theorem unsent_of_permit (hp : send.permit = false) : send.unsent = send.cmds := by
  rw [Send.unsent, hp]
  rfl

variable {ack : Nat}

theorem copies_pos_of_send (hs : send ∈ out.sends) (hack : .flush ack ∈ send.cmds) :
    0 < out.copies ack := by
  have hmem : .flush ack ∈ out.sends.flatMap Send.cmds := mem_flatMap.2 ⟨send, hs, hack⟩
  exact Nat.add_pos_right _ (count_pos_iff.2 hmem)

/-- Who waits for an acknowledgement waits for somebody who has it: as long as there is a
receiver it is anywhere, and afterwards it is with a send that will be refused. -/
def Outbound.Kept (out : Outbound) : Prop :=
  ∀ ack < out.created, out.acks ack ≠ .released →
    (out.receiver ≠ .dropped ∧ 0 < out.copies ack) ∨
      ∃ send ∈ out.sends, .flush ack ∈ send.unsent

theorem Outbound.Kept.copies_pos (hk : out.Kept) (hl : ack < out.created)
    (hw : out.acks ack ≠ .released) : 0 < out.copies ack := by
  rcases hk ack hl hw with ⟨-, hp⟩ | ⟨send, hs, hu⟩
  · exact hp
  · exact copies_pos_of_send hs (send.unsent_subset hu)

theorem Outbound.Kept.of_receiver (hk : out.Kept) (hr : next.receiver ≠ .dropped)
    (taken : List WriterCmd)
    (hc : ∀ ack, next.copies ack + taken.count (.flush ack) = out.copies ack)
    (hacks : ∀ ack, next.acks ack = if .flush ack ∈ taken then .released else out.acks ack)
    (hcreated : next.created = out.created) : next.Kept := by
  intro ack hl hw
  rw [hacks] at hw
  rw [hcreated] at hl
  by_cases ht : .flush ack ∈ taken
  · rw [if_pos ht] at hw
    exact absurd rfl hw
  · rw [if_neg ht] at hw
    have hp := hk.copies_pos hl hw
    have hh := hc ack
    rw [count_eq_zero.2 ht] at hh
    exact .inl ⟨hr, by omega⟩

theorem mem_unsent_moved {old : Send} (hp : out.sends[place]? = some old)
    (hnew : .flush ack ∈ old.unsent → .flush ack ∈ new.unsent)
    (hu : ∃ send ∈ out.sends, .flush ack ∈ send.unsent) :
    ∃ send ∈ out.sends.set place new, .flush ack ∈ send.unsent := by
  obtain ⟨send, hsend, hack⟩ := hu
  obtain ⟨other, ho⟩ := getElem?_of_mem hsend
  by_cases hs : place = other
  · subst hs
    rw [hp, Option.some.injEq] at ho
    subst ho
    have hl := (List.getElem?_eq_some_iff.1 hp).1
    exact ⟨new, mem_set hl new, hnew hack⟩
  · refine ⟨send, ?_, hack⟩
    rw [← getElem?_set_ne (a := new) hs] at ho
    exact mem_of_getElem? ho

theorem Outbound.Kept.discarded (hk : out.Kept) (hq : out.Quiet) : out.discard.Kept := by
  intro ack hl hw
  have hqueue : .flush ack ∉ out.queue := by
    intro hmem
    have hacks : out.discard.acks ack = if out.loopMode then .lost else .released := if_pos hmem
    cases hm : out.loopMode with
    | false => exact hw (by rw [hacks, hm]; rfl)
    | true => exact Bool.noConfusion (hq.2 hm _ hmem)
  have hacks : out.discard.acks ack = out.acks ack := if_neg hqueue
  have hp := hk.copies_pos hl (hacks ▸ hw)
  rw [Outbound.copies, count_eq_zero.2 hqueue, Nat.zero_add, count_pos_iff] at hp
  obtain ⟨send, hs, hack⟩ := mem_flatMap.1 hp
  refine .inr ⟨send, hs, ?_⟩
  rw [Send.unsent]
  split
  · rename_i hpermit
    -- The command with the permit is not this one.
    have hh := hq.1 send hs hpermit
    cases hc : send.cmds with
    | nil => simp [hc] at hack
    | cons cmd rest =>
      rw [hc] at hack hh
      rcases mem_cons.1 hack with rfl | hr
      · exact Bool.noConfusion (hh _ rfl)
      · exact hr
  · exact hack

theorem kept_of_stepped (hq : DropsQuietly out action) (hstepped : Stepped out action next)
    (hk : out.Kept) : next.Kept := by
  cases hstepped with
  | @queued cmds hplain =>
    intro ack hl hw
    rcases hk ack hl hw with ⟨hr, hp⟩ | ⟨send, hs, hu⟩
    · rw [copies_queueSeq]
      exact .inl ⟨hr, Nat.add_pos_left hp _⟩
    · exact .inr ⟨send, mem_append_left _ hs, hu⟩
  | created =>
    intro ack hl hw
    by_cases hnew : ack = out.created
    · exact .inr ⟨_, mem_append_right _ mem_cons_self, by simp [Send.unsent, hnew]⟩
    · have hb : ack < out.created := by
        have hsucc : ack < out.created + 1 := hl
        omega
      have hacks : out.closeAndWait.acks ack = out.acks ack := if_neg hnew
      rcases hk ack hb (hacks ▸ hw) with ⟨hr, hp⟩ | ⟨send, hs, hu⟩
      · rw [copies_closeAndWait]
        exact .inl ⟨hr, Nat.add_pos_left hp _⟩
      · exact .inr ⟨send, mem_append_left _ hs, hu⟩
  | @settled place send new front hplace hpermit hc hnew =>
    by_cases hr : out.receiver = .dropped
    · intro ack hl hw
      have hf : .flush ack ∉ front := by
        intro hmem
        exact hw (if_pos hmem)
      have hacks : (out.settle front .released).acks ack = out.acks ack := if_neg hf
      have hu := (hk ack hl (hacks ▸ hw)).resolve_left fun hleft =>
        hleft.1 hr
      refine .inr (mem_unsent_moved hplace ?_ hu)
      have hpermitted : new.permit = false := by
        rw [Bool.eq_false_iff]
        exact fun hyes => hnew hyes hr
      rw [unsent_of_permit hpermit, unsent_of_permit hpermitted, hc, mem_append]
      exact fun hmem => hmem.resolve_left hf
    · exact hk.of_receiver hr front (copies_settled hplace hc) (fun _ => rfl) rfl
  | @pushed place send new cmd hplace hpermit hc hnew =>
    intro ack hl hw
    rcases hk ack hl hw with ⟨hr, hp⟩ | hu
    · rw [copies_pushed hplace hc]
      exact .inl ⟨hr, hp⟩
    · refine .inr (mem_unsent_moved hplace ?_ hu)
      rw [Send.unsent, if_pos hpermit, hc, unsent_of_permit hnew]
      exact id
  | received hqueue hr ha =>
    exact hk.of_receiver ha _ (copies_received hqueue) (fun _ => rfl) rfl
  | turned hr ha =>
    exact hk.of_receiver ha [] (fun _ => rfl) (fun _ => by simp) rfl
  | discarded hd hr => exact hk.discarded (hq hd)

theorem not_stranded_of_kept (hk : out.Kept) : ¬out.Stranded := by
  rintro ⟨hd, ack, hl, hw, hn⟩
  rcases hk ack hl hw with ⟨hr, -⟩ | ⟨send, hs, hu⟩
  · exact hr hd
  · exact hn send hs hu

theorem stranded_of_queue (hs : Single out) (hm : out.loopMode = true)
    (hq : .flush ack ∈ out.queue) : out.discard.Stranded := by
  have hc := count_pos_iff.2 hq
  have ho := hs.once ack
  have hp : 0 < out.copies ack := Nat.add_pos_left hc _
  refine ⟨rfl, ack, (hs.waiting ack hp).1, ?_, ?_⟩
  · have hacks : out.discard.acks ack = if out.loopMode then .lost else .released := if_pos hq
    rw [hacks, hm]
    decide
  · intro send hsend hu
    have hmem : .flush ack ∈ out.sends.flatMap Send.cmds :=
      mem_flatMap.2 ⟨send, hsend, send.unsent_subset hu⟩
    have hsends := count_pos_iff.2 hmem
    rw [Outbound.copies] at ho
    omega

private theorem stranded_of_permit (hs : Single out) (hsend : send ∈ out.sends)
    (hpermit : send.permit = true)
    (hh : send.cmds.head? = some (.flush ack)) : out.discard.Stranded := by
  obtain ⟨place, hp⟩ := getElem?_of_mem hsend
  obtain ⟨rest, hc⟩ := head?_eq_some_iff.1 hh
  have honce := hs.once ack
  have hpositive := copies_pos_of_send hsend (hc ▸ mem_cons_self)
  obtain ⟨hl, hw⟩ := hs.waiting ack hpositive
  -- Without the command that has the permit there is no copy left.
  have hm := copies_setSend hp { cmds := rest } ack
  rw [hc, count_cons_self] at hm
  have hn : (out.setSend place { cmds := rest }).copies ack = 0 := by
    dsimp only at hm
    omega
  refine ⟨rfl, ack, hl, ?_, ?_⟩
  · have hq : .flush ack ∉ out.queue := by
      rw [← count_eq_zero]
      exact Nat.eq_zero_of_add_eq_zero_right hn
    have hacks : out.discard.acks ack = out.acks ack := if_neg hq
    rw [hacks, hw]
    decide
  · intro other ho hu
    have hstill : .flush ack ∈ send.unsent → .flush ack ∈ Send.unsent { cmds := rest } := by
      rw [Send.unsent, if_pos hpermit, hc]
      exact id
    obtain ⟨last, hlast, hack⟩ := mem_unsent_moved hp hstill ⟨other, ho, hu⟩
    have hcopy : 0 < (out.setSend place { cmds := rest }).copies ack :=
      copies_pos_of_send hlast (last.unsent_subset hack)
    omega

theorem quiet_of_not_stranded (hs : Single out) (hr : ¬out.discard.Stranded) : out.Quiet := by
  constructor
  · intro send hsend hp cmd hh
    cases cmd with
    | send isClose => rfl
    | flush ack => exact absurd (stranded_of_permit hs hsend hp hh) hr
  · intro hm cmd hq
    cases cmd with
    | send isClose => rfl
    | flush ack => exact absurd (stranded_of_queue hs hm hq) hr

private theorem discard_of_drops (hd : action.drops = true) (hs : step action out = some next) :
    next = out.discard := by
  cases action with
  | abort | drop =>
    obtain ⟨-, ha⟩ := receiver_of_advance hs
    exact (Option.some.inj ha).symm
  | _ => cases hd

/-- In a run nobody is left waiting exactly when the receiver is dropped quietly. -/
theorem never_stranded_iff (loopMode runtime : Bool) (actions : List Action) (final : Outbound)
    (hrun : runActions step actions { loopMode, runtime } = some final) :
    (∀ front back out, actions = front ++ back →
        runActions step front { loopMode, runtime } = some out → ¬out.Stranded) ↔
      Meets step DropsQuietly actions { loopMode, runtime } := by
  constructor
  · intro hall
    rw [meets_iff]
    rintro front action back between rfl hf hd
    rw [runActions_append, hf, bind_some] at hrun
    obtain ⟨next, hn, -⟩ := bind_eq_some_iff.1 hrun
    have hl : runActions step (front ++ [action]) { loopMode, runtime } = some next := by
      rw [runActions_append, hf, bind_some, runActions, hn]
      rfl
    have hr := hall (front ++ [action]) back next (by simp) hl
    rw [discard_of_drops hd hn] at hr
    exact quiet_of_not_stranded (single_of_reaches (reaches_of_runActions hf)) hr
  · rintro hm front back out rfl hf
    have hk : out.Kept := (hm.of_append hf).1.keeps hf
      (fun _ _ _ hq hs => kept_of_stepped hq (stepped_of_step hs))
      (fun _ hless => absurd hless (Nat.not_lt_zero _))
    exact not_stranded_of_kept hk

/-- The Close frame is written, and the acknowledgement behind it is fired by the teardown. -/
theorem flushed_close_released :
    ∃ final, runActions step [.spawn, .closeAndWait, .acquire 0, .push 0, .acquire 0, .push 0,
        .recv true, .closeReceiver, .drainNext, .drained, .drop]
        { loopMode := true, runtime := true } = some final ∧
      final.acks 0 = .released ∧ ¬final.Stranded := by
  have hrun : runActions step [.spawn, .closeAndWait, .acquire 0, .push 0, .acquire 0, .push 0,
      .recv true, .closeReceiver, .drainNext, .drained, .drop]
      { loopMode := true, runtime := true } = some _ := rfl
  refine ⟨_, hrun, rfl, ?_⟩
  exact (never_stranded_iff _ _ _ _ hrun).2 (by decide) _ [] _ (by simp) hrun

/-- In loop mode the upgrade is given up after `close_and_wait` has queued its commands, and
the future stays pending.  In thread mode the acknowledgement is pushed after the receiver
has drained the channel, and the caller blocks for good. -/
theorem acks_left_stranded :
    (∃ final, runActions step [.closeAndWait, .acquire 0, .push 0, .acquire 0, .push 0, .abort]
        { loopMode := true, runtime := true } = some final ∧
      final.acks 0 = .lost ∧ final.Stranded) ∧
    ∃ final, runActions step [.spawn, .closeAndWait, .acquire 0, .push 0, .leave, .acquire 0,
        .closeReceiver, .drainNext, .drained, .drop, .push 0]
        { loopMode := false, runtime := true } = some final ∧
      final.acks 0 = .waiting ∧ final.Stranded :=
  ⟨⟨_, rfl, rfl, rfl, 0, by decide, by decide, by decide⟩,
    ⟨_, rfl, rfl, rfl, 0, by decide, by decide, by decide⟩⟩

end FastapiTurbo.WebSocketFlush
