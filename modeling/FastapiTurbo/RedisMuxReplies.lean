import FastapiTurbo.RedisMuxWaiters

/-! Every future is resolved with the reply to its own command as long as connections come after
each other. -/
namespace FastapiTurbo.RedisMux

open Lib

variable {db : Bool} {refuses : Nat → Bool} {mux next : Mux} {task : Nat}

/-- One task at a time is inside its own `connect`, and `_connecting` tells. -/
structure Sole (mux : Mux) : Prop where
  alone : ∀ first second, (mux.tasks first).stage.connects = true →
    (mux.tasks second).stage.connects = true → first = second
  busy : ∀ task, (mux.tasks task).stage.connects = true → mux.connecting ≠ none

namespace Mux

def Moved (mux next : Mux) (task : Nat) (stage : Stage) : Prop :=
  next.tasks = (mux.setStage task stage).tasks

theorem write_moved (mux : Mux) (conn : Nat) (commands : List Nat) :
    (mux.write conn commands).tasks = mux.tasks ∧
      (mux.write conn commands).connecting = mux.connecting := by
  obtain ⟨conns, hf, _⟩ := mux.write_spec conn commands
  rw [hf]
  exact ⟨rfl, rfl⟩

theorem send_moved (mux : Mux) (task : Nat) (select : Bool) :
    (mux.send task select).connecting = mux.connecting ∧
      (mux.Moved (mux.send task select) task (.ended .noTransport) ∨
        mux.Moved (mux.send task select) task (stageOf select mux.sent)) := by
  rw [send]
  split
  · split
    · exact ⟨rfl, .inl rfl⟩
    next conn _ =>
      obtain ⟨ht, hc⟩ := (mux.enqueue select).write_moved conn [mux.sent]
      refine ⟨hc, .inr ?_⟩
      rw [setStage, ht]
      rfl
  · exact ⟨rfl, .inr rfl⟩

theorem carryOn_moved (mux : Mux) (task : Nat) :
    (mux.carryOn task).connecting = mux.connecting ∧
      ∃ stage, stage.connects = false ∧ mux.Moved (mux.carryOn task) task stage := by
  rw [carryOn]
  split
  · exact ⟨rfl, _, rfl, rfl⟩
  · obtain ⟨hc, hmoved | hmoved⟩ := mux.send_moved task false
    · exact ⟨hc, _, rfl, hmoved⟩
    · exact ⟨hc, _, rfl, hmoved⟩

theorem settle_moved (mux : Mux) :
    mux.settle.connecting = none ∧ mux.settle.tasks = mux.tasks := by
  rw [settle]
  split
  next hc => exact ⟨hc, rfl⟩
  next => exact ⟨rfl, rfl⟩

theorem abandon_moved (mux : Mux) (task : Nat) (ending : Ending) :
    (mux.abandon task ending).connecting = none ∧
      ∃ stage, stage.connects = false ∧ mux.Moved (mux.abandon task ending) task stage := by
  obtain ⟨hc, ht⟩ := mux.settle_moved
  refine ⟨hc, .ended (if mux.settles then ending else .invalidState), rfl, ?_⟩
  rw [abandon, setStage, ht]
  rfl

theorem proceed_moved (mux : Mux) (task : Nat) :
    (mux.proceed task).connecting = none ∧
      ∃ stage, stage.connects = false ∧ mux.Moved (mux.proceed task) task stage := by
  obtain ⟨hc, ht⟩ := mux.settle_moved
  rw [proceed]
  split
  · obtain ⟨hs, stage, hstage, hmoved⟩ := mux.settle.carryOn_moved task
    refine ⟨hs.trans hc, stage, hstage, ?_⟩
    rw [Moved, hmoved, setStage, ht]
    rfl
  · refine ⟨hc, .ended .invalidState, rfl, ?_⟩
    rw [setStage, ht]
    rfl

theorem establish_moved (db : Bool) (mux : Mux) (task conn : Nat) :
    ∃ stage, mux.Moved (mux.establish db task conn) task stage ∧
      ((mux.establish db task conn).connecting = mux.connecting ∨ stage.connects = false) := by
  rw [establish]
  split
  · split
    · obtain ⟨hc, hmoved | hmoved⟩ := (mux.publish conn).send_moved task true
      · exact ⟨_, hmoved, .inl hc⟩
      · exact ⟨_, hmoved, .inl hc⟩
    · split
      · obtain ⟨_, stage, hs, hmoved⟩ := (mux.publish conn).abandon_moved task .muxClosed
        exact ⟨stage, hmoved, .inr hs⟩
      · exact ⟨_, rfl, .inl rfl⟩
  · obtain ⟨_, stage, hs, hmoved⟩ := (mux.publish conn).proceed_moved task
    exact ⟨stage, hmoved, .inr hs⟩

end Mux

namespace Sole

/-- A step that leaves `_connecting` alone and starts no `connect`. -/
theorem kept (h : Sole mux) (hc : next.connecting = mux.connecting)
    (hs : ∀ other, (next.tasks other).stage.connects = true →
      (mux.tasks other).stage.connects = true) : Sole next where
  alone := fun first second hf hsecond =>
    h.alone first second (hs first hf) (hs second hsecond)
  busy := fun other ho => hc ▸ h.busy other (hs other ho)

section

variable {stage : Stage} (h : Sole mux) (hm : mux.Moved next task stage)
include h hm

theorem of_moved (hc : next.connecting = mux.connecting)
    (hs : stage.connects = true → (mux.tasks task).stage.connects = true) : Sole next := by
  refine h.kept hc fun other ho => ?_
  rw [hm] at ho
  by_cases ht : other = task
  · subst ht
    rw [Mux.setStage_self] at ho
    exact hs ho
  · rwa [Mux.setStage_other _ _ ht] at ho

/-- The task that was inside `connect` leaves it. -/
theorem of_left (hs : stage.connects = false) (ht : (mux.tasks task).stage.connects = true) :
    Sole next := by
  have hn : ∀ other, (next.tasks other).stage.connects = false := by
    intro other
    rw [hm]
    by_cases ho : other = task
    · rw [ho, Mux.setStage_self]
      exact hs
    · rw [Mux.setStage_other _ _ ho]
      cases hc : (mux.tasks other).stage.connects with
      | false => rfl
      | true => exact absurd (h.alone other task hc ht) ho
  constructor
  · intro first second hf
    exact absurd ((hn first).symm.trans hf) Bool.false_ne_true
  · intro other ho
    exact absurd ((hn other).symm.trans ho) Bool.false_ne_true

/-- A task enters `connect` where none is inside. -/
theorem of_entered (hf : mux.connecting = none) (hc : next.connecting ≠ none) : Sole next := by
  have ho : ∀ other, (next.tasks other).stage.connects = true → other = task := by
    intro other hother
    by_contra hne
    rw [hm, Mux.setStage_other _ _ hne] at hother
    exact h.busy other hother hf
  exact ⟨fun first second hfirst hs => (ho first hfirst).trans (ho second hs).symm, fun _ _ => hc⟩

end

section

variable (h : Sole mux)
include h

theorem none_dials {conn : Nat} (hs : (mux.tasks task).stage = .dialed conn) (other : Nat) :
    ((mux.setStage task (.ended .connected)).tasks other).stage.dials = false := by
  by_cases ho : other = task
  · rw [ho, Mux.setStage_self]
    rfl
  · rw [Mux.setStage_other _ _ ho]
    cases hd : (mux.tasks other).stage.dials with
    | false => rfl
    | true =>
      have ht : (mux.tasks task).stage.connects = true := by rw [hs]; rfl
      exact absurd (h.alone other task (Stage.connects_of_dials hd) ht) ho

theorem hangUp (conn : Nat) : Sole (mux.hangUp conn) := by
  obtain ⟨conns, hf⟩ := mux.hangUp_frame conn
  rw [hf]
  exact h.kept rfl fun _ => id

theorem start (task : Nat) : Sole (mux.start task) := by
  rw [Mux.start]
  split
  · obtain ⟨hconnecting, stage, hs, hmoved⟩ := mux.carryOn_moved task
    apply h.of_moved hmoved hconnecting
    intro hc
    rw [hs] at hc
    cases hc
  · split
    · exact h.of_moved rfl rfl nofun
    · split
      next => exact h.of_moved rfl rfl nofun
      next hf => exact h.of_entered rfl hf nofun

theorem create (bare : Bool) : Sole (mux.create bare) := by
  refine h.kept rfl fun other ho => ?_
  by_cases hc : other = mux.called
  · subst hc
    simp [Mux.create, Stage.connects] at ho
  · simpa [Mux.create, hc] using ho

theorem abandoned (ht : (mux.tasks task).stage.connects = true) (ending : Ending) :
    Sole (mux.abandon task ending) := by
  obtain ⟨_, stage, hs, hmoved⟩ := mux.abandon_moved task ending
  exact h.of_left hmoved hs ht

private theorem established (ht : (mux.tasks task).stage.connects = true) (conn : Nat) :
    Sole (mux.establish db task conn) := by
  obtain ⟨stage, hmoved, hc | hs⟩ := mux.establish_moved db task conn
  · exact h.of_moved hmoved hc fun _ => ht
  · exact h.of_left hmoved hs ht

theorem resumed (hr : Resumed db mux task next) : Sole next := by
  cases hr with
  | ended ending _ => exact h.of_moved rfl rfl nofun
  | carriedOn _ _ =>
    obtain ⟨hconnecting, stage, hs, hmoved⟩ := mux.carryOn_moved task
    apply h.of_moved hmoved hconnecting
    intro hc
    rw [hs] at hc
    cases hc
  | abandoned ending hs => exact h.abandoned hs ending
  | hungUp conn hs =>
    refine (h.hangUp conn).abandoned ?_ .cancelled
    obtain ⟨conns, hf⟩ := mux.hangUp_frame conn
    rw [hf, hs]
    rfl
  | proceeded command conn answered hs _ _ =>
    obtain ⟨_, stage, hcalm, hmoved⟩ := mux.proceed_moved task
    exact h.of_left hmoved hcalm (by rw [hs]; rfl)
  | established conn hs _ => exact h.established (by rw [hs]; rfl) conn

private theorem flagTask (task : Nat) : Sole (mux.flagTask task) := by
  refine h.kept rfl fun other ho => ?_
  by_cases ht : other = task
  · subst ht
    simpa [Mux.flagTask] using ho
  · simpa [Mux.flagTask, ht] using ho

theorem cancelled (hc : mux.cancel task = some next) : Sole next := by
  rcases cancelled_of_cancel hc with rfl | ⟨attempt, rfl⟩ | ⟨command, rfl⟩
  · exact h.flagTask task
  · refine Sole.flagTask ?_ task
    rw [Mux.cancelAttempt]
    split
    · exact h.kept rfl fun _ => id
    · exact h
  · refine Sole.flagTask ?_ task
    rw [Mux.cancelFuture]
    split
    · exact h.kept rfl fun _ => id
    · exact h

theorem replied {conn : Nat} (hr : mux.reply conn = some next) : Sole next := by
  rw [Mux.reply] at hr
  split at hr
  next command rest _ _ =>
    cases hr
    rw [Mux.dataReceived]
    split
    next =>
      refine Sole.hangUp ?_ conn
      exact h.kept rfl fun _ => id
    next =>
      split
      · exact h.kept rfl fun _ => id
      · exact h.kept rfl fun _ => id
  next => cases hr

theorem flushed : Sole mux.flush := by
  rw [Mux.flush]
  split
  next => exact h.kept rfl fun _ => id
  next conn _ =>
    obtain ⟨ht, hc⟩ := Mux.write_moved
      { mux with flushScheduled := false, flushes := mux.flushes - 1 } conn mux.wbuf
    exact h.kept hc fun other ho => by rwa [ht] at ho

private theorem closed : Sole mux.close := by
  rw [Mux.close]
  split
  next => exact h.kept rfl fun _ => id
  next conn _ => exact (h.hangUp conn).kept rfl fun _ => id

end

theorem stepped {action : Action} (h : Sole mux)
    (hs : step db refuses action mux = some next) : Sole next := by
  cases action with
  | call bare =>
    cases hs
    exact (h.create bare).start mux.called
  | connected task =>
    rw [step] at hs
    split at hs
    next hd =>
      cases hs
      exact h.of_moved rfl rfl fun _ => by rw [stage_of_awaitsDial hd]; rfl
    next => cases hs
  | unreachable task =>
    rw [step] at hs
    split at hs
    next hd =>
      cases hs
      exact h.abandoned (by rw [stage_of_awaitsDial hd]; rfl) .unreachable
    next => cases hs
  | resume task => exact h.resumed (resumed_of_step hs)
  | cancel task => exact h.cancelled hs
  | flush =>
    rw [step] at hs
    split at hs
    next =>
      cases hs
      exact h.flushed
    next => cases hs
  | reply conn => exact h.replied hs
  | hangUp conn =>
    rw [step] at hs
    split at hs
    next =>
      cases hs
      exact h.hangUp conn
    next => cases hs
  | connectionLost conn =>
    rw [step] at hs
    split at hs
    next =>
      cases hs
      exact h.kept rfl fun _ => id
    next => cases hs
  | close =>
    cases hs
    exact h.closed

end Sole

namespace Mux

@[simp] theorem setStage_setStage (mux : Mux) (task : Nat) (first second : Stage) :
    (mux.setStage task first).setStage task second = mux.setStage task second := by
  simp [setStage]

/-! What a task does next does not depend on where it waited. -/

variable (mux : Mux) (task : Nat) (stage : Stage)

private theorem write_setStage (conn : Nat) (commands : List Nat) :
    (mux.setStage task stage).write conn commands =
      (mux.write conn commands).setStage task stage := by
  have hs : ((mux.setStage task stage).conns conn).status = (mux.conns conn).status := rfl
  rw [write, write, hs]
  split <;> rfl

theorem send_setStage (select : Bool) :
    (mux.setStage task stage).send task select = mux.send task select := by
  by_cases hidle : mux.waiters = [] ∧ mux.wbuf = []
  · cases ht : mux.transport with
    | none =>
      rw [mux.send_noTransport hidle ht, (mux.setStage task stage).send_noTransport hidle
        ht]
      exact setStage_setStage (mux.enqueue select) task stage _
    | some conn =>
      rw [mux.send_idle hidle ht, (mux.setStage task stage).send_idle hidle ht]
      rw [show (mux.setStage task stage).enqueue select = (mux.enqueue select).setStage task stage
        from rfl, write_setStage, setStage_setStage]
      rfl
  · rw [mux.send_busy hidle, (mux.setStage task stage).send_busy hidle]
    exact setStage_setStage ((mux.enqueue select).coalesce mux.sent) task stage _

theorem carryOn_setStage : (mux.setStage task stage).carryOn task = mux.carryOn task := by
  have hb : ((mux.setStage task stage).tasks task).bare = (mux.tasks task).bare := by
    simp [setStage]
  rw [carryOn, carryOn, hb, send_setStage, setStage_setStage]

theorem settle_setStage : (mux.setStage task stage).settle = mux.settle.setStage task stage := by
  rw [settle, settle]
  dsimp only [setStage]
  split <;> rfl

theorem proceed_setStage : (mux.setStage task stage).proceed task = mux.proceed task := by
  rw [proceed, settle_setStage, carryOn_setStage, setStage_setStage]
  rfl

private theorem abandon_setStage (ending : Ending) :
    (mux.setStage task stage).abandon task ending = mux.abandon task ending := by
  rw [abandon, settle_setStage, setStage_setStage]
  rfl

theorem establish_setStage (conn : Nat) :
    (mux.setStage task stage).establish db task conn = mux.establish db task conn := by
  rw [establish]
  have hp : (mux.setStage task stage).publish conn = (mux.publish conn).setStage task stage :=
    rfl
  rw [hp, send_setStage, abandon_setStage, proceed_setStage, setStage_setStage]
  rfl

end Mux

/-- A task takes up a new connection when every other one has been reported lost and the new one
has not; and a task whose `SELECT` was answered goes on before that connection is reported
lost. -/
def inTurn (mux : Mux) : Action → Bool
  | .resume task =>
    match (mux.tasks task).stage with
    | .dialed conn =>
      (mux.tasks task).cancelled || ((mux.conns conn).status != .lost &&
        (List.range mux.dials).all fun other =>
          other == conn || (mux.conns other).status == .lost)
    | .selecting command =>
      match (mux.commands command).future with
      | .replied conn _ => (mux.tasks task).cancelled || (mux.conns conn).status != .lost
      | _ => true
    | _ => true
  | _ => true

namespace Wired

section

variable (h : Wired mux)
include h

theorem home_of_usable (hu : mux.usable = true) : mux.Home := by
  obtain ⟨conn, ht, ho⟩ := mux.usable_iff.1 hu
  refine ⟨conn, by rw [ho]; nofun, fun task hs => ?_⟩
  exact (h.dialed task conn hs).2.1 ht

theorem carryOn (hh : mux.Home) (task : Nat) : Wired (mux.carryOn task) := by
  rw [Mux.carryOn]
  split
  · exact h.setStage task rfl
  · exact h.send hh task false

theorem abandon (task : Nat) (ending : Ending) : Wired (mux.abandon task ending) :=
  h.settle.setStage task rfl

theorem proceed (hh : mux.Home) (task : Nat) : Wired (mux.proceed task) := by
  rw [Mux.proceed]
  split
  · refine h.settle.carryOn ?_ task
    obtain ⟨conn, hnotLost, hp⟩ := hh
    refine ⟨conn, ?_, ?_⟩
    · rw [Mux.settle]
      split <;> exact hnotLost
    · rw [mux.settle_moved.2]
      exact hp
  · exact h.settle.setStage task rfl

theorem nothing_pending {conn : Nat} (ho : ∀ other, other ≠ conn → (mux.conns other).status = .lost)
    (hs : (mux.tasks task).stage = .dialed conn) (command : Nat) :
    (mux.commands command).future ≠ .pending := by
  intro hp
  obtain ⟨home, hnotLost, hpublished⟩ := h.home command hp
  by_cases hh : home = conn
  · subst hh
    exact hpublished task hs
  · exact hnotLost (ho home hh)

theorem establish (hsole : Sole mux) {conn : Nat} (hs : (mux.tasks task).stage = .dialed conn)
    (hnotLost : (mux.conns conn).status ≠ .lost)
    (ho : ∀ other, other ≠ conn → (mux.conns other).status = .lost) :
    Wired (mux.establish db task conn) := by
  obtain ⟨hm, _, _, hu⟩ := h.dialed task conn hs
  -- The task has left its dial; no other one dials.
  have hc : Wired (mux.setStage task (.ended .connected)) := h.setStage task rfl
  have hd := hsole.none_dials hs
  have hp := hc.publish hm hnotLost ho hu hd
    (h.nothing_pending ho hs)
  have hh : ((mux.setStage task (.ended .connected)).publish conn).Home := by
    refine ⟨conn, hnotLost, fun other hother => ?_⟩
    have hcalmStage := hd other
    rw [show ((mux.setStage task (.ended .connected)).tasks other).stage = _ from hother]
      at hcalmStage
    cases hcalmStage
  rw [← mux.establish_setStage task (.ended .connected) conn, Mux.establish]
  split
  · split
    · exact hp.send hh task true
    · split
      · exact hp.abandon task .muxClosed
      · exact hp.setStage task rfl
  · exact hp.proceed hh task

theorem resumed (hsole : Sole mux) (ht : inTurn mux (.resume task) = true)
    (hresumed : Resumed db mux task next) : Wired next := by
  cases hresumed with
  | ended ending _ => exact h.setStage task rfl
  | carriedOn hu _ => exact h.carryOn (h.home_of_usable hu) task
  | abandoned ending _ => exact h.abandon task ending
  | hungUp conn _ => exact (h.hangUp conn).abandon task .cancelled
  | proceeded command conn answered hs hc hr =>
    refine h.proceed ⟨conn, ?_, ?_⟩ task
    · simpa [inTurn, hs, hr, hc] using ht
    · intro other ho
      have hmem := (h.own command conn answered hr).2
      rw [(h.dialed other conn ho).2.2.1] at hmem
      cases hmem
  | established conn hs hc =>
    simp only [inTurn, hs, hc, Bool.false_or, Bool.and_eq_true, bne_iff_ne,
      List.all_eq_true, List.mem_range, Bool.or_eq_true, beq_iff_eq] at ht
    refine h.establish hsole hs ht.1 fun other ho => ?_
    by_cases hm : other < mux.dials
    · exact (ht.2 other hm).resolve_left ho
    · rw [h.made other (Nat.not_lt.1 hm)]

theorem cancelled (hc : mux.cancel task = some next) : Wired next := by
  rcases cancelled_of_cancel hc with rfl | ⟨attempt, rfl⟩ | ⟨command, rfl⟩
  · exact h.flagTask task
  · exact (h.cancelAttempt attempt).flagTask task
  · exact (h.cancelFuture command).flagTask task

private theorem start (task : Nat) : Wired (mux.start task) := by
  rw [Mux.start]
  split
  next hu => exact h.carryOn (h.home_of_usable hu) task
  next hu =>
    split
    · exact h.setStage task rfl
    · split
      next => exact h.setStage task rfl
      next => exact h.dialing (by simpa using hu) task

end

theorem stepped {action : Action} (h : Wired mux) (hsole : Sole mux)
    (ht : inTurn mux action = true) (hs : step db refuses action mux = some next) :
    Wired next := by
  cases action with
  | call bare =>
    cases hs
    exact (h.create bare).start mux.called
  | connected task =>
    rw [step] at hs
    split at hs
    next hd =>
      cases hs
      exact h.connected (stage_of_awaitsDial hd)
    next => cases hs
  | unreachable task =>
    rw [step] at hs
    split at hs
    next =>
      cases hs
      exact h.abandon task .unreachable
    next => cases hs
  | resume task => exact h.resumed hsole ht (resumed_of_step hs)
  | cancel task => exact h.cancelled hs
  | flush =>
    rw [step] at hs
    split at hs
    next =>
      cases hs
      exact h.flush
    next => cases hs
  | reply conn => exact h.reply hs
  | hangUp conn =>
    rw [step] at hs
    split at hs
    next =>
      cases hs
      exact h.hangUp conn
    next => cases hs
  | connectionLost conn =>
    rw [step] at hs
    split at hs
    next hc =>
      cases hs
      exact h.connectionLost hc
    next => cases hs
  | close =>
    cases hs
    exact h.close

theorem initial : Wired {} where
  queue := nofun
  waits := nofun
  own := nofun
  quiet := nofun
  home := nofun
  sole := nofun
  dial := nofun
  dialed := nofun
  made := fun _ _ => rfl
  published := nofun

end Wired

structure Ordered (mux : Mux) : Prop where
  sole : Sole mux
  wired : Wired mux

/-- As long as connections are taken up in turn, a future is resolved with the reply to its own
command or with an error, and it stays in the queue until it is done. -/
theorem replied_in_turn (db : Bool) (refuses : Nat → Bool) (actions : List Action) {mux : Mux}
    (hrun : runActions (step db refuses) actions {} = some mux)
    (hturn : Meets (step db refuses) (fun mux action => inTurn mux action = true) actions {}) :
    (∀ command conn answered, (mux.commands command).future = .replied conn answered →
        answered = command ∧ command ∈ (mux.conns conn).answered) ∧
      ∀ command, (mux.commands command).future = .pending → command ∈ mux.waiters := by
  have ho : Ordered mux := by
    refine hturn.keeps hrun ?_ ⟨⟨nofun, nofun⟩, Wired.initial⟩
    exact fun _ _ _ hm hs h => ⟨h.sole.stepped hs, h.wired.stepped h.sole hm hs⟩
  exact ⟨ho.wired.own, ho.wired.waits⟩

def servedRun : List Action :=
  [.call false, .connected 0, .resume 0, .reply 0, .resume 0, .call false, .flush, .reply 0,
    .reply 0, .resume 0, .resume 1, .hangUp 0, .connectionLost 0, .call false, .connected 2,
    .resume 2, .reply 1, .resume 2, .reply 1, .resume 2]

theorem served_in_turn :
    ∃ mux, runActions (step true fun _ => false) servedRun {} = some mux ∧
      (mux.commands 2).future = .replied 0 2 ∧ (mux.commands 4).future = .replied 1 4 ∧
      2 ∈ (mux.conns 0).answered := by
  have ht : Meets (step true fun _ => false) (fun mux action => inTurn mux action = true)
      servedRun {} := by
    decide
  obtain ⟨mux, hrun, hs, hf⟩ :
      ∃ mux, runActions (step true fun _ => false) servedRun {} = some mux ∧
        (mux.commands 2).future = .replied 0 2 ∧ (mux.commands 4).future = .replied 1 4 :=
    ⟨_, rfl, rfl, rfl⟩
  have hserved := replied_in_turn true (fun _ => false) servedRun hrun ht
  exact ⟨mux, hrun, hs, hf, (hserved.1 2 0 2 hs).2⟩

def overlappingRun : List Action :=
  [.call false, .connected 0, .resume 0, .hangUp 0, .call false, .connected 1, .resume 1,
    .connectionLost 0]

theorem waiting_future_dropped :
    ∃ mux, runActions (step false fun _ => false) overlappingRun {} = some mux ∧
      (mux.commands 0).future = .pending ∧ 0 ∉ mux.waiters ∧
      (mux.conns 0).status = .lost ∧ mux.transport = none ∧
      (mux.conns 1).status = .opened := by
  refine ⟨_, rfl, rfl, ?_, rfl, rfl, rfl⟩
  decide

end FastapiTurbo.RedisMux
