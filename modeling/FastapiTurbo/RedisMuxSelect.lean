import FastapiTurbo.RedisMuxReplies

/-! A mux with a database of its own: the first command on each of its connections is the
`SELECT`. -/
namespace FastapiTurbo.RedisMux

open Lib List

variable {refuses : Nat → Bool} {mux next : Mux} {task : Nat}

def Conn.written (conn : Conn) : List Nat :=
  conn.answered ++ conn.unanswered

structure Selected (mux : Mux) : Prop where
  first : ∀ conn command rest, (mux.conns conn).written = command :: rest →
    (mux.commands command).select = true
  used : ∀ conn, mux.transport = some conn → (mux.conns conn).status = .opened →
    (mux.conns conn).written ≠ []
  dialed : ∀ task conn, (mux.tasks task).stage = .dialed conn →
    conn < mux.dials ∧ mux.transport ≠ some conn ∧ (mux.conns conn).written = []
  published : ∀ conn, mux.transport = some conn → conn < mux.dials
  sent : ∀ conn, ∀ command ∈ (mux.conns conn).written, command < mux.sent
  buffered : ∀ command ∈ mux.wbuf, command < mux.sent

namespace Selected

section

variable (h : Selected mux)
include h

theorem kept (hw : ∀ conn, (next.conns conn).written = (mux.conns conn).written)
    (ho : ∀ conn, (next.conns conn).status = .opened → (mux.conns conn).status = .opened)
    (ht : ∀ conn, next.transport = some conn → mux.transport = some conn)
    (hd : next.dials = mux.dials) (hs : mux.sent ≤ next.sent)
    (hwbuf : ∀ command ∈ next.wbuf, command < next.sent) (hselect : ∀ command, command < mux.sent →
      (next.commands command).select = (mux.commands command).select)
    (hstages : ∀ task conn, (next.tasks task).stage = .dialed conn →
      (mux.tasks task).stage = .dialed conn) : Selected next where
  first := by
    intro conn command rest hf
    rw [hw] at hf
    rw [hselect command (h.sent conn command (by rw [hf]; exact mem_cons_self))]
    exact h.first conn command rest hf
  used := by
    intro conn hp hstatus
    rw [hw]
    exact h.used conn (ht conn hp) (ho conn hstatus)
  dialed := by
    intro task conn hstage
    obtain ⟨hm, hu, he⟩ := h.dialed task conn (hstages task conn hstage)
    refine ⟨by rw [hd]; exact hm, ?_, by rw [hw, he]⟩
    exact fun hp => hu (ht conn hp)
  published := by
    intro conn hp
    rw [hd]
    exact h.published conn (ht conn hp)
  sent := by
    intro conn command hmem
    rw [hw] at hmem
    exact Nat.lt_of_lt_of_le (h.sent conn command hmem) hs
  buffered := hwbuf

theorem settled {ts : Nat → Task} {connecting : Option Nat} {ats : Nat → Attempt}
    {attempted called : Nat} (hs : ∀ task conn, (ts task).stage = .dialed conn →
      (mux.tasks task).stage = .dialed conn) :
    Selected { mux with
      tasks := ts, connecting := connecting, attempts := ats, attempted := attempted,
      called := called } :=
  h.kept (fun _ => rfl) (fun _ => id) (fun _ => id) rfl (Nat.le_refl _) h.buffered
    (fun _ _ => rfl) hs

theorem setFuture (command : Nat) (future : Future) : Selected (mux.setFuture command future) := by
  refine h.kept (fun _ => rfl) (fun _ => id) (fun _ => id) rfl (Nat.le_refl _) h.buffered ?_
    fun _ _ => id
  intro other _
  by_cases ho : other = command
  · simp [Mux.setFuture, ho]
  · simp [Mux.setFuture, ho]

theorem setStage (task : Nat) {stage : Stage} (hs : ∀ conn, stage ≠ .dialed conn) :
    Selected (mux.setStage task stage) := by
  refine h.settled fun other conn ho => ?_
  by_cases ht : other = task
  · subst ht
    rw [Function.update_self] at ho
    exact absurd ho (hs conn)
  · rwa [Function.update_of_ne ht] at ho

theorem flagTask (task : Nat) : Selected (mux.flagTask task) := by
  refine h.settled fun other conn ho => ?_
  by_cases ht : other = task
  · subst ht
    rwa [Function.update_self] at ho
  · rwa [Function.update_of_ne ht] at ho

theorem create (bare : Bool) : Selected (mux.create bare) := by
  refine h.settled fun other conn ho => ?_
  by_cases hc : other = mux.called
  · subst hc
    rw [Function.update_self] at ho
    cases ho
  · rwa [Function.update_of_ne hc] at ho

theorem settle : Selected mux.settle := by
  rw [Mux.settle]
  split
  · exact h
  · exact h.settled fun _ _ => id

theorem abandon (task : Nat) (ending : Ending) : Selected (mux.abandon task ending) :=
  h.settle.setStage task (by simp)

theorem hangUp (conn : Nat) : Selected (mux.hangUp conn) := by
  have hc := mux.hangUp_conn conn
  obtain ⟨conns, hf⟩ := mux.hangUp_frame conn
  rw [hf] at hc ⊢
  refine h.kept (fun other => ?_) (fun other ho => ((hc other).2.2.2 ho).2)
    (fun _ => id) rfl (Nat.le_refl _) h.buffered (fun _ _ => rfl) fun _ _ => id
  rw [Conn.written, (hc other).1, (hc other).2.1]
  rfl

theorem cancelled (hc : mux.cancel task = some next) : Selected next := by
  rcases cancelled_of_cancel hc with rfl | ⟨attempt, rfl⟩ | ⟨command, rfl⟩
  · exact h.flagTask task
  · refine Selected.flagTask ?_ task
    rw [Mux.cancelAttempt]
    split
    · exact h.settled fun _ _ => id
    · exact h
  · refine Selected.flagTask ?_ task
    rw [Mux.cancelFuture]
    split
    · exact h.setFuture command .cancelled
    · exact h

theorem enqueue (select : Bool) : Selected (mux.enqueue select) := by
  refine h.kept (fun _ => rfl) (fun _ => id) (fun _ => id) rfl (Nat.le_succ _) ?_ ?_
    fun _ _ => id
  · exact fun command hmem => Nat.lt_succ_of_lt (h.buffered command hmem)
  · intro command hc
    simp [Mux.enqueue, Nat.ne_of_lt hc]

/-- What is written to a connection in use stands behind its `SELECT`. -/
theorem write {conn : Nat} (hp : mux.transport = some conn) {commands : List Nat}
    (hcommands : ∀ command ∈ commands, command < mux.sent) :
    Selected (mux.write conn commands) := by
  by_cases ho : (mux.conns conn).status = .opened
  · have hu := h.used conn hp ho
    obtain ⟨conns, hframe, hother, hstatus, ha, hunanswered⟩ := mux.write_spec conn commands
    have hw : (conns conn).written = (mux.conns conn).written ++ commands := by
      rw [Conn.written, ha, hunanswered ho, ← append_assoc, Conn.written]
    rw [hframe]
    exact {
      first := by
        intro other command rest hf
        by_cases hc : other = conn
        · subst hc
          rw [hw] at hf
          cases hb : (mux.conns other).written with
          | nil => exact absurd hb hu
          | cons head tail =>
            rw [hb] at hf
            cases hf
            exact h.first other command tail hb
        · dsimp only at hf
          rw [hother other hc] at hf
          exact h.first other command rest hf
      used := by
        intro other hcurrent _ he
        rw [hp] at hcurrent
        cases hcurrent
        rw [hw] at he
        exact hu (append_eq_nil_iff.1 he).1
      dialed := by
        intro task other hs
        obtain ⟨hm, hunpublished, he⟩ := h.dialed task other hs
        refine ⟨hm, hunpublished, ?_⟩
        have hc : other ≠ conn := by
          rintro rfl
          exact hunpublished hp
        dsimp only
        rw [hother other hc]
        exact he
      published := h.published
      sent := by
        intro other command hmem
        by_cases hc : other = conn
        · subst hc
          rw [hw] at hmem
          rcases mem_append.1 hmem with hmem | hmem
          · exact h.sent other command hmem
          · exact hcommands command hmem
        · dsimp only at hmem
          rw [hother other hc] at hmem
          exact h.sent other command hmem
      buffered := h.buffered }
  · rw [Mux.write, if_neg ho]
    exact h

private theorem send (task : Nat) (select : Bool) : Selected (mux.send task select) := by
  have hq := h.enqueue select
  have hs : ∀ conn, Mux.stageOf select mux.sent ≠ .dialed conn := by
    cases select <;> simp [Mux.stageOf]
  rw [Mux.send]
  split
  · split
    next => exact hq.setStage task (by simp)
    next conn hp =>
      refine Selected.setStage ?_ task hs
      refine hq.write hp fun command hmem => ?_
      rw [mem_singleton.1 hmem]
      exact Nat.lt_succ_self _
  · refine Selected.setStage ?_ task hs
    refine hq.kept (fun _ => rfl) (fun _ => id) (fun _ => id) rfl (Nat.le_refl _) ?_
      (fun _ _ => rfl) fun _ _ => id
    intro command hmem
    rcases mem_append.1 hmem with hmem | hmem
    · exact hq.buffered command hmem
    · rw [mem_singleton.1 hmem]
      exact Nat.lt_succ_self _

theorem carryOn (task : Nat) : Selected (mux.carryOn task) := by
  rw [Mux.carryOn]
  split
  · exact h.setStage task (by simp)
  · exact h.send task false

theorem proceed (task : Nat) : Selected (mux.proceed task) := by
  rw [Mux.proceed]
  split
  · exact h.settle.carryOn task
  · exact h.settle.setStage task (by simp)

theorem flush : Selected mux.flush := by
  have hidle : Selected { mux with flushScheduled := false, flushes := mux.flushes - 1 } :=
    h.kept (fun _ => rfl) (fun _ => id) (fun _ => id) rfl (Nat.le_refl _) h.buffered
      (fun _ _ => rfl) fun _ _ => id
  rw [Mux.flush]
  split
  next => exact hidle
  next conn hp =>
    exact (hidle.write hp h.buffered).kept (fun _ => rfl) (fun _ => id) (fun _ => id) rfl
      (Nat.le_refl _) (by simp) (fun _ _ => rfl) fun _ _ => id

theorem reply {conn : Nat} (hr : mux.reply conn = some next) : Selected next := by
  rw [Mux.reply] at hr
  split at hr
  next command rest hopened hu =>
    cases hr
    have ha : Selected (mux.setConn conn { mux.conns conn with
        answered := (mux.conns conn).answered ++ [command], unanswered := rest }) := by
      refine h.kept (fun other => ?_) (fun other => ?_) (fun _ => id) rfl (Nat.le_refl _)
        h.buffered (fun _ _ => rfl) fun _ _ => id
      · by_cases ho : other = conn
        · subst ho
          simp [Conn.written, hu]
        · rw [mux.setConn_other _ ho]
      · by_cases ho : other = conn
        · subst ho
          simp
        · rw [mux.setConn_other _ ho]
          exact id
    rw [Mux.dataReceived]
    split
    next => exact ha.hangUp conn
    next waiter waiters _ =>
      split
      · exact (ha.setFuture waiter _).kept (fun _ => rfl) (fun _ => id) (fun _ => id) rfl
          (Nat.le_refl _) h.buffered (fun _ _ => rfl) fun _ _ => id
      · exact ha.kept (fun _ => rfl) (fun _ => id) (fun _ => id) rfl (Nat.le_refl _)
          h.buffered (fun _ _ => rfl) fun _ _ => id
  next => cases hr

theorem connectionLost (conn : Nat) :
    Selected (mux.setConn conn { mux.conns conn with status := .lost }).onConnectionLost := by
  refine h.kept (fun other => ?_) (fun other => ?_) (by simp [Mux.onConnectionLost]) rfl
    (Nat.le_refl _) h.buffered ?_
    fun _ _ => id
  · by_cases ho : other = conn
    · subst ho
      simp [Mux.onConnectionLost, Conn.written]
    · rw [Mux.onConnectionLost, mux.setConn_other _ ho]
  · by_cases ho : other = conn
    · subst ho
      simp [Mux.onConnectionLost]
    · rw [Mux.onConnectionLost, mux.setConn_other _ ho]
      exact id
  · intro command _
    change (Mux.failAll mux.commands mux.waiters command).select = _
    rw [Mux.failAll]
    split <;> rfl

theorem close : Selected mux.close := by
  rw [Mux.close]
  split
  next hn =>
    exact h.kept (fun _ => rfl) (fun _ => id) (fun _ => id) rfl (Nat.le_refl _) h.buffered
      (fun _ _ => rfl) fun _ _ => id
  next conn _ =>
    exact (h.hangUp conn).kept (fun _ => rfl) (fun _ => id) (by simp) rfl (Nat.le_refl _)
      (h.hangUp conn).buffered (fun _ _ => rfl) fun _ _ => id

theorem connected (hsole : Sole mux) (hd : (mux.tasks task).stage = .dialing) :
    Selected { (mux.setConn mux.dials { status := .opened }).setStage task (.dialed mux.dials) with
      dials := mux.dials + 1 } := by
  have hu : mux.transport ≠ some mux.dials :=
    fun hp => Nat.lt_irrefl _ (h.published _ hp)
  have hw : ∀ other,
      ((mux.setConn mux.dials { status := .opened }).conns other).written = [] ∨
      (mux.setConn mux.dials { status := .opened }).conns other = mux.conns other := by
    intro other
    by_cases hother : other = mux.dials
    · subst hother
      rw [Mux.setConn_self]
      exact .inl rfl
    · exact .inr (mux.setConn_other _ hother)
  exact {
    first := by
      intro conn command rest hf
      rcases hw conn with he | hsame
      · cases he.symm.trans hf
      · exact h.first conn command rest (hsame ▸ hf)
    used := by
      intro conn hp ho
      have hne : conn ≠ mux.dials := by
        rintro rfl
        exact hu hp
      dsimp only [Mux.setStage] at ho ⊢
      rw [mux.setConn_other _ hne] at ho ⊢
      exact h.used conn hp ho
    dialed := by
      intro other conn hs
      by_cases ht : other = task
      · subst ht
        rw [Mux.setStage_self] at hs
        cases hs
        refine ⟨Nat.lt_succ_self _, hu, ?_⟩
        dsimp only [Mux.setStage]
        rw [Mux.setConn_self]
        rfl
      · rw [Mux.setStage_other _ _ ht] at hs
        refine absurd (hsole.alone other task ?_ (by rw [hd]; rfl)) ht
        rw [show (mux.tasks other).stage = _ from hs]
        rfl
    published := fun conn hp => Nat.lt_succ_of_lt (h.published conn hp)
    sent := by
      intro conn command hmem
      dsimp only [Mux.setStage] at hmem
      rcases hw conn with he | hsame
      · rw [he] at hmem
        cases hmem
      · rw [hsame] at hmem
        exact h.sent conn command hmem
    buffered := h.buffered }

theorem publish {conn : Nat} (hm : conn < mux.dials) (hclosing : (mux.conns conn).status ≠ .opened)
    (hdials : ∀ task, (mux.tasks task).stage.dials = false) : Selected (mux.publish conn) where
  first := h.first
  used := by
    intro current hc ho
    cases hc
    exact absurd ho hclosing
  dialed := by
    intro task other hs
    have hd := hdials task
    rw [show (mux.tasks task).stage = _ from hs] at hd
    cases hd
  published := by
    intro current hc
    cases hc
    exact hm
  sent := h.sent
  buffered := by simp [Mux.publish]

/-- The `SELECT` is the first command on an open connection. -/
theorem publish_send {conn : Nat} (hm : conn < mux.dials)
    (hopened : (mux.conns conn).status = .opened)
    (he : (mux.conns conn).written = []) (hdials : ∀ task, (mux.tasks task).stage.dials = false)
    (task : Nat) : Selected ((mux.publish conn).send task true) := by
  have hstages : ∀ task other, (mux.tasks task).stage ≠ .dialed other := by
    intro task other hs
    have hd := hdials task
    rw [hs] at hd
    cases hd
  refine Selected.setStage ?_ task (by simp [Mux.stageOf])
  obtain ⟨conns, hframe, ho, hstatus, ha, hu⟩ :=
    ((mux.publish conn).enqueue true).write_spec conn [(mux.publish conn).sent]
  have hw : (conns conn).written = [mux.sent] := by
    rw [Conn.written, ha, hu hopened, ← append_assoc]
    exact congrArg (· ++ [mux.sent]) he
  have hselect : ∀ command, command < mux.sent →
      (((mux.publish conn).enqueue true).commands command).select =
        (mux.commands command).select := by
    intro command hcommand
    simp [Mux.enqueue, Mux.publish, Nat.ne_of_lt hcommand]
  rw [hframe]
  exact {
    first := by
      intro other command rest hf
      dsimp only at hf
      by_cases hc : other = conn
      · subst hc
        rw [hw] at hf
        cases hf
        simp [Mux.enqueue, Mux.publish]
      · rw [ho other hc] at hf
        have hf : (mux.conns other).written = command :: rest := hf
        rw [hselect command (h.sent other command (by rw [hf]; exact mem_cons_self))]
        exact h.first other command rest hf
    used := by
      intro current hcurrent _
      cases hcurrent
      rw [hw]
      exact cons_ne_nil _ _
    dialed := fun task other hs => absurd hs (hstages task other)
    published := by
      intro current hcurrent
      cases hcurrent
      exact hm
    sent := by
      intro other command hmem
      dsimp only at hmem
      by_cases hc : other = conn
      · subst hc
        rw [hw, mem_singleton] at hmem
        rw [hmem]
        exact Nat.lt_succ_self _
      · rw [ho other hc] at hmem
        exact Nat.lt_succ_of_lt (h.sent other command hmem)
    buffered := by simp [Mux.publish, Mux.enqueue] }

theorem establish (hsole : Sole mux) {conn : Nat} (hs : (mux.tasks task).stage = .dialed conn) :
    Selected (mux.establish true task conn) := by
  obtain ⟨hm, _, he⟩ := h.dialed task conn hs
  have hc : Selected (mux.setStage task (.ended .connected)) := h.setStage task (by simp)
  have hd := hsole.none_dials hs
  rw [← mux.establish_setStage task (.ended .connected) conn, Mux.establish, if_pos rfl]
  split
  next hu =>
    obtain ⟨current, hcurrent, ho⟩ := (Mux.usable_iff _).1 hu
    cases hcurrent
    exact hc.publish_send hm ho he hd task
  next hu =>
    have hclosing : (mux.conns conn).status ≠ .opened :=
      fun ho => hu ((Mux.usable_iff _).2 ⟨conn, rfl, ho⟩)
    have hp := hc.publish hm hclosing hd
    split
    · exact hp.abandon task .muxClosed
    · exact hp.setStage task (by simp)

theorem resumed (hs : Sole mux) (hr : Resumed true mux task next) : Selected next := by
  cases hr with
  | ended ending _ => exact h.setStage task (by simp)
  | carriedOn _ _ => exact h.carryOn task
  | abandoned ending _ => exact h.abandon task ending
  | hungUp conn _ => exact (h.hangUp conn).abandon task .cancelled
  | proceeded command conn answered _ _ _ => exact h.proceed task
  | established conn hstage _ => exact h.establish hs hstage

private theorem start (task : Nat) : Selected (mux.start task) := by
  rw [Mux.start]
  split
  · exact h.carryOn task
  · split
    · exact h.setStage task (by simp)
    · split
      next => exact h.setStage task (by simp)
      next =>
        have hd : Selected (mux.setStage task .dialing) := h.setStage task (by simp)
        exact hd.settled fun _ _ => id

end

theorem stepped {action : Action} (h : Selected mux) (hsole : Sole mux)
    (hs : step true refuses action mux = some next) : Selected next := by
  cases action with
  | call bare =>
    cases hs
    exact (h.create bare).start mux.called
  | connected task =>
    rw [step] at hs
    split at hs
    next hd =>
      cases hs
      exact h.connected hsole (stage_of_awaitsDial hd)
    next => cases hs
  | unreachable task =>
    rw [step] at hs
    split at hs
    next =>
      cases hs
      exact h.abandon task .unreachable
    next => cases hs
  | resume task => exact h.resumed hsole (resumed_of_step hs)
  | cancel task => exact h.cancelled hs
  | flush =>
    rw [step] at hs
    split at hs
    next =>
      cases hs
      exact h.flush
    next => cases hs
  | reply conn => exact h.reply hs
  | hangUp conn =>
    rw [step] at hs
    split at hs
    next =>
      cases hs
      exact h.hangUp conn
    next => cases hs
  | connectionLost conn =>
    rw [step] at hs
    split at hs
    next =>
      cases hs
      exact h.connectionLost conn
    next => cases hs
  | close =>
    cases hs
    exact h.close

theorem initial : Selected {} :=
  ⟨nofun, nofun, nofun, nofun, nofun, nofun⟩

end Selected

structure Opened (mux : Mux) : Prop where
  sole : Sole mux
  selected : Selected mux

/-- A command other than `SELECT` is answered behind a `SELECT` that was not refused. -/
def Mux.OwnDatabase (refuses : Nat → Bool) (mux : Mux) : Prop :=
  ∀ conn, ∀ command ∈ (mux.conns conn).answered, (mux.commands command).select = false →
    refuses conn = false ∧ ∃ first ∈ (mux.conns conn).answered, (mux.commands first).select = true

theorem Selected.ownDatabase (h : Selected mux) (hr : ∀ conn, refuses conn = false) :
    mux.OwnDatabase refuses := by
  intro conn command hmem hs
  refine ⟨hr conn, ?_⟩
  cases ha : (mux.conns conn).answered with
  | nil =>
    rw [ha] at hmem
    cases hmem
  | cons first rest =>
    refine ⟨first, mem_cons_self, ?_⟩
    exact h.first conn first (rest ++ (mux.conns conn).unanswered)
      (by rw [Conn.written, ha, cons_append])

structure Rested (count : Nat) (mux : Mux) : Prop where
  transport : mux.transport = none
  waiters : mux.waiters = []
  wbuf : mux.wbuf = []
  connecting : mux.connecting = none
  closed : mux.closed = false
  dials : mux.dials = count
  called : mux.called = count

def lostRound (count : Nat) : List Action :=
  [.call false, .connected count, .resume count, .hangUp count, .connectionLost count,
    .resume count]

theorem Rested.round {count : Nat} (h : Rested count mux) :
    ∃ next, runActions (step true refuses) (lostRound count) mux = some next ∧
      Rested (count + 1) next := by
  obtain ⟨ht, hw, hwbuf, hc, hclosed, hd, hcalled⟩ := h
  cases mux
  dsimp only at *
  subst ht hw hwbuf hc hclosed hd
  subst hcalled
  simp [lostRound, runActions, step, Mux.start, Mux.create, Mux.usable, Mux.setStage,
    Mux.awaitsDial, Mux.setConn, Mux.resume, Mux.establish, Mux.publish, Mux.send, Mux.enqueue,
    Mux.write, Mux.stageOf, Mux.hangUp, Mux.onConnectionLost, Mux.failAll, Mux.resumeSelecting]
  exact ⟨rfl, rfl, rfl, rfl, rfl, rfl, rfl⟩

def refusedRound (count : Nat) : List Action :=
  [.call false, .connected count, .resume count, .reply count, .resume count, .call false,
    .reply count]

theorem Rested.refused {count : Nat} (h : Rested count mux) (hr : refuses count = true) :
    ∃ next, runActions (step true refuses) (refusedRound count) mux = some next ∧
      ¬next.OwnDatabase refuses := by
  obtain ⟨ht, hw, hwbuf, hc, hclosed, hd, hcalled⟩ := h
  cases mux
  dsimp only at *
  subst ht hw hwbuf hc hclosed hd
  subst hcalled
  simp [refusedRound, runActions, step, Mux.start, Mux.create, Mux.usable, Mux.setStage,
    Mux.awaitsDial, Mux.setConn, Mux.resume, Mux.establish, Mux.publish, Mux.send, Mux.enqueue,
    Mux.write, Mux.stageOf, Mux.reply, Mux.dataReceived, Mux.setFuture, Mux.resumeSelecting,
    Mux.fails, hr, Mux.carryOn, Mux.abandon, Mux.settle]
  intro hown
  rename_i sent _ called
  have ha := hown called (sent + 1) (by simp) (by simp)
  rw [hr] at ha
  cases ha.1

private theorem exists_rested (refuses : Nat → Bool) (count : Nat) :
    ∃ actions mux, runActions (step true refuses) actions {} = some mux ∧ Rested count mux := by
  induction count with
  | zero => exact ⟨[], {}, rfl, ⟨rfl, rfl, rfl, rfl, rfl, rfl, rfl⟩⟩
  | succ count ih =>
    obtain ⟨actions, mux, hrun, hr⟩ := ih
    exact ⟨actions ++ lostRound count, exists_runActions_append hrun hr.round⟩

/-- Whatever tasks do in whatever order, commands are answered on the mux's own database if the
server refuses no `SELECT`; and a server that refuses one on any connection gets commands on
database 0. -/
theorem own_database_iff (refuses : Nat → Bool) :
    (∀ actions mux, runActions (step true refuses) actions {} = some mux →
      mux.OwnDatabase refuses) ↔ ∀ conn, refuses conn = false := by
  constructor
  · intro hown conn
    by_contra hr
    obtain ⟨front, between, hf, hrested⟩ := exists_rested refuses conn
    obtain ⟨mux, hrun, hforeign⟩ :=
      exists_runActions_append hf (hrested.refused (by simpa using hr))
    exact hforeign (hown _ mux hrun)
  · intro hr actions mux hrun
    have ho : Opened mux := by
      refine (reaches_of_runActions hrun).keeps ?_ ⟨⟨nofun, nofun⟩, Selected.initial⟩
      exact fun _ _ _ hs h => ⟨h.sole.stepped hs, h.selected.stepped h.sole hs⟩
    exact ho.selected.ownDatabase hr

/-- The server refuses the `SELECT`, and the next `GET` is answered from database 0. -/
theorem refused_select_leaves_connection :
    ∃ mux, runActions (step true fun _ => true) (refusedRound 0) {} = some mux ∧
      (mux.tasks 0).stage = .ended .refused ∧ 1 ∈ (mux.conns 0).answered ∧
      (mux.commands 1).select = false ∧ (mux.commands 1).future = .replied 0 1 := by
  refine ⟨_, rfl, rfl, ?_, rfl, rfl⟩
  decide

end FastapiTurbo.RedisMux
