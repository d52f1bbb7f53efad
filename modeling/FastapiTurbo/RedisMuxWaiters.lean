import FastapiTurbo.RedisMux

/-! The queue of futures against the commands on the wire. -/
namespace FastapiTurbo.RedisMux

open Lib List

def Stage.dials : Stage → Bool
  | .dialing | .dialed _ => true
  | _ => false

theorem Stage.connects_of_dials {stage : Stage} (hd : stage.dials = true) :
    stage.connects = true := by
  cases stage <;> first | rfl | cases hd

namespace Mux

/-- A connection that was published and whose end is still to be told to the futures. -/
def Home (mux : Mux) : Prop :=
  ∃ conn, (mux.conns conn).status ≠ .lost ∧ ∀ task, (mux.tasks task).stage ≠ .dialed conn

variable (mux : Mux)

@[simp] theorem setStage_self (task : Nat) (sg : Stage) :
    ((mux.setStage task sg).tasks task).stage = sg := by
  simp [setStage]

theorem setStage_other {task other : Nat} (stage : Stage) (ho : other ≠ task) :
    (mux.setStage task stage).tasks other = mux.tasks other := by
  simp [setStage, ho]

theorem usable_iff :
    mux.usable = true ↔
      ∃ conn, mux.transport = some conn ∧ (mux.conns conn).status = .opened := by
  rw [usable]
  cases mux.transport with
  | none => simp
  | some conn => simp

theorem usable_eq_false_iff :
    mux.usable = false ↔
      ∀ conn, mux.transport = some conn → (mux.conns conn).status ≠ .opened := by
  rw [← Bool.not_eq_true, usable_iff]
  simp

@[simp] theorem setConn_self (conn : Nat) (new : Conn) :
    (mux.setConn conn new).conns conn = new := by
  simp [setConn]

theorem setConn_other {conn other : Nat} (new : Conn) (ho : other ≠ conn) :
    (mux.setConn conn new).conns other = mux.conns other := by
  simp [setConn, ho]

theorem hangUp_conn (conn other : Nat) :
    ((mux.hangUp conn).conns other).answered = (mux.conns other).answered ∧
      ((mux.hangUp conn).conns other).unanswered = (mux.conns other).unanswered ∧
      (((mux.hangUp conn).conns other).status = .lost ↔ (mux.conns other).status = .lost) ∧
      (((mux.hangUp conn).conns other).status = .opened →
        other ≠ conn ∧ (mux.conns other).status = .opened) := by
  rw [hangUp]
  split
  next ho =>
    by_cases hother : other = conn
    · subst hother
      simp [ho]
    · rw [setConn_other mux _ hother]
      exact ⟨rfl, rfl, Iff.rfl, fun hs => ⟨hother, hs⟩⟩
  next hs =>
    refine ⟨rfl, rfl, Iff.rfl, fun ho => ⟨?_, ho⟩⟩
    rintro rfl
    exact hs ho

theorem hangUp_frame (conn : Nat) : ∃ cs, mux.hangUp conn = { mux with conns := cs } := by
  rw [hangUp]
  split
  · exact ⟨_, rfl⟩
  · exact ⟨mux.conns, rfl⟩

theorem write_spec (conn : Nat) (commands : List Nat) :
    ∃ cs, mux.write conn commands = { mux with conns := cs } ∧
      (∀ other, other ≠ conn → cs other = mux.conns other) ∧
      (∀ other, (cs other).status = (mux.conns other).status) ∧
      (∀ other, (cs other).answered = (mux.conns other).answered) ∧
      ((mux.conns conn).status = .opened →
        (cs conn).unanswered = (mux.conns conn).unanswered ++ commands) := by
  rw [write]
  split
  next hopened =>
    refine ⟨_, rfl, fun other ho => Function.update_of_ne ho _ _, ?_, ?_, ?_⟩
    · intro other
      by_cases ho : other = conn
      · simp [ho]
      · simp [ho]
    · intro other
      by_cases ho : other = conn
      · simp [ho]
      · simp [ho]
    · simp
  next hs =>
    exact ⟨mux.conns, rfl, fun _ _ => rfl, fun _ => rfl, fun _ => rfl,
      fun hopened => absurd hopened hs⟩

end Mux

/-- The futures wait in the order in which their commands stand on the wire and in the buffer, and
only one connection that can answer is known. -/
structure Wired (mux : Mux) : Prop where
  queue : ∀ conn, mux.transport = some conn → (mux.conns conn).status = .opened →
    mux.waiters = (mux.conns conn).unanswered ++ mux.wbuf
  waits : ∀ command, (mux.commands command).future = .pending → command ∈ mux.waiters
  own : ∀ command conn answered, (mux.commands command).future = .replied conn answered →
    answered = command ∧ command ∈ (mux.conns conn).answered
  quiet : ∀ conn, (mux.conns conn).status = .opened → mux.transport ≠ some conn →
    (mux.conns conn).unanswered = []
  home : ∀ command, (mux.commands command).future = .pending → mux.Home
  sole : ∀ conn other, mux.transport = some conn → (mux.conns conn).status = .opened →
    other ≠ conn → (mux.conns other).status = .lost
  dial : ∀ task, (mux.tasks task).stage.dials = true → mux.usable = false
  dialed : ∀ task conn, (mux.tasks task).stage = .dialed conn → conn < mux.dials ∧
    mux.transport ≠ some conn ∧ (mux.conns conn).answered = [] ∧
    (mux.conns conn).unanswered = []
  made : ∀ conn, mux.dials ≤ conn → mux.conns conn = {}
  published : ∀ conn, mux.transport = some conn → conn < mux.dials

namespace Wired

variable {mux : Mux}

section

variable (h : Wired mux)
include h

theorem settled {ts : Nat → Task} {connecting : Option Nat} {ats : Nat → Attempt}
    {called : Nat} (ht : ∀ task, (ts task).stage.dials = true →
      (ts task).stage = (mux.tasks task).stage) :
    Wired { mux with
      tasks := ts, connecting := connecting, attempts := ats, called := called } := by
  have hd : ∀ task conn, (ts task).stage = .dialed conn →
      (mux.tasks task).stage = .dialed conn := by
    intro task conn hs
    rw [← ht task (by rw [hs]; rfl), hs]
  exact { h with
    home := by
      intro command hp
      obtain ⟨conn, hstatus, hpublished⟩ := h.home command hp
      exact ⟨conn, hstatus, fun task hs => hpublished task (hd task conn hs)⟩
    dial := by
      intro task hdials
      exact h.dial task (ht task hdials ▸ hdials)
    dialed := fun task conn hs => h.dialed task conn (hd task conn hs) }

theorem setStage (task : Nat) {stage : Stage} (hs : stage.dials = false) :
    Wired (mux.setStage task stage) := by
  refine h.settled fun other hd => ?_
  by_cases ho : other = task
  · subst ho
    rw [Function.update_self] at hd
    exact absurd (hs.symm.trans hd) Bool.false_ne_true
  · rw [Function.update_of_ne ho]

theorem flagTask (task : Nat) : Wired (mux.flagTask task) := by
  refine h.settled fun other _ => ?_
  by_cases ho : other = task
  · subst ho
    rw [Function.update_self]
  · rw [Function.update_of_ne ho]

theorem create (bare : Bool) : Wired (mux.create bare) := by
  refine h.settled fun other hd => ?_
  by_cases ho : other = mux.called
  · subst ho
    rw [Function.update_self] at hd
    cases hd
  · rw [Function.update_of_ne ho]

theorem settle : Wired mux.settle := by
  rw [Mux.settle]
  split
  · exact h
  · exact h.settled fun _ _ => rfl

theorem cancelAttempt (attempt : Nat) : Wired (mux.cancelAttempt attempt) := by
  rw [Mux.cancelAttempt]
  split
  · exact h.settled fun _ _ => rfl
  · exact h

theorem hangUp (conn : Nat) : Wired (mux.hangUp conn) := by
  have hc := mux.hangUp_conn conn
  obtain ⟨conns, hf⟩ := mux.hangUp_frame conn
  rw [hf] at hc ⊢
  exact {
    queue := by
      intro other ht hs
      rw [(hc other).2.1]
      exact h.queue other ht ((hc other).2.2.2 hs).2
    waits := h.waits
    own := by
      intro command other ans hr
      obtain ⟨hown, hmem⟩ := h.own command other ans hr
      exact ⟨hown, by rw [(hc other).1]; exact hmem⟩
    quiet := by
      intro other hs ht
      rw [(hc other).2.1]
      exact h.quiet other ((hc other).2.2.2 hs).2 ht
    home := by
      intro command hp
      obtain ⟨home, hs, hpublished⟩ := h.home command hp
      exact ⟨home, fun hl => hs ((hc home).2.2.1.1 hl), hpublished⟩
    sole := by
      intro first other ht hs ho
      exact (hc other).2.2.1.2 (h.sole first other ht ((hc first).2.2.2 hs).2
        ho)
    dial := by
      intro task hd
      have husable := h.dial task hd
      rw [Mux.usable_eq_false_iff] at husable ⊢
      exact fun other ht hs =>
        husable other ht ((hc other).2.2.2 hs).2
    dialed := by
      intro task other hstage
      rw [(hc other).1, (hc other).2.1]
      exact h.dialed task other hstage
    made := by
      intro other ho
      have hu := h.made other ho
      have hl : (mux.conns other).status = .lost := by rw [hu]
      have hs : (conns other).status = .lost := (hc other).2.2.1.2 hl
      have ha : (conns other).answered = [] := by rw [(hc other).1, hu]
      have hunanswered : (conns other).unanswered = [] := by rw [(hc other).2.1, hu]
      exact Conn.ext hs ha hunanswered
    published := h.published }

theorem cancelFuture (command : Nat) : Wired (mux.cancelFuture command) := by
  rw [Mux.cancelFuture]
  split
  · have hf : ∀ other,
        ((mux.setFuture command .cancelled).commands other).future = .cancelled ∨
        ((mux.setFuture command .cancelled).commands other).future =
          (mux.commands other).future := by
      intro other
      by_cases ho : other = command
      · subst ho
        simp [Mux.setFuture]
      · simp [Mux.setFuture, ho]
    exact { h with
      waits := by
        intro other hp
        rcases hf other with hc | hs
        · cases hc.symm.trans hp
        · exact h.waits other (hs.symm.trans hp)
      own := by
        intro other conn answered hr
        rcases hf other with hc | hs
        · cases hc.symm.trans hr
        · exact h.own other conn answered (hs.symm.trans hr)
      home := by
        intro other hp
        rcases hf other with hc | hs
        · cases hc.symm.trans hp
        · exact h.home other (hs.symm.trans hp) }
  · exact h

theorem written {cs : Nat → Conn} {wbuf waiters : List Nat} {cmds : Nat → Command}
    {sent flushes : Nat} {flushScheduled : Bool}
    (hother : ∀ conn, mux.transport ≠ some conn → cs conn = mux.conns conn)
    (hs : ∀ conn, (cs conn).status = (mux.conns conn).status)
    (ha : ∀ conn, (cs conn).answered = (mux.conns conn).answered)
    (hq : ∀ conn, mux.transport = some conn → (mux.conns conn).status = .opened →
      waiters = (cs conn).unanswered ++ wbuf)
    (hw : ∀ command, (cmds command).future = .pending → command ∈ waiters ∧ mux.Home)
    (hown : ∀ command conn ans, (cmds command).future = .replied conn ans →
      (mux.commands command).future = .replied conn ans) :
    Wired { mux with
      conns := cs, wbuf := wbuf, waiters := waiters, commands := cmds, sent := sent,
      flushes := flushes, flushScheduled := flushScheduled } where
  queue := fun conn ht ho => hq conn ht (hs conn ▸ ho)
  waits := fun command hp => (hw command hp).1
  own := by
    intro command conn ans hr
    obtain ⟨hsame, hmem⟩ := h.own command conn ans (hown command conn ans hr)
    exact ⟨hsame, by rw [ha]; exact hmem⟩
  quiet := by
    intro conn ho ht
    dsimp only at ho ht ⊢
    rw [hother conn ht] at ho ⊢
    exact h.quiet conn ho ht
  home := by
    intro command hp
    obtain ⟨home, hnotLost, hpublished⟩ := (hw command hp).2
    exact ⟨home, by rw [hs]; exact hnotLost, hpublished⟩
  sole := by
    intro conn other ht ho hne
    rw [hs] at ho ⊢
    exact h.sole conn other ht ho hne
  dial := by
    intro task hd
    have hu := h.dial task hd
    rw [Mux.usable_eq_false_iff] at hu ⊢
    intro conn ht
    rw [hs]
    exact hu conn ht
  dialed := by
    intro task conn hstage
    dsimp only
    rw [hother conn (h.dialed task conn hstage).2.1]
    exact h.dialed task conn hstage
  made := by
    intro conn hc
    dsimp only
    rw [hother conn fun ht => Nat.not_lt.2 hc (h.published conn ht)]
    exact h.made conn hc
  published := h.published

/-- `_send` keeps the futures in the order of their commands. -/
theorem send (hh : mux.Home) (task : Nat) (select : Bool) : Wired (mux.send task select) := by
  have hw : ∀ command, ((mux.enqueue select).commands command).future = .pending →
      command ∈ mux.waiters ++ [mux.sent] ∧ mux.Home := by
    intro command hp
    refine ⟨?_, hh⟩
    by_cases hc : command = mux.sent
    · simp [hc]
    · simp only [Mux.enqueue, Function.update_of_ne hc] at hp
      exact mem_append_left _ (h.waits command hp)
  have hown : ∀ command conn answered,
      ((mux.enqueue select).commands command).future = .replied conn answered →
      (mux.commands command).future = .replied conn answered := by
    intro command conn answered hr
    by_cases hc : command = mux.sent
    · simp [Mux.enqueue, hc] at hr
    · simpa only [Mux.enqueue, Function.update_of_ne hc] using hr
  have hs : (Mux.stageOf select mux.sent).dials = false := by
    cases select <;> rfl
  rw [Mux.send]
  split
  next hidle =>
    split
    next ht =>
      refine Wired.setStage ?_ task rfl
      exact h.written (fun _ _ => rfl) (fun _ => rfl) (fun _ => rfl)
        (fun conn hconn => by rw [ht] at hconn; cases hconn) hw hown
    next conn ht =>
      refine Wired.setStage ?_ task hs
      obtain ⟨conns, hf, hother, hstatus, ha, hu⟩ :=
        (mux.enqueue select).write_spec conn [mux.sent]
      rw [hf]
      refine h.written (fun other htransportNe => hother other ?_) hstatus ha ?_ hw hown
      · rintro rfl
        exact htransportNe ht
      · intro current hcurrent ho
        rw [ht] at hcurrent
        cases hcurrent
        have hq := h.queue conn ht ho
        rw [hidle.2, append_nil] at hq
        rw [hu ho]
        dsimp only [Mux.enqueue]
        rw [hidle.2, append_nil, hq]
  next hb =>
    refine Wired.setStage ?_ task hs
    refine h.written (fun _ _ => rfl) (fun _ => rfl) (fun _ => rfl) ?_ hw hown
    intro conn ht ho
    dsimp only [Mux.enqueue]
    rw [h.queue conn ht ho, append_assoc]

theorem flush : Wired mux.flush := by
  have hidle : Wired { mux with flushScheduled := false, flushes := mux.flushes - 1 } :=
    h.written (fun _ _ => rfl) (fun _ => rfl) (fun _ => rfl) h.queue
      (fun command hp => ⟨h.waits command hp, h.home command hp⟩)
      fun _ _ _ hr => hr
  rw [Mux.flush]
  split
  next => exact hidle
  next conn ht =>
    obtain ⟨conns, hf, hother, hs, ha, hu⟩ :=
      ({ mux with flushScheduled := false, flushes := mux.flushes - 1 } : Mux).write_spec conn
        mux.wbuf
    rw [hf]
    refine hidle.written (fun other htransportNe => hother other ?_) hs ha ?_
      (fun command hp => ⟨h.waits command hp, h.home command hp⟩)
      fun _ _ _ hr => hr
    · rintro rfl
      exact htransportNe ht
    · intro current hc ho
      rw [ht] at hc
      cases hc
      rw [hu ho, append_nil]
      exact h.queue conn ht ho

theorem waiters_of_unanswered {conn command : Nat} {rest : List Nat}
    (ho : (mux.conns conn).status = .opened) (hu : (mux.conns conn).unanswered = command :: rest) :
    mux.transport = some conn ∧ mux.waiters = command :: (rest ++ mux.wbuf) := by
  have ht : mux.transport = some conn := by
    by_contra hother
    rw [h.quiet conn ho hother] at hu
    cases hu
  refine ⟨ht, ?_⟩
  rw [h.queue conn ht ho, hu, cons_append]

end

private theorem answered (h : Wired mux) {conn command : Nat} {rest : List Nat}
    (hopened : (mux.conns conn).status = .opened)
    (hunanswered : (mux.conns conn).unanswered = command :: rest)
    {cmds : Nat → Command} (hd : (cmds command).future ≠ .pending)
    (hcommands : ∀ other, (cmds other).future = (mux.commands other).future ∨
      other = command ∧ (cmds other).future = .replied conn command) :
    Wired { mux with
      conns := Function.update mux.conns conn { mux.conns conn with
        answered := (mux.conns conn).answered ++ [command], unanswered := rest }
      waiters := rest ++ mux.wbuf
      commands := cmds } := by
  obtain ⟨ht, hw⟩ := h.waiters_of_unanswered hopened hunanswered
  have hstatus : ∀ other, (Function.update mux.conns conn { mux.conns conn with
      answered := (mux.conns conn).answered ++ [command], unanswered := rest } other).status =
        (mux.conns other).status := by
    intro other
    by_cases ho : other = conn
    · simp [ho]
    · simp [ho]
  have hp : ∀ other, (cmds other).future = .pending →
      other ≠ command ∧ (mux.commands other).future = .pending := by
    intro other ho
    refine ⟨fun hs => hd (hs ▸ ho), ?_⟩
    rcases hcommands other with hs | ⟨_, hr⟩
    · exact hs.symm.trans ho
    · cases hr.symm.trans ho
  exact {
    queue := by
      intro current hc _
      have hc : mux.transport = some current := hc
      rw [ht] at hc
      cases hc
      simp
    waits := by
      intro other ho
      obtain ⟨hne, hb⟩ := hp other ho
      have hmem := h.waits other hb
      rw [hw] at hmem
      exact (mem_cons.1 hmem).resolve_left hne
    own := by
      intro other given replied hr
      rcases hcommands other with hs | ⟨rfl, hown⟩
      · obtain ⟨hown, hmem⟩ := h.own other given replied (hs.symm.trans hr)
        refine ⟨hown, ?_⟩
        by_cases hg : given = conn
        · subst hg
          simp [hmem]
        · simpa [hg] using hmem
      · cases hown.symm.trans hr
        simp
    quiet := by
      intro other hotherOpened ho
      have hne : other ≠ conn := by
        rintro rfl
        exact ho ht
      dsimp only
      rw [Function.update_of_ne hne]
      exact h.quiet other ((hstatus other).symm.trans hotherOpened) ho
    home := by
      intro other ho
      obtain ⟨home, hnotLost, hpublished⟩ := h.home other (hp other ho).2
      exact ⟨home, by rw [hstatus]; exact hnotLost, hpublished⟩
    sole := by
      intro first other hf hfirstOpened hne
      rw [hstatus] at hfirstOpened ⊢
      exact h.sole first other hf hfirstOpened hne
    dial := by
      intro task hdials
      have hu := h.dial task hdials
      rw [Mux.usable_eq_false_iff] at hu
      exact absurd hopened (hu conn ht)
    dialed := by
      intro task other hstage
      have hne : other ≠ conn := by
        rintro rfl
        exact (h.dialed task other hstage).2.1 ht
      dsimp only
      rw [Function.update_of_ne hne]
      exact h.dialed task other hstage
    made := by
      intro other ho
      have hne : other ≠ conn := by
        rintro rfl
        exact Nat.not_lt.2 ho (h.published other ht)
      dsimp only
      rw [Function.update_of_ne hne]
      exact h.made other ho
    published := h.published }

variable (h : Wired mux)
include h

theorem reply {conn : Nat} {next : Mux} (hr : mux.reply conn = some next) : Wired next := by
  rw [Mux.reply] at hr
  split at hr
  next command rest ho hu =>
    obtain ⟨_, hw⟩ := h.waiters_of_unanswered ho hu
    cases hr
    rw [Mux.dataReceived, show (mux.setConn conn _).waiters = _ from hw]
    dsimp only
    split
    next hp =>
      refine h.answered ho hu ?_ ?_
      · simp [Mux.setFuture]
      · intro other
        by_cases hother : other = command
        · exact .inr ⟨hother, by simp [Mux.setFuture, hother]⟩
        · exact .inl (by simp [Mux.setFuture, Mux.setConn, hother])
    next hp => exact h.answered ho hu hp fun _ => .inl rfl
  next => cases hr

theorem connectionLost {conn : Nat} (hc : (mux.conns conn).status = .closing) :
    Wired (mux.setConn conn { mux.conns conn with status := .lost }).onConnectionLost := by
  have hn : ∀ command,
      (Mux.failAll mux.commands mux.waiters command).future ≠ .pending := by
    intro command
    rw [Mux.failAll]
    split
    next => simp
    next ht => exact fun hp => ht ⟨h.waits command hp, hp⟩
  have hconn : ∀ other,
      ((mux.setConn conn { mux.conns conn with status := .lost }).conns other).answered =
          (mux.conns other).answered ∧
        ((mux.setConn conn { mux.conns conn with status := .lost }).conns other).unanswered =
          (mux.conns other).unanswered := by
    intro other
    by_cases ho : other = conn
    · simp [ho]
    · simp [mux.setConn_other _ ho]
  exact {
    queue := nofun
    waits := fun command hp => absurd hp (hn command)
    own := by
      intro command other ans hr
      have hb : (mux.commands command).future = .replied other ans := by
        have hr : (Mux.failAll mux.commands mux.waiters command).future =
          .replied other ans := hr
        rw [Mux.failAll] at hr
        split at hr
        next => simp at hr
        next => exact hr
      obtain ⟨hown, hmem⟩ := h.own command other ans hb
      exact ⟨hown, by rw [Mux.onConnectionLost, (hconn other).1]; exact hmem⟩
    quiet := by
      intro other hopened _
      have hne : other ≠ conn := by
        rintro rfl
        simp [Mux.onConnectionLost] at hopened
      rw [Mux.onConnectionLost]
      rw [Mux.onConnectionLost] at hopened
      rw [mux.setConn_other _ hne] at hopened ⊢
      refine h.quiet other hopened fun htransport => ?_
      -- An open connection behind the transport leaves no other one to be lost.
      cases hc.symm.trans (h.sole other conn htransport hopened hne.symm)
    home := fun command hp => absurd hp (hn command)
    sole := nofun
    dial := fun _ _ => rfl
    dialed := by
      intro task other hs
      obtain ⟨hm, _, ha, hu⟩ := h.dialed task other hs
      refine ⟨hm, nofun, ?_, ?_⟩
      · rw [Mux.onConnectionLost, (hconn other).1]
        exact ha
      · rw [Mux.onConnectionLost, (hconn other).2]
        exact hu
    made := by
      intro other ho
      have hne : other ≠ conn := by
        rintro rfl
        rw [h.made other ho] at hc
        cases hc
      rw [Mux.onConnectionLost]
      rw [mux.setConn_other _ hne]
      exact h.made other ho
    published := nofun }

theorem close : Wired mux.close := by
  rw [Mux.close]
  split
  next => exact { h with }
  next conn ht =>
    have hc := mux.hangUp_conn conn
    have hh := h.hangUp conn
    obtain ⟨conns, hf⟩ := mux.hangUp_frame conn
    rw [hf] at hc hh ⊢
    exact { hh with
      queue := nofun
      quiet := by
        intro other ho _
        have hb := (hc other).2.2.2 ho
        refine hh.quiet other ho fun hother => hb.1 ?_
        rw [ht] at hother
        exact (Option.some.inj hother).symm
      sole := nofun
      dial := fun _ _ => rfl
      dialed := fun task other hs =>
        have hd := hh.dialed task other hs
        ⟨hd.1, nofun, hd.2.2⟩
      published := nofun }

theorem publish {conn : Nat} (hm : conn < mux.dials) (hnotLost : (mux.conns conn).status ≠ .lost)
    (ho : ∀ other, other ≠ conn → (mux.conns other).status = .lost)
    (hu : (mux.conns conn).unanswered = []) (hd : ∀ task, (mux.tasks task).stage.dials = false)
    (hp : ∀ command, (mux.commands command).future ≠ .pending) :
    Wired (mux.publish conn) where
  queue := by
    intro current hc _
    cases hc
    dsimp only [Mux.publish]
    rw [hu, append_nil]
  waits := fun command hw => absurd hw (hp command)
  own := h.own
  quiet := by
    intro other hopened hother
    have hne : other ≠ conn := by
      rintro rfl
      exact hother rfl
    cases (ho other hne).symm.trans hopened
  home := fun command hw => absurd hw (hp command)
  sole := by
    intro current other hc _ hne
    cases hc
    exact ho other hne
  dial := fun task ht => absurd ((hd task).symm.trans ht) Bool.false_ne_true
  dialed := by
    intro task other hs
    have hdial := hd task
    have hs : (mux.tasks task).stage = .dialed other := hs
    rw [hs] at hdial
    cases hdial
  made := h.made
  published := by
    intro current hc
    cases hc
    exact hm

theorem connected {task : Nat} (hd : (mux.tasks task).stage = .dialing) :
    Wired { (mux.setConn mux.dials { status := .opened }).setStage task (.dialed mux.dials) with
      dials := mux.dials + 1 } := by
  have hu := h.dial task (by rw [hd]; rfl)
  rw [Mux.usable_eq_false_iff] at hu
  have hunmade := h.made mux.dials (Nat.le_refl _)
  have hc : ∀ other, other ≠ mux.dials →
      (mux.setConn mux.dials { status := .opened }).conns other = mux.conns other :=
    fun other ho => mux.setConn_other _ ho
  have ht : ∀ conn, mux.transport = some conn →
      ((mux.setConn mux.dials { status := .opened }).conns conn).status ≠ .opened := by
    intro conn hp
    rw [hc conn (Nat.ne_of_lt (h.published conn hp))]
    exact hu conn hp
  have hs : ∀ other conn,
      (((mux.setConn mux.dials { status := .opened }).setStage task (.dialed mux.dials)).tasks
        other).stage = .dialed conn →
      conn = mux.dials ∨ (mux.tasks other).stage = .dialed conn := by
    intro other conn ho
    by_cases htask : other = task
    · rw [htask, Mux.setStage_self] at ho
      cases ho
      exact .inl rfl
    · rw [Mux.setStage_other _ _ htask] at ho
      exact .inr ho
  exact {
    queue := fun conn hp hopened => absurd hopened (ht conn hp)
    waits := h.waits
    own := by
      intro command conn answered hr
      obtain ⟨hown, hmem⟩ := h.own command conn answered hr
      have hne : conn ≠ mux.dials := by
        rintro rfl
        rw [hunmade] at hmem
        cases hmem
      refine ⟨hown, ?_⟩
      dsimp only [Mux.setStage]
      rw [hc conn hne]
      exact hmem
    quiet := by
      intro conn hopened ho
      dsimp only [Mux.setStage] at hopened ⊢
      by_cases hne : conn = mux.dials
      · subst hne
        rw [Mux.setConn_self]
      · rw [hc conn hne] at hopened ⊢
        exact h.quiet conn hopened ho
    home := by
      intro command hpending
      obtain ⟨home, hnotLost, hp⟩ := h.home command hpending
      have hne : home ≠ mux.dials := by
        rintro rfl
        rw [hunmade] at hnotLost
        exact hnotLost rfl
      refine ⟨home, ?_, ?_⟩
      · dsimp only [Mux.setStage]
        rw [hc home hne]
        exact hnotLost
      · intro other ho
        rcases hs other home ho with hsame | hb
        · exact hne hsame
        · exact hp other hb
    sole := fun conn _ hp hopened => absurd hopened (ht conn hp)
    dial := by
      intro _ _
      rw [Mux.usable_eq_false_iff]
      exact ht
    dialed := by
      intro other conn ho
      rcases hs other conn ho with rfl | hb
      · refine ⟨Nat.lt_succ_self _, ?_, ?_⟩
        · exact fun hp => Nat.lt_irrefl _ (h.published _ hp)
        · dsimp only [Mux.setStage]
          rw [Mux.setConn_self]
          exact ⟨rfl, rfl⟩
      · obtain ⟨hm, hp, he⟩ := h.dialed other conn hb
        refine ⟨Nat.lt_succ_of_lt hm, hp, ?_⟩
        dsimp only [Mux.setStage]
        rw [hc conn (Nat.ne_of_lt hm)]
        exact he
    made := by
      intro conn hm
      dsimp only [Mux.setStage]
      rw [hc conn (Nat.ne_of_gt hm)]
      exact h.made conn (Nat.le_of_succ_le hm)
    published := fun conn hp => Nat.lt_succ_of_lt (h.published conn hp) }

theorem dialing (hu : mux.usable = false) (task : Nat) {connecting : Option Nat}
    {ats : Nat → Attempt} {attempted : Nat} :
    Wired { mux.setStage task .dialing with
      connecting := connecting, attempts := ats, attempted := attempted } := by
  have hs : ∀ other conn, ((mux.setStage task .dialing).tasks other).stage = .dialed conn →
      (mux.tasks other).stage = .dialed conn := by
    intro other conn ho
    by_cases ht : other = task
    · rw [ht, Mux.setStage_self] at ho
      cases ho
    · rw [Mux.setStage_other _ _ ht] at ho
      exact ho
  exact { h with
    home := by
      intro command hp
      obtain ⟨home, hnotLost, hpublished⟩ := h.home command hp
      exact ⟨home, hnotLost, fun other ho => hpublished other (hs other home ho)⟩
    dial := fun _ _ => hu
    dialed := fun other conn ho => h.dialed other conn (hs other conn ho) }

end Wired

end FastapiTurbo.RedisMux
