import FastapiTurbo.Lib.Tasks
import FastapiTurbo.StreamDelivery

/-! A server that streams many bodies at once and shares one map of cooperative
verdicts among them.  A body that is proven cooperative is driven on the request
thread, where nobody drains the channel before the drive is over. -/
namespace FastapiTurbo.StreamTrampoline

open Lib Streaming List

/-- A request with the verdict that its driver has come to and not yet recorded. -/
structure Request where
  code : Option Nat
  stream : Stream
  due : Option (CoopState × Bool)

structure Server where
  verdicts : Verdicts
  requests : List Request

def recordCoopVerdict (verdicts : Verdicts) (code : Nat) (verdict : CoopState)
    (allowDemote : Bool) : Verdicts :=
  match verdicts.get? code with
  | some _ => if allowDemote && verdict = .awaiting then verdicts.set code .awaiting else verdicts
  | none => verdicts.set code verdict

/-- The verdict that a step of the driver brings about, and whether it may demote.  The
eager start of the worker loop ends at the first suspension or with the stream. -/
def verdictOf (before after : Stream) : Option (CoopState × Bool) :=
  match after.driver with
  | .loop =>
    if before.eager && !after.eager then some (.awaiting, false)
    else if before.phase ≠ .ended && after.phase = .ended && after.eager then
      some (if after.captured.isEmpty then .cooperative else .awaiting, false)
    else none
  | .trampoline => if before.eager && !after.eager then some (.awaiting, true) else none
  | _ => none

def Request.record (request : Request) (verdicts : Verdicts) : Verdicts :=
  match request.code, request.due with
  | some code, some (verdict, allowDemote) => recordCoopVerdict verdicts code verdict allowDemote
  | _, _ => verdicts

def Request.moved (request : Request) (next : Stream) : Request :=
  { request with stream := next, due := (verdictOf request.stream next).or request.due }

/-- The thread that drives a body records its verdict before it goes on. -/
def Request.refuses (request : Request) : Action → Bool
  | .drive _ | .resume => request.due.isSome
  | _ => false

/-- `record` is the call of `record_coop_verdict` on the thread that drives the body of
the request; other requests may come and be served before it. -/
inductive ServerAction where
  | arrive (config : Config) (body : Body)
  | act (index : Nat) (action : Action)
  | record (index : Nat)

def accept (verdicts : Verdicts) (config : Config) (body : Body) : Request where
  code := config.coopCode body.source
  stream := Stream.start (config.driver verdicts body.source) body
  due := none

def Server.arrive (server : Server) (config : Config) (body : Body) : Server :=
  { server with requests := server.requests ++ [accept server.verdicts config body] }

def Server.act (server : Server) (index : Nat) (request : Request) (next : Stream) : Server :=
  { server with requests := server.requests.set index (request.moved next) }

def Server.record (server : Server) (index : Nat) (request : Request) : Server where
  verdicts := request.record server.verdicts
  requests := server.requests.set index { request with due := none }

def serverStep (action : ServerAction) (server : Server) : Option Server :=
  match action with
  | .arrive config body => some (server.arrive config body)
  | .act index action =>
    server.requests[index]?.bind fun request =>
      if request.refuses action then none
      else (step action request.stream).map (server.act index request)
  | .record index =>
    server.requests[index]?.bind fun request =>
      if request.due.isSome then some (server.record index request) else none

/-- The request thread waits for room in the channel while it still holds the
receiver. -/
def Stuck (stream : Stream) : Prop :=
  stream.driver = .trampoline ∧ stream.returned = false ∧ ∃ chunk, stream.phase = .waiting chunk

def Server.Stuck (server : Server) : Prop :=
  ∃ request ∈ server.requests, StreamTrampoline.Stuck request.stream

def isChunk : Event → Bool
  | .chunk _ => true
  | _ => false

def chunkCount (events : List Event) : Nat :=
  events.countP isChunk

@[simp] theorem chunkCount_chunk (value : Chunk) (events : List Event) :
    chunkCount (.chunk value :: events) = chunkCount events + 1 :=
  countP_cons_of_pos rfl

@[simp] theorem chunkCount_checkpoint (events : List Event) :
    chunkCount (.checkpoint :: events) = chunkCount events :=
  countP_cons_of_neg Bool.noConfusion

@[simp] theorem chunkCount_await (events : List Event) :
    chunkCount (.await :: events) = chunkCount events :=
  countP_cons_of_neg Bool.noConfusion

/-- The chunks that a trampolined body still has to push fit into the channel. -/
def Roomy (stream : Stream) : Prop :=
  stream.driver = .trampoline → stream.returned = false →
    (∀ chunk, stream.phase ≠ .waiting chunk) ∧
      stream.queue.length + chunkCount stream.rest ≤ channelCapacity

variable {stream : Stream}

theorem Roomy.not_stuck (hr : Roomy stream) : ¬Stuck stream := by
  rintro ⟨hd, hreturned, chunk, hp⟩
  exact (hr hd hreturned).1 chunk hp

private theorem drainsInline_ne_trampoline {driver : Driver} (hd : driver.drainsInline = true) :
    driver ≠ .trampoline := by
  rintro rfl
  exact Bool.noConfusion hd

theorem Roomy.change {next : Stream} (hroomy : Roomy stream) (hc : Change stream next) :
    Roomy next := by
  intro hd hr
  cases hc with
  | handOver | predrainEnd | inlineSuspend => exact Driver.noConfusion hd
  | inlinePush value rest dr hinline _ _ hn =>
    have hs : stream.driver = .trampoline :=
      hn.elim (fun ht => Driver.noConfusion (ht.symm.trans hd))
        fun hs => hs.symm.trans hd
    exact absurd hs (drainsInline_ne_trampoline hinline)
  | finish _ hrest | resume =>
    obtain ⟨-, hle⟩ := hroomy hd hr
    exact ⟨fun _ => Phase.noConfusion, hle⟩
  | push value rest pushed phase eager _ _ _ hrest ha =>
    obtain ⟨-, hle⟩ := hroomy hd hr
    rw [hrest, chunkCount_chunk] at hle
    constructor
    · rcases ha with rfl | rfl <;> exact fun _ => Phase.noConfusion
    · simp only [Stream.send, length_append, length_singleton]
      omega
  | full value rest _ _ hroom hrest =>
    -- A full channel and a chunk at hand are more than the channel holds.
    obtain ⟨-, hle⟩ := hroomy hd hr
    rw [hrest, chunkCount_chunk] at hle
    simp only [Stream.hasRoom, decide_eq_false_iff_not] at hroom
    omega
  | checkpoint rest _ hrest =>
    obtain ⟨hp, hle⟩ := hroomy hd hr
    rw [hrest, chunkCount_checkpoint] at hle
    exact ⟨hp, hle⟩
  | await rest _ hrest =>
    obtain ⟨-, hle⟩ := hroomy hd hr
    rw [hrest, chunkCount_await] at hle
    exact ⟨fun _ => Phase.noConfusion, hle⟩
  | waiterSend chunk hp => exact absurd hp ((hroomy hd hr).1 chunk)
  | waiterResolve pushed phase eager _ ha =>
    obtain ⟨-, hle⟩ := hroomy hd hr
    refine ⟨?_, hle⟩
    rcases ha with rfl | rfl <;> exact fun _ => Phase.noConfusion
  | waiterDrop => exact hroomy hd hr
  | respond => exact Bool.noConfusion hr
  | _ =>
    -- What is left are the polls, which come after the receiver was handed over.
    simp_all [Stream.emit]

variable {config : Config} {verdicts : Verdicts}

theorem driver_eq_trampoline {source : Source} (hd : config.driver verdicts source = .trampoline) :
    config.trampolines verdicts source = true := by
  cases ht : config.trampolines verdicts source with
  | true => rfl
  | false => exact absurd hd (StreamDelivery.driver_ne_trampoline ht)

theorem driver_of_trampolines {source : Source} (ht : config.trampolines verdicts source = true) :
    config.driver verdicts source = .trampoline := by
  cases source with
  | sync hasNext chunks | noawait chunks =>
    simp [Config.trampolines, Config.coopCode] at ht
  | awaiting code events => exact if_pos ht

/-- The body is not trampolined under these verdicts, or its chunks fit into the
channel. -/
def Fits (verdicts : Verdicts) (config : Config) (body : Body) : Prop :=
  config.trampolines verdicts body.source = true →
    chunkCount body.source.events ≤ channelCapacity

theorem Fits.roomy {body : Body} (hf : Fits verdicts config body) :
    Roomy (accept verdicts config body).stream := by
  intro hd _
  refine ⟨fun _ => Phase.noConfusion, ?_⟩
  have hle := hf (driver_eq_trampoline hd)
  simpa [accept, Stream.start] using hle

/-- A trampolined body that has more chunks to push than the channel has room for. -/
structure Overfull (stream : Stream) : Prop where
  driver : stream.driver = .trampoline
  returned : stream.returned = false
  phase : stream.phase = .running
  queue : stream.queue.length ≤ channelCapacity
  count : channelCapacity < stream.queue.length + chunkCount stream.rest

section

variable (hoverfull : Overfull stream)
include hoverfull

theorem Overfull.drive : step (.drive false) stream = some stream.driveLoop := by
  simp only [step, Stream.drive, hoverfull.phase, if_true, hoverfull.driver]

theorem Overfull.advance_chunk {value : Chunk} {rest : List Event}
    (hr : stream.rest = .chunk value :: rest) :
    Stuck stream.driveLoop ∨ Overfull stream.driveLoop ∧ stream.driveLoop.rest = rest := by
  obtain ⟨hd, hreturned, hphase, hq, hc⟩ := hoverfull
  rw [hr, chunkCount_chunk] at hc
  cases hroom : stream.hasRoom with
  | false =>
    left
    simp [Stream.driveLoop, hr, hroom, Stuck, hd, hreturned]
  | true =>
    right
    have hless : stream.queue.length < channelCapacity := of_decide_eq_true hroom
    have hp : stream.driveLoop =
        { stream.send (pythonValToBytes value) with
          rest, pushed := stream.pushed + 1, phase := .running } := by
      simp [Stream.driveLoop, hr, hroom, Stream.afterPush, Stream.send, hd, Driver.isFair]
    have hl : (stream.send (pythonValToBytes value)).queue.length =
        stream.queue.length + 1 := by
      simp [Stream.send]
    rw [hp]
    refine ⟨⟨hd, hreturned, rfl, ?_, ?_⟩, rfl⟩
    · simp only [hl]
      omega
    · simp only [hl]
      omega

theorem Overfull.advance :
    ∃ next, Reaches step stream next ∧
      (Stuck next ∨ Overfull next ∧ next.rest.length < stream.rest.length) := by
  have hd := hoverfull.drive
  have hchunk {value : Chunk} {rest : List Event} (hr : stream.rest = .chunk value :: rest) :=
    hoverfull.advance_chunk hr
  obtain ⟨hdriver, hreturned, hphase, hq, hc⟩ := hoverfull
  cases hr : stream.rest with
  | nil =>
    rw [hr] at hc
    exact absurd hc (Nat.not_lt.2 hq)
  | cons event rest =>
    rw [hr] at hc
    cases event with
    | chunk value =>
      refine ⟨stream.driveLoop, .single ⟨_, hd⟩, (hchunk hr).imp_right ?_⟩
      rintro ⟨hn, hl⟩
      exact ⟨hn, by simp [hl]⟩
    | checkpoint =>
      rw [chunkCount_checkpoint] at hc
      have hp : stream.driveLoop = { stream with rest } := by
        simp [Stream.driveLoop, hr]
      refine ⟨_, .single ⟨_, hd⟩, .inr ⟨?_, ?_⟩⟩
      · rw [hp]
        exact ⟨hdriver, hreturned, hphase, hq, hc⟩
      · simp [hp]
    | await =>
      rw [chunkCount_await] at hc
      have ha : stream.driveLoop = { stream.suspend with rest } := by
        simp [Stream.driveLoop, hr]
      have hresume : step .resume stream.driveLoop =
          some { stream.suspend with rest, phase := .running } := by
        simp [step, ha, Stream.suspend]
      refine ⟨_, .tail (.single ⟨_, hd⟩) ⟨_, hresume⟩, .inr ⟨?_, ?_⟩⟩
      · exact ⟨hdriver, hreturned, rfl, hq, hc⟩
      · simp

theorem Overfull.reaches_stuck : ∃ next, Reaches step stream next ∧ Stuck next := by
  induction hl : stream.rest.length using Nat.strongRecOn generalizing stream with
  | ind length ih =>
    obtain ⟨next, hr, hs | ⟨hn, hless⟩⟩ := hoverfull.advance
    · exact ⟨next, hr, hs⟩
    · obtain ⟨final, hf, hs⟩ := ih next.rest.length (hl ▸ hless) hn rfl
      exact ⟨final, hr.trans hf, hs⟩

end

theorem overfull_of_not_fits {body : Body} (hf : ¬Fits verdicts config body) :
    Overfull (accept verdicts config body).stream := by
  obtain ⟨ht, hc⟩ := Classical.not_imp.1 hf
  refine ⟨driver_of_trampolines ht, rfl, rfl, Nat.zero_le _, ?_⟩
  simpa [accept, Stream.start] using hc

/-- While it waits on the request thread, the channel is full and stays so. -/
structure Blocked (stream : Stream) : Prop where
  stuck : Stuck stream
  room : stream.hasRoom = false

theorem serverStep_act_eq_some_iff {server after : Server} {index : Nat} {action : Action} :
    serverStep (.act index action) server = some after ↔
      ∃ request next, server.requests[index]? = some request ∧ request.refuses action = false ∧
        step action request.stream = some next ∧ server.act index request next = after := by
  simp only [serverStep, Option.bind_eq_some_iff]
  constructor
  · rintro ⟨request, hget, hstep⟩
    split at hstep
    · cases hstep
    · rename_i hrefuses
      obtain ⟨next, hnext, hafter⟩ := Option.map_eq_some_iff.1 hstep
      exact ⟨request, next, hget, Bool.eq_false_iff.2 hrefuses, hnext, hafter⟩
  · rintro ⟨request, next, hget, hrefuses, hnext, hafter⟩
    exact ⟨request, hget, by simp [hrefuses, hnext, hafter]⟩

theorem serverStep_record_eq_some_iff {server after : Server} {index : Nat} :
    serverStep (.record index) server = some after ↔
      ∃ request, server.requests[index]? = some request ∧ request.due.isSome = true ∧
        server.record index request = after := by
  simp only [serverStep, Option.bind_eq_some_iff]
  constructor
  · rintro ⟨request, hget, hstep⟩
    split at hstep
    · rename_i hdue
      exact ⟨request, hget, hdue, Option.some.inj hstep⟩
    · cases hstep
  · rintro ⟨request, hget, hdue, hafter⟩
    exact ⟨request, hget, by simp [hdue, hafter]⟩

section Server

variable (admits : Verdicts → Config → Body → Prop)

/-- Only bodies that are admitted under the verdicts of the moment arrive. -/
def Admitted (server : Server) : ServerAction → Prop
  | .arrive config body => admits server.verdicts config body
  | .act _ _ | .record _ => True

def ServerMoves (before after : Server) : Prop :=
  ∃ action, Admitted admits before action ∧ serverStep action before = some after

abbrev ServerReaches : Server → Server → Prop :=
  Relation.ReflTransGen (ServerMoves admits)

variable {admits}

private theorem roomy_serverMoves {before after : Server}
    (hfits : ∀ config body, admits before.verdicts config body →
      Fits before.verdicts config body)
    (hmoves : ServerMoves admits before after)
    (hroomy : ∀ request ∈ before.requests, Roomy request.stream) :
    ∀ request ∈ after.requests, Roomy request.stream := by
  obtain ⟨action, hadmitted, hstep⟩ := hmoves
  cases action with
  | arrive config body =>
    cases hstep
    intro request hmem
    rcases mem_append.1 hmem with hold | hnew
    · exact hroomy request hold
    · cases mem_singleton.1 hnew
      exact (hfits config body hadmitted).roomy
  | act index action =>
    obtain ⟨request, next, hrequest, -, hnext, rfl⟩ := serverStep_act_eq_some_iff.1 hstep
    intro other hmem
    rcases mem_or_eq_of_mem_set hmem with hold | rfl
    · exact hroomy other hold
    · exact (hroomy request (mem_of_getElem? hrequest)).change (change_of_step hnext)
  | record index =>
    obtain ⟨request, hrequest, -, rfl⟩ := serverStep_record_eq_some_iff.1 hstep
    intro other hmem
    rcases mem_or_eq_of_mem_set hmem with hold | rfl
    · exact hroomy other hold
    · exact hroomy request (mem_of_getElem? hrequest)

theorem roomy_of_serverReaches {start server : Server}
    (hr : ServerReaches admits start server)
    (hf : ∀ server, ServerReaches admits start server →
      ∀ config body, admits server.verdicts config body → Fits server.verdicts config body)
    (hroomy : ∀ request ∈ start.requests, Roomy request.stream) :
    ∀ request ∈ server.requests, Roomy request.stream := by
  induction hr with
  | refl => exact hroomy
  | tail hb hm ih => exact roomy_serverMoves (hf _ hb) hm ih

private theorem serverReaches_recorded {server : Server} {index : Nat} {request : Request}
    (hget : server.requests[index]? = some request) :
    ∃ after, ServerReaches admits server after ∧
      after.requests[index]? = some { request with due := none } := by
  cases hdue : request.due with
  | none =>
    refine ⟨server, .refl, hget.trans ?_⟩
    rw [← hdue]
  | some verdict =>
    have hstep := serverStep_record_eq_some_iff.2 ⟨request, hget, by simp [hdue], rfl⟩
    refine ⟨_, .single ⟨.record index, trivial, hstep⟩, ?_⟩
    have hlt := (List.getElem?_eq_some_iff.1 hget).1
    simp [Server.record, hlt]

private theorem serverReaches_of_reaches {server : Server} {index : Nat} {request : Request}
    {next : Stream} (hget : server.requests[index]? = some request)
    (hreaches : Reaches step request.stream next) :
    ∃ after moved, ServerReaches admits server after ∧
      after.requests[index]? = some moved ∧ moved.stream = next := by
  induction hreaches with
  | refl => exact ⟨server, request, .refl, hget, rfl⟩
  | tail _ hmoves ih =>
    obtain ⟨action, hstep⟩ := hmoves
    obtain ⟨middle, moved, hmiddle, hmoved, rfl⟩ := ih
    obtain ⟨recorded, hrecorded, hget'⟩ := @serverReaches_recorded admits _ _ _ hmoved
    have hrefuses : ({ moved with due := none } : Request).refuses action = false := by
      cases action <;> rfl
    have hact := serverStep_act_eq_some_iff.2 ⟨_, _, hget', hrefuses, hstep, rfl⟩
    have hlt := (List.getElem?_eq_some_iff.1 hget').1
    exact ⟨_, _, .tail (hmiddle.trans hrecorded) ⟨.act index action, trivial, hact⟩,
      getElem?_set_self hlt, rfl⟩

/-- No request thread ever waits for room that nobody can make, exactly if every
body that is admitted in a reachable state fits into the channel or is not
trampolined there. -/
theorem never_stuck_iff_fits (admits : Verdicts → Config → Body → Prop) (verdicts : Verdicts) :
    (∀ server, ServerReaches admits ⟨verdicts, []⟩ server → ¬server.Stuck) ↔
      ∀ server, ServerReaches admits ⟨verdicts, []⟩ server →
        ∀ config body, admits server.verdicts config body → Fits server.verdicts config body := by
  constructor
  · intro hn server hr config body ha
    refine Classical.byContradiction fun hf => ?_
    obtain ⟨next, hnext, hs⟩ := (overfull_of_not_fits hf).reaches_stuck
    have harrives : ServerReaches admits ⟨verdicts, []⟩ (server.arrive config body) :=
      .tail hr ⟨.arrive config body, ha, rfl⟩
    have hl : (server.arrive config body).requests[server.requests.length]? =
        some (accept server.verdicts config body) := by
      simp [Server.arrive]
    obtain ⟨after, hafter, haf, hindex, rfl⟩ := serverReaches_of_reaches hl hnext
    exact hn after (harrives.trans haf) ⟨_, mem_of_getElem? hindex, hs⟩
  · rintro hf server hr ⟨request, hmem, hs⟩
    have hroomy := roomy_of_serverReaches hr hf (by simp) request hmem
    exact hroomy.not_stuck hs

end Server

def rowsBody (rows : Nat) : Body where
  source := .awaiting (some 0) (List.replicate rows (.chunk (.bytes [1])))
  ending := .exhausted

def rowsRun : Option Server :=
  runActions serverStep
    ([.arrive StreamDelivery.defaultConfig (rowsBody 1), .act 0 (.drive false),
      .act 0 (.drive false), .record 0, .arrive StreamDelivery.defaultConfig (rowsBody 33)] ++
      List.replicate 33 (.act 1 (.drive false)))
    ⟨[], []⟩

theorem second_request_stuck :
    ∃ server request, rowsRun = some server ∧ server.requests[1]? = some request ∧
      Blocked request.stream := by
  refine ⟨_, _, rfl, rfl, ⟨rfl, rfl, [1], rfl⟩, rfl⟩

section Demotion

variable {code index : Nat} {request : Request} {server next : Server}

theorem get?_record (hverdict : verdicts.get? code = some .awaiting) (request : Request) :
    (request.record verdicts).get? code = some .awaiting := by
  unfold Request.record recordCoopVerdict
  repeat' split
  all_goals grind [Dict.get?_set]

theorem get?_record_demoting (hcode : request.code = some code)
    (hdue : request.due = some (.awaiting, true)) :
    (request.record verdicts).get? code = some .awaiting := by
  simp only [Request.record, hcode, hdue, recordCoopVerdict]
  grind [Dict.get?_set]

/-- A trampolined body has a code that was not demoted when the body came.  Once the
body has suspended, the code has the `awaiting` verdict or is about to get it. -/
def Request.Owes (demoted : Nat → Nat → Prop) (verdicts : Verdicts) (index : Nat)
    (request : Request) : Prop :=
  request.stream.driver = .trampoline → ∃ code, request.code = some code ∧
    ¬demoted code index ∧ (request.stream.eager = false →
      request.due = some (.awaiting, true) ∨ verdicts.get? code = some .awaiting)

structure Charged (demoted : Nat → Nat → Prop) (server : Server) : Prop where
  verdict : ∀ code index, demoted code index → server.verdicts.get? code = some .awaiting
  owes : ∀ (index : Nat) (request : Request), server.requests[index]? = some request →
    request.Owes demoted server.verdicts index

variable {demoted : Nat → Nat → Prop}

theorem Charged.arrive (hcharged : Charged demoted server) (config : Config) (body : Body) :
    Charged demoted (server.arrive config body) := by
  refine ⟨hcharged.verdict, fun place other hother => ?_⟩
  rcases getElem?_started hother with ⟨-, rfl⟩ | hother
  · intro hdriver
    have htrampolines := driver_eq_trampoline hdriver
    simp only [Config.trampolines, Bool.and_eq_true, beq_iff_eq] at htrampolines
    obtain ⟨code, hcode, hverdict⟩ := Option.bind_eq_some_iff.1 htrampolines.2
    refine ⟨code, hcode, fun hdemoted => ?_, by rintro ⟨⟩⟩
    cases hverdict.symm.trans (hcharged.verdict code place hdemoted)
  · exact hcharged.owes place other hother

theorem Request.Owes.moved (howes : request.Owes demoted verdicts index) {after : Stream}
    {action : Action} (hstep : step action request.stream = some after) :
    (request.moved after).Owes demoted verdicts index := by
  intro (hdriver : after.driver = .trampoline)
  -- No driver turns into the trampoline, so that the body had a code before.
  rcases StreamDelivery.driver_change (change_of_step hstep) with hthread | hsame
  · cases hthread.symm.trans hdriver
  obtain ⟨code, hcode, hdemoted, howed⟩ := howes (hsame.symm.trans hdriver)
  refine ⟨code, hcode, hdemoted, fun (hsuspended : after.eager = false) => ?_⟩
  cases heager : request.stream.eager with
  | false => simpa [Request.moved, verdictOf, hdriver, heager] using howed heager
  | true => exact .inl (by simp [Request.moved, verdictOf, hdriver, heager, hsuspended])

theorem Charged.act (hcharged : Charged demoted server)
    (hget : server.requests[index]? = some request) {after : Stream} {action : Action}
    (hstep : step action request.stream = some after) :
    Charged demoted (server.act index request after) := by
  refine ⟨hcharged.verdict, fun place other hother => ?_⟩
  rcases getElem?_moved hget hother with ⟨rfl, rfl⟩ | ⟨-, hother⟩
  · exact (hcharged.owes place request hget).moved hstep
  · exact hcharged.owes place other hother

theorem Charged.record (hcharged : Charged demoted server)
    (hget : server.requests[index]? = some request) :
    Charged demoted (server.record index request) := by
  refine ⟨fun code place hdemoted => get?_record (hcharged.verdict code place hdemoted) request,
    fun place other hother => ?_⟩
  rcases getElem?_moved hget hother with ⟨rfl, rfl⟩ | ⟨-, hother⟩
  · intro hdriver
    obtain ⟨code, hcode, hdemoted, howed⟩ := hcharged.owes place request hget hdriver
    refine ⟨code, hcode, hdemoted, fun hsuspended => .inr ?_⟩
    rcases howed hsuspended with hdue | hverdict
    · exact get?_record_demoting hcode hdue
    · exact get?_record hverdict request
  · intro hdriver
    obtain ⟨code, hcode, hdemoted, howed⟩ := hcharged.owes place other hother hdriver
    exact ⟨code, hcode, hdemoted, fun hsuspended =>
      (howed hsuspended).imp_right fun hverdict => get?_record hverdict request⟩

theorem Charged.step {action : ServerAction} (hstep : serverStep action server = some next)
    (hcharged : Charged demoted server) : Charged demoted next := by
  cases action with
  | arrive config body =>
    cases hstep
    exact hcharged.arrive config body
  | act index action =>
    obtain ⟨request, after, hget, -, hafter, rfl⟩ := serverStep_act_eq_some_iff.1 hstep
    exact hcharged.act hget hafter
  | record index =>
    obtain ⟨request, hget, -, rfl⟩ := serverStep_record_eq_some_iff.1 hstep
    exact hcharged.record hget

/-- No body of the code that comes after now is trampolined, in any run from here. -/
def DemotedFrom (server : Server) (code : Nat) : Prop :=
  ∀ final, Reaches serverStep server final → final.verdicts.get? code = some .awaiting ∧
    ∀ (index : Nat) (later : Request), final.requests[index]? = some later →
      server.requests.length ≤ index → later.code = some code →
      later.stream.driver ≠ .trampoline

theorem Charged.demotedFrom (hcharged : Charged (fun _ _ => False) server)
    (hverdict : server.verdicts.get? code = some .awaiting) : DemotedFrom server code := by
  intro final hfinal
  have hlater : Charged (fun own place => own = code ∧ server.requests.length ≤ place) final := by
    refine hfinal.keeps (fun _ _ _ hstep => Charged.step hstep)
      ⟨?_, fun place other hother hdriver => ?_⟩
    · rintro _ _ ⟨rfl, -⟩
      exact hverdict
    · obtain ⟨own, hown, -, howed⟩ := hcharged.owes place other hother hdriver
      have hlt := (List.getElem?_eq_some_iff.1 hother).1
      exact ⟨own, hown, fun hnew => Nat.not_le.2 hlt hnew.2, howed⟩
  refine ⟨hlater.verdict code _ ⟨rfl, Nat.le_refl _⟩,
    fun place later hget hplace hcode hdriver => ?_⟩
  obtain ⟨own, hown, hnew, -⟩ := hlater.owes place later hget hdriver
  exact hnew ⟨Option.some.inj (hown.symm.trans hcode), hplace⟩

/-- A trampolined body that has suspended does not go on before its thread has recorded
the `awaiting` verdict; from then on its code keeps the verdict, and no body of that
code that arrives is trampolined. -/
theorem suspended_code_demoted (verdicts : Verdicts) {server : Server}
    (hreaches : Reaches serverStep ⟨verdicts, []⟩ server) {index : Nat} {request : Request}
    (hrequest : server.requests[index]? = some request)
    (hdriver : request.stream.driver = .trampoline)
    (hsuspended : request.stream.eager = false) :
    ∃ code, request.code = some code ∧
      (request.due = some (.awaiting, true) ∧
          (∀ overBudget, serverStep (.act index (.drive overBudget)) server = none) ∧
          serverStep (.act index .resume) server = none ∨
        DemotedFrom server code) := by
  have hcharged : Charged (fun _ _ => False) server :=
    hreaches.keeps (fun _ _ _ hstep => Charged.step hstep) ⟨by simp, by simp⟩
  obtain ⟨code, hcode, -, howed⟩ := hcharged.owes index request hrequest hdriver
  refine ⟨code, hcode, (howed hsuspended).imp (fun hdue => ⟨hdue, ?_, ?_⟩) hcharged.demotedFrom⟩
  · intro overBudget
    simp [serverStep, hrequest, Request.refuses, hdue]
  · simp [serverStep, hrequest, Request.refuses, hdue]

end Demotion

def demotedRun : Option Server :=
  runActions serverStep [.arrive StreamDelivery.defaultConfig StreamDelivery.twoChunks,
    .act 0 (.drive false), .act 0 (.drive false), .record 0] ⟨[(0, .cooperative)], []⟩

theorem two_chunks_demoted :
    ∃ server, demotedRun = some server ∧ DemotedFrom server 0 := by
  have hrun : demotedRun = some _ := rfl
  obtain ⟨_, ⟨⟩, ⟨⟨⟩, -⟩ | hdemoted⟩ := @suspended_code_demoted [(0, .cooperative)] _
    (reaches_of_runActions hrun) 0 _ rfl rfl rfl
  exact ⟨_, hrun, hdemoted⟩

end FastapiTurbo.StreamTrampoline
