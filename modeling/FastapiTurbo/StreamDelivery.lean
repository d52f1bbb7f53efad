import FastapiTurbo.Streaming

/-! What the client gets of a streaming body.  At every moment the bytes of the body
are those emitted, batched, queued, held by a waiter and not yet produced, in this
order; no driver ever queues an error. -/
namespace FastapiTurbo.StreamDelivery

open Lib Py Streaming

def itemBytes : Item → Bytes
  | .ok bytes => bytes
  | .err _ => []

def itemsBytes (items : List Item) : Bytes :=
  items.flatMap itemBytes

def eventBytes : Event → Bytes
  | .chunk value => pythonValToBytes value
  | _ => []

def eventsBytes (events : List Event) : Bytes :=
  events.flatMap eventBytes

def phaseBytes : Phase → Bytes
  | .waiting chunk => chunk
  | _ => []

def itemIsOk : Item → Bool
  | .ok _ => true
  | .err _ => false

@[simp] theorem itemsBytes_nil : itemsBytes [] = [] :=
  rfl

@[simp] theorem itemsBytes_cons (item : Item) (items : List Item) :
    itemsBytes (item :: items) = itemBytes item ++ itemsBytes items :=
  rfl

@[simp] theorem itemsBytes_append (items later : List Item) :
    itemsBytes (items ++ later) = itemsBytes items ++ itemsBytes later :=
  List.flatMap_append

@[simp] theorem eventsBytes_cons (event : Event) (events : List Event) :
    eventsBytes (event :: events) = eventBytes event ++ eventsBytes events :=
  rfl

theorem eventBytes_of_not_chunk {event : Event} (he : ∀ value, event ≠ .chunk value) :
    eventBytes event = [] := by
  cases event with
  | chunk value => exact absurd rfl (he value)
  | checkpoint => rfl
  | await => rfl

structure Clean (stream : Stream) : Prop where
  emitted : ∀ item ∈ stream.emitted, itemIsOk item = true
  queue : ∀ item ∈ stream.queue, itemIsOk item = true
  pending : stream.pending = none

theorem Clean.start (driver : Driver) (body : Body) : Clean (Stream.start driver body) where
  emitted := by simp [Stream.start]
  queue := by simp [Stream.start]
  pending := rfl

variable {stream next : Stream}

theorem Clean.change (hc : Clean stream) (hchange : Change stream next) : Clean next := by
  obtain ⟨he, hq, hp⟩ := hc
  have hsend : ∀ chunk, ∀ item ∈ stream.queue ++ [.ok chunk], itemIsOk item = true := by
    intro chunk item hmem
    rcases List.mem_append.1 hmem with hold | hnew
    · exact hq item hold
    · cases List.mem_singleton.1 hnew
      rfl
  have hemit : ∀ chunk, ∀ item ∈ stream.emitted ++ [.ok chunk], itemIsOk item = true := by
    intro chunk item hmem
    rcases List.mem_append.1 hmem with hold | hnew
    · exact he item hold
    · cases List.mem_singleton.1 hnew
      rfl
  have ht : ∀ head tail, stream.queue = head :: tail → ∀ item ∈ tail, itemIsOk item = true := by
    intro head tail heq item hmem
    exact hq item (heq ▸ List.mem_cons_of_mem head hmem)
  have hnoErr : ∀ message tail, stream.queue ≠ .err message :: tail := by
    intro message tail heq
    have herr := hq (.err message) (heq ▸ List.mem_cons_self)
    exact Bool.noConfusion herr
  cases hchange with
  | inlinePush value rest driver | push value rest pushed phase eager | waiterSend chunk =>
    exact ⟨he, hsend _, hp⟩
  | emitPending item _ hs => rw [hp] at hs; cases hs
  | recvErr message queue _ heq | batchErr batch message queue _ _ heq =>
    exact absurd heq (hnoErr message queue)
  | recvLarge chunk queue _ _ heq | batchFull batch chunk queue _ _ heq =>
    exact ⟨hemit _, ht _ _ heq, hp⟩
  | recvFirst chunk queue _ _ heq | batchMore batch chunk queue _ _ heq =>
    exact ⟨he, ht _ _ heq, hp⟩
  | batchEnd batch => exact ⟨hemit _, hq, hp⟩
  | _ => exact ⟨he, hq, hp⟩

def accounted (stream : Stream) : Bytes :=
  itemsBytes stream.emitted ++ stream.batch.getD [] ++ itemsBytes stream.queue ++
    phaseBytes stream.phase ++ eventsBytes stream.rest

theorem accounted_change (hc : Clean stream) (hchange : Change stream next) :
    accounted next = accounted stream := by
  unfold accounted
  cases hchange with
  | handOver => rfl
  | finish hp => simp [Stream.finish, hp, phaseBytes]
  | predrainEnd => rfl
  | inlinePush value rest driver _ hp hr =>
    simp [Stream.send, hp, hr, phaseBytes, itemBytes, eventBytes]
  | inlineSuspend event rest _ hp hr he =>
    simp [Stream.suspend, hp, hr, phaseBytes, eventBytes_of_not_chunk he]
  | push value rest pushed phase eager _ hp _ hr ha =>
    rcases ha with rfl | rfl <;>
      simp [Stream.send, hp, hr, phaseBytes, itemBytes, eventBytes]
  | full value rest _ hp _ hr => simp [hp, hr, phaseBytes, eventBytes]
  | checkpoint rest _ hr => simp [hr, eventBytes]
  | await rest hp hr => simp [Stream.suspend, hp, hr, phaseBytes, eventBytes]
  | resume hp => simp [hp, phaseBytes]
  | waiterSend chunk hp => simp [Stream.send, hp, phaseBytes, itemBytes]
  | waiterResolve pushed phase eager hp ha =>
    rcases ha with rfl | rfl <;> simp [hp, phaseBytes]
  | waiterDrop => rfl
  | respond => rfl
  | emitPending item _ hs => rw [hc.pending] at hs; cases hs
  | eof => rfl
  | recvErr message queue _ hq | batchErr batch message queue _ _ hq =>
    have herr := hc.queue (.err message) (hq ▸ List.mem_cons_self)
    exact Bool.noConfusion herr
  | recvLarge chunk queue _ hb hq | batchFull batch chunk queue _ hb hq
  | batchEnd batch _ hb hq =>
    simp [Stream.emit, hb, hq, itemBytes]
  | recvFirst chunk queue _ hb hq | batchMore batch chunk queue _ hb hq =>
    simp [hb, hq, itemBytes]

theorem closed_iff :
    stream.closed = true ↔
      stream.returned = true ∧ stream.phase = .ended ∧ stream.lingering = 0 := by
  simp [Stream.closed, and_assoc]

theorem closed_empty_change (hchange : Change stream next) (hc : stream.closed = true)
    (hq : stream.queue = []) : next.closed = true ∧ next.queue = [] := by
  obtain ⟨hr, he, hl⟩ := closed_iff.1 hc
  cases hchange with
  | waiterDrop hs => exact absurd hl hs
  | respond hp => simp [hr] at hp
  | emitPending item | eof | batchEnd batch => exact ⟨hc, hq⟩
  | _ => simp_all

structure Flags (stream : Stream) : Prop where
  ended : stream.phase = .ended → stream.rest = []
  done : stream.done = true → stream.closed = true ∧ stream.queue = []
  finished : stream.finished = true →
    stream.closed = true ∧ stream.queue = [] ∧ stream.batch = none
  waiting : ∀ chunk, stream.phase = .waiting chunk → stream.driver.drainsInline = false

theorem Flags.start (driver : Driver) (body : Body) : Flags (Stream.start driver body) where
  ended := by simp [Stream.start]
  done := by simp [Stream.start]
  finished := by simp [Stream.start]
  waiting := by simp [Stream.start]

theorem ended_change (hf : Flags stream) (hc : Change stream next) :
    next.phase = .ended → next.rest = [] := by
  have he := hf.ended
  cases hc with
  | finish _ hr => exact fun _ => hr
  | push value rest pushed phase eager _ _ _ _ ha
  | waiterResolve pushed phase eager _ ha =>
    rcases ha with rfl | rfl <;> simp
  | _ => simp_all [Stream.send, Stream.suspend, Stream.emit, Stream.predrainEnd]

theorem done_change (hf : Flags stream) (hchange : Change stream next) :
    next.done = true → next.closed = true ∧ next.queue = [] := by
  have hk : stream.done = true → next.closed = true ∧ next.queue = [] := by
    intro hd
    obtain ⟨hc, hq⟩ := hf.done hd
    exact closed_empty_change hchange hc hq
  cases hchange with
  | batchEnd batch _ _ hq => exact fun hc => ⟨hc, hq⟩
  | _ => exact hk

theorem finished_change (hflags : Flags stream) (hchange : Change stream next) :
    next.finished = true → next.closed = true ∧ next.queue = [] ∧ next.batch = none := by
  have hk : stream.finished = true → next.closed = true ∧ next.queue = [] := by
    intro hf
    obtain ⟨hc, hq, -⟩ := hflags.finished hf
    exact closed_empty_change hchange hc hq
  have hb : stream.finished = true → stream.batch = none :=
    fun hf => (hflags.finished hf).2.2
  have he : stream.finished = true → stream.queue = [] :=
    fun hf => (hflags.finished hf).2.1
  cases hchange with
  | eof _ _ hn _ hend =>
    rintro -
    rcases hend with hd | ⟨hq, hc⟩
    · obtain ⟨hc, hq⟩ := hflags.done hd
      exact ⟨hc, hq, hn⟩
    · exact ⟨hc, hq, hn⟩
  | recvFirst chunk queue _ _ hq | batchMore batch chunk queue _ _ hq =>
    intro hf
    simp [he hf] at hq
  | batchFull batch chunk queue | batchErr batch message queue | batchEnd batch =>
    exact fun hf => ⟨(hk hf).1, (hk hf).2, rfl⟩
  | _ =>
    exact fun hf => ⟨(hk hf).1, (hk hf).2, hb hf⟩

private theorem waiting_change (hf : Flags stream) (hc : Change stream next) :
    ∀ chunk, next.phase = .waiting chunk → next.driver.drainsInline = false := by
  have hw := hf.waiting
  cases hc with
  | push value rest pushed phase eager hd => exact fun _ _ => hd
  | full value rest hd =>
    intro chunk _
    cases hk : stream.driver <;> simp_all [Driver.pushesOnLoop, Driver.drainsInline]
  | waiterResolve pushed phase eager _ ha => rcases ha with rfl | rfl <;> simp
  | _ => simp_all [Stream.send, Stream.suspend, Stream.emit, Stream.finish, Stream.predrainEnd]

theorem Flags.change (hf : Flags stream) (hc : Change stream next) :
    Flags next where
  ended := ended_change hf hc
  done := done_change hf hc
  finished := finished_change hf hc
  waiting := waiting_change hf hc

def phaseWeight : Phase → Nat
  | .ended => 0
  | .running => 1
  | .suspended => 2
  | .delivered => 4
  | .waiting _ => 7

def remaining (stream : Stream) : Nat :=
  20 * stream.rest.length + phaseWeight stream.phase + stream.driver.drainsInline.toNat +
    2 * stream.queue.length + stream.lingering + (!stream.returned).toNat +
    stream.pending.isSome.toNat + stream.batch.isSome.toNat + (!stream.finished).toNat

theorem remaining_decreases (hc : Change stream next) : remaining next < remaining stream := by
  unfold remaining
  cases hc with
  | handOver hd => simp [hd]
  | finish hp => simp [Stream.finish, hp, phaseWeight]
  | predrainEnd hd => simp [Stream.predrainEnd, hd]
  | inlinePush value rest dr hd _ hr hn =>
    have hle : dr.drainsInline.toNat ≤ stream.driver.drainsInline.toNat := by
      rcases hn with rfl | rfl
      · exact Nat.zero_le _
      · exact Nat.le_refl _
    simp [Stream.send, hr]
    omega
  | inlineSuspend event rest _ hp hr =>
    simp [Stream.suspend, hp, hr, phaseWeight]
    omega
  | push value rest pushed phase eager _ hp _ hr ha =>
    rcases ha with rfl | rfl <;> simp [Stream.send, hp, hr, phaseWeight] <;> omega
  | full value rest _ hp _ hr => simp [hp, hr, phaseWeight]; omega
  | checkpoint rest _ hr => simp [hr]
  | await rest hp hr => simp [Stream.suspend, hp, hr, phaseWeight]; omega
  | resume hp => simp [hp, phaseWeight]
  | waiterSend chunk hp => simp [Stream.send, hp, phaseWeight]; omega
  | waiterResolve pushed phase eager hp ha =>
    rcases ha with rfl | rfl <;> simp [hp, phaseWeight] <;> omega
  | waiterDrop hl =>
    simp only
    omega
  | respond hreturned => simp [hreturned]
  | emitPending item _ hpending => simp [Stream.emit, hpending]
  | eof _ hf => simp [hf]
  | recvErr message queue _ hq | recvLarge chunk queue _ _ hq => simp [Stream.emit, hq]
  | recvFirst chunk queue _ hb hq => simp [hb, hq]; omega
  | batchMore batch chunk queue _ hb hq => simp [hb, hq]
  | batchFull batch chunk queue _ hb hq =>
    simp only [Stream.emit, hb, hq, List.length_cons, Option.isSome_some, Option.isSome_none,
      Bool.toNat_true, Bool.toNat_false]
    omega
  | batchErr batch message queue _ hb hq =>
    cases stream.pending <;>
      simp only [Stream.emit, hb, hq, List.length_cons, Option.isSome_some, Option.isSome_none,
        Bool.toNat_true, Bool.toNat_false] <;>
      omega
  | batchEnd batch _ hb => simp [Stream.emit, hb]

theorem poll_enabled (hr : stream.returned = true) (hf : stream.finished = false)
    (hready : stream.queue ≠ [] ∨ stream.closed = true) :
    ∃ next, step .poll stream = some next := by
  simp only [step, Stream.poll, hr, hf, Bool.not_false, Bool.and_self, if_true]
  cases stream.batch with
  | some batch => exact ⟨_, rfl⟩
  | none =>
    simp only [Stream.pollFirst]
    cases stream.pending with
    | some item => exact ⟨_, rfl⟩
    | none =>
      simp only
      split
      · exact ⟨_, rfl⟩
      · cases hq : stream.queue with
        | nil =>
          have hc : stream.closed = true := hready.resolve_left (absurd hq)
          exact ⟨_, if_pos hc⟩
        | cons item queue =>
          cases item with
          | err message => exact ⟨_, rfl⟩
          | ok chunk =>
            simp only
            split
            · exact ⟨_, rfl⟩
            · exact ⟨_, rfl⟩

theorem respond_enabled (hr : stream.returned = false)
    (ht : stream.driver.onRequestThread = true → stream.phase = .ended) :
    ∃ next, step .respond stream = some next := by
  refine ⟨{ stream with returned := true }, ?_⟩
  simp only [step, Stream.respond, hr]
  cases hrequest : stream.driver.onRequestThread with
  | false => simp
  | true => simp [ht hrequest]

theorem full_enabled (hf : stream.finished = false) (hroom : stream.hasRoom = false)
    (ht : stream.driver.onRequestThread = false) :
    ∃ action next, step action stream = some next := by
  cases hr : stream.returned with
  | false =>
    obtain ⟨next, hn⟩ := respond_enabled hr (by simp [ht])
    exact ⟨.respond, next, hn⟩
  | true =>
    have hq : stream.queue ≠ [] := by
      intro he
      simp [Stream.hasRoom, he, channelCapacity] at hroom
    obtain ⟨next, hn⟩ := poll_enabled hr hf (.inl hq)
    exact ⟨.poll, next, hn⟩

private theorem driveThread_enabled (hr : stream.hasRoom = true) :
    ∃ next, stream.driveThread = some next := by
  unfold Stream.driveThread
  split
  · exact ⟨_, rfl⟩
  · rw [if_pos hr]
    exact ⟨_, rfl⟩
  · exact ⟨_, rfl⟩
  · exact ⟨_, rfl⟩

private theorem drive_enabled (hp : stream.phase = .running) (hf : stream.finished = false) :
    ∃ action next, step action stream = some next := by
  cases hd : stream.driver with
  | predrain | inline =>
    refine ⟨.drive false, stream.driveInline false, ?_⟩
    simp only [step, Stream.drive, hp, if_true, hd]
  | loop | trampoline =>
    refine ⟨.drive false, stream.driveLoop, ?_⟩
    simp only [step, Stream.drive, hp, if_true, hd]
  | thread | privateLoop =>
    cases hr : stream.hasRoom with
    | false => exact full_enabled hf hr (by rw [hd]; rfl)
    | true =>
      obtain ⟨next, hn⟩ := driveThread_enabled hr
      exact ⟨.drive false, next, by simp only [step, Stream.drive, hp, if_true, hd, hn]⟩

theorem step_enabled (hflags : Flags stream) (hd : stream.driver ≠ .trampoline)
    (hf : stream.finished = false) : ∃ action next, step action stream = some next := by
  cases hp : stream.phase with
  | running => exact drive_enabled hp hf
  | suspended => exact ⟨.resume, _, if_pos hp⟩
  | delivered => exact ⟨.waiterResolve, _, if_pos hp⟩
  | waiting chunk =>
    cases hroom : stream.hasRoom with
    | true =>
      refine ⟨.waiterSend, { stream.send chunk with phase := .delivered }, ?_⟩
      simp only [step, Stream.waiterSend, hp, hroom, if_true]
    | false =>
      have hinline := hflags.waiting chunk hp
      refine full_enabled hf hroom ?_
      cases hk : stream.driver <;> simp_all [Driver.drainsInline, Driver.onRequestThread]
  | ended =>
    cases hr : stream.returned with
    | false =>
      obtain ⟨next, hn⟩ := respond_enabled hr fun _ => hp
      exact ⟨.respond, next, hn⟩
    | true =>
      by_cases hl : stream.lingering = 0
      · have hc : stream.closed = true := closed_iff.2 ⟨hr, hp, hl⟩
        obtain ⟨next, hn⟩ := poll_enabled hr hf (.inr hc)
        exact ⟨.poll, next, hn⟩
      · exact ⟨.waiterDrop, _, if_neg hl⟩

structure Sound (body : Body) (stream : Stream) : Prop where
  clean : Clean stream
  flags : Flags stream
  accounted : accounted stream = eventsBytes body.source.events

theorem Sound.start (driver : Driver) (body : Body) : Sound body (Stream.start driver body) where
  clean := .start driver body
  flags := .start driver body
  accounted := by simp [StreamDelivery.accounted, Stream.start, phaseBytes]

variable {body : Body}

theorem Sound.step (action : Action) (stream next : Stream) (hstep : step action stream = some next)
    (hs : Sound body stream) : Sound body next where
  clean := hs.clean.change (change_of_step hstep)
  flags := hs.flags.change (change_of_step hstep)
  accounted := (accounted_change hs.clean (change_of_step hstep)).trans hs.accounted

theorem sound_of_reaches {driver : Driver}
    (hr : Reaches step (Stream.start driver body) stream) : Sound body stream :=
  hr.keeps Sound.step (.start driver body)

theorem Sound.emitted_prefix (hs : Sound body stream) :
    itemsBytes stream.emitted <+: eventsBytes body.source.events := by
  rw [← hs.accounted]
  simp only [StreamDelivery.accounted, List.append_assoc]
  exact List.prefix_append _ _

theorem Sound.emitted_all (hs : Sound body stream) (hf : stream.finished = true) :
    itemsBytes stream.emitted = eventsBytes body.source.events := by
  obtain ⟨hc, hq, hb⟩ := hs.flags.finished hf
  obtain ⟨-, he, -⟩ := closed_iff.1 hc
  have hr := hs.flags.ended he
  have ha := hs.accounted
  simpa [StreamDelivery.accounted, hq, hb, he, hr, phaseBytes, eventsBytes]
    using ha

theorem driver_change (hc : Change stream next) :
    next.driver = .thread ∨ next.driver = stream.driver := by
  cases hc with
  | handOver | predrainEnd | inlineSuspend => exact .inl rfl
  | inlinePush value rest dr _ _ _ hn => exact hn
  | _ => exact .inr rfl

theorem driver_ne_trampoline_step (action : Action) (stream next : Stream)
    (hs : step action stream = some next) (hd : stream.driver ≠ .trampoline) :
    next.driver ≠ .trampoline := by
  rcases driver_change (change_of_step hs) with ht | hsame
  · rw [ht]
    exact Driver.noConfusion
  · rwa [hsame]

theorem driver_ne_trampoline {config : Config} {verdicts : Verdicts} {source : Source}
    (ht : config.trampolines verdicts source = false) :
    config.driver verdicts source ≠ .trampoline := by
  cases source with
  | sync hasNext chunks => cases hasNext <;> cases hl : config.legacyForced <;>
      simp [Config.driver, hl]
  | noawait chunks => cases hl : config.legacyForced <;> simp [Config.driver, hl]
  | awaiting code events =>
    simp only [Config.driver, ht, Bool.false_eq_true, if_false]
    split <;> exact Driver.noConfusion

/-- What the client has got of a stream is data and a beginning of the body; at the end
of the stream it is all of it; the end can be reached from here, and no run goes on for
longer than `remaining`. -/
structure Delivers (bytes : Bytes) (stream : Stream) : Prop where
  beginning : itemsBytes stream.emitted <+: bytes
  data : ∀ item ∈ stream.emitted, itemIsOk item = true
  whole : stream.finished = true → itemsBytes stream.emitted = bytes
  ends : ∃ final, Reaches step stream final ∧ final.finished = true
  bounded : ∀ actions next, runActions step actions stream = some next →
    actions.length ≤ remaining stream

theorem delivers_of_reaches (config : Config) (verdicts : Verdicts) (body : Body)
    (htrampolines : config.trampolines verdicts body.source = false) (stream : Stream)
    (hreaches : Reaches step (Stream.start (config.driver verdicts body.source) body) stream) :
    Delivers (eventsBytes body.source.events) stream := by
  have hsound := sound_of_reaches hreaches
  have hdriver : stream.driver ≠ .trampoline :=
    hreaches.keeps driver_ne_trampoline_step (driver_ne_trampoline htrampolines)
  have hkeeps : ∀ action stream next, step action stream = some next →
      Sound body stream ∧ stream.driver ≠ .trampoline →
      Sound body next ∧ next.driver ≠ .trampoline := by
    intro action stream next hstep hholds
    exact ⟨hholds.1.step action stream next hstep,
      driver_ne_trampoline_step action stream next hstep hholds.2⟩
  have hdecreases : ∀ action stream next, step action stream = some next →
      Sound body stream ∧ stream.driver ≠ .trampoline → remaining next < remaining stream :=
    fun _ _ _ hstep _ => remaining_decreases (change_of_step hstep)
  refine ⟨hsound.emitted_prefix, hsound.clean.emitted, hsound.emitted_all, ?_, ?_⟩
  · refine exists_reaches_final hkeeps hdecreases ?_ ⟨hsound, hdriver⟩
    intro state hholds hunfinished
    exact step_enabled hholds.1.flags hholds.2 (Bool.eq_false_iff.2 hunfinished)
  · intro actions next hrun
    exact length_le_measure hkeeps hdecreases ⟨hsound, hdriver⟩ hrun

/-- What a response has for its `body_iterator`: an iterator, or an asynchronous
iterable that is neither an asynchronous iterator nor a synchronous iterable. -/
inductive BodyObject where
  | iterator (body : Body)
  | asyncIterable (events : List Event)

def BodyObject.events : BodyObject → List Event
  | .iterator body => body.source.events
  | .asyncIterable events => events

/-- What is driven.  An object without `__anext__` is taken for a synchronous iterable;
where `__iter__` then fails, the blocking thread drops its sender at once. -/
def BodyObject.driven : BodyObject → Body
  | .iterator body => body
  | .asyncIterable _ => ⟨.sync false [], .exhausted⟩

def createStreamingResponse (config : Config) (verdicts : Verdicts) (object : BodyObject) :
    Stream :=
  Stream.start (config.driver verdicts object.driven.source) object.driven

def BodyObject.IsIterator : BodyObject → Prop
  | .iterator _ => True
  | .asyncIterable _ => False

/-- A body that is not trampolined gets to the client whole and in order exactly if it
has `__anext__` or `__iter__`, or nothing to deliver. -/
theorem body_delivered_iff (config : Config) (verdicts : Verdicts) (object : BodyObject)
    (htrampolines : config.trampolines verdicts object.driven.source = false) :
    (∀ stream, Reaches step (createStreamingResponse config verdicts object) stream →
        Delivers (eventsBytes object.events) stream) ↔
      object.IsIterator ∨ eventsBytes object.events = [] := by
  have hdriven := delivers_of_reaches config verdicts object.driven htrampolines
  cases object with
  | iterator body => exact iff_of_true hdriven (.inl trivial)
  | asyncIterable events =>
    constructor
    · intro hdelivers
      obtain ⟨final, hreaches, hfinished⟩ := (hdriven _ .refl).ends
      refine .inr ?_
      rw [← (hdelivers final hreaches).whole hfinished,
        (hdriven final hreaches).whole hfinished]
      rfl
    · rintro (hiterator | hempty) stream hreaches
      · exact hiterator.elim
      · rw [hempty]
        exact hdriven stream hreaches

def defaultConfig : Config where
  legacyForced := false
  trampolineSupported := true
  trampolineStarts := true
  workerSchedules := true

def twoChunks : Body where
  source := .awaiting (some 0) [.chunk (.bytes [1]), .await, .chunk (.bytes [2, 3])]
  ending := .exhausted

def twoChunksRun : Option Stream :=
  runActions step
    [.drive false, .drive false, .respond, .poll, .resume, .drive false, .poll, .drive false,
      .poll, .poll]
    (Stream.start (defaultConfig.driver [] twoChunks.source) twoChunks)

theorem two_chunks_delivered :
    ∃ stream, twoChunksRun = some stream ∧ stream.finished = true ∧
      itemsBytes stream.emitted = [1, 2, 3] := by
  have hrun : ∃ stream, twoChunksRun = some stream ∧ stream.finished = true := ⟨_, rfl, rfl⟩
  obtain ⟨stream, hstream, hfinished⟩ := hrun
  have hdelivered := (body_delivered_iff defaultConfig [] (.iterator twoChunks) rfl).2
    (.inl trivial) stream (reaches_of_runActions hstream)
  exact ⟨stream, hstream, hfinished, hdelivered.whole hfinished⟩

/-- An object with `__aiter__` alone would yield a chunk, and the client gets an empty
body. -/
theorem async_iterable_lost :
    (runActions step [.respond, .drive false, .poll]
        (createStreamingResponse defaultConfig []
          (.asyncIterable [.chunk (.bytes [97])]))).map
        (fun stream => (stream.emitted, stream.finished, stream.captured.length)) =
      some ([], true, 0) ∧
    eventsBytes (BodyObject.asyncIterable [.chunk (.bytes [97])]).events = [97] := by
  exact ⟨rfl, rfl⟩

/-- The end of the stream is clean only if the iterator was exhausted, and otherwise an
error follows the bytes of what it yielded. -/
def ReportsTruncation (body : Body) (stream : Stream) : Prop :=
  ((∀ item ∈ stream.emitted, itemIsOk item = true) → body.ending = .exhausted) ∧
    ∀ error, body.ending = .raised error →
      ∃ items message, stream.emitted = items ++ [.err message] ∧
        (∀ item ∈ items, itemIsOk item = true) ∧
        itemsBytes items = eventsBytes body.source.events

/-- Whatever the driver, a stream that has ended tells a truncated body from a whole
one exactly if the body is whole. -/
theorem reportsTruncation_iff_exhausted (driver : Driver) (body : Body) (stream : Stream)
    (hreaches : Reaches step (Stream.start driver body) stream)
    (_hfinished : stream.finished = true) :
    ReportsTruncation body stream ↔ body.ending = .exhausted := by
  have hc := (sound_of_reaches hreaches).clean.emitted
  constructor
  · intro hr
    exact hr.1 hc
  · intro he
    refine ⟨fun _ => he, ?_⟩
    intro error hraised
    simp [he] at hraised

def failingBody : Body where
  source := .sync true [.bytes [97]]
  ending := .raised ⟨["ValueError", "Exception", "BaseException", "object"], "broken row"⟩

def failingRun : Option Stream :=
  runActions step [.drive false, .drive false, .respond, .poll, .poll, .poll]
    (Stream.start .inline failingBody)

theorem failing_body_unreported :
    ∃ stream, failingRun = some stream ∧ stream.finished = true ∧
      ¬ReportsTruncation failingBody stream := by
  have hrun : ∃ stream, failingRun = some stream ∧ stream.finished = true := ⟨_, rfl, rfl⟩
  obtain ⟨stream, hs, hf⟩ := hrun
  have hr := reportsTruncation_iff_exhausted .inline failingBody stream
    (reaches_of_runActions hs) hf
  exact ⟨stream, hs, hf, fun ht => Ending.noConfusion (hr.1 ht)⟩

/-- The client sees one chunk and a clean end, the error is only on the app. -/
theorem failing_body_ends_cleanly :
    failingRun.map (fun stream => (stream.emitted, stream.finished, stream.captured.length)) =
      some ([.ok [97]], true, 1) := by
  rfl

end FastapiTurbo.StreamDelivery
