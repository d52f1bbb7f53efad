import FastapiTurbo.ResponseHeaders

/-! The background tasks of a request (`router.rs`, `background.py`, `responses.rs`).  The
injected `BackgroundTasks` object is drained when the handler has returned; the `background`
of the returned response is run by the conversion of the plain responses. -/
namespace FastapiTurbo.BackgroundDrain

open List

open ResponseHeaders (PyResponse conversion)

structure Task where
  raises : Bool
  deriving DecidableEq

/-- Where a task is queued: on a `BackgroundTasks` object of this package, or on what the
response carries otherwise. -/
inductive Owner where
  | object (id : Nat)
  | attached
  deriving DecidableEq

inductive Background where
  | absent
  /-- One of this package's objects, which the injected one is too. -/
  | object (id : Nat)
  | starlette (tasks : List Task)
  | task (single : Task)
  | callable (single : Task)
  deriving DecidableEq

def Background.attached : Background → List Task
  | .absent | .object _ => []
  | .starlette tasks => tasks
  | .task single | .callable single => [single]

/-- The tasks of every object, and the tasks that were started, by owner and place. -/
structure Queues where
  heap : Nat → List Task
  log : List (Owner × Nat)

/-- A loop over tasks from this place on, and whether it was left by an exception. -/
def runTasks (owner : Owner) : Nat → List Task → List (Owner × Nat) × Bool
  | _, [] => ([], false)
  | place, task :: rest =>
    if task.raises then ([(owner, place)], true)
    else
      let (log, raised) := runTasks owner (place + 1) rest
      ((owner, place) :: log, raised)

namespace Queues

/-- `BackgroundTasks.run_sync`: the tasks are cleared at the end of the loop. -/
def runSync (id : Nat) (queues : Queues) : Queues :=
  let (log, raised) := runTasks (.object id) 0 (queues.heap id)
  { heap :=
      if raised then queues.heap else fun other => if other = id then [] else queues.heap other
    log := queues.log ++ log }

/-- The loop of `drain_background_tasks`, with the objects that it has seen.  What
`run_sync` raises is dropped. -/
def drainAll : List Nat → List Nat → Queues → Queues
  | [], _, queues => queues
  | id :: rest, seen, queues =>
    if id ∈ seen then drainAll rest seen queues
    else
      drainAll rest (id :: seen)
        (if (queues.heap id).isEmpty then queues else queues.runSync id)

def runBackgroundObj (queues : Queues) : Background → Queues
  | .absent => queues
  | .object id => queues.runSync id
  | background =>
    { queues with log := queues.log ++ (runTasks .attached 0 background.attached).1 }

end Queues

structure Request where
  shared : Option Nat
  /-- The objects in the handler's own parameters. -/
  params : List Nat
  hasInjectBackgroundTasks : Bool
  hasDepParams : Bool
  /-- An object is injected only into a handler or a dependency that asks for it. -/
  gated : shared ≠ none ∨ params ≠ [] → (hasInjectBackgroundTasks || hasDepParams) = true
  heap : Nat → List Task
  /-- A function-scope dependency raises in its teardown. -/
  teardownRaises : Bool
  /-- The result, if it is a response, with its `background`. -/
  result : Option (PyResponse × Background)

namespace Request

variable (request : Request)

def drained : List Nat :=
  request.shared.toList ++ request.params

def drainBackgroundTasks : Queues :=
  let queues : Queues := ⟨request.heap, []⟩
  if request.hasInjectBackgroundTasks || request.hasDepParams then
    queues.drainAll request.drained []
  else queues

def finish : Queues :=
  let queues := request.drainBackgroundTasks
  if request.teardownRaises then queues
  else
    match request.result with
    | some (response, background) =>
      if conversion response = .plain then queues.runBackgroundObj background else queues
    | none => queues

def background : Background :=
  (request.result.map Prod.snd).getD .absent

def owners : List Owner :=
  request.drained.map .object ++
    match request.background with
    | .absent => []
    | .object id => [.object id]
    | _ => [.attached]

def tasks : Owner → List Task
  | .object id => request.heap id
  | .attached => request.background.attached

end Request

def starts (log : List (Owner × Nat)) (owner : Owner) : List Nat :=
  (log.filter fun start => start.1 = owner).map Prod.snd

/-- Each task is started at most once, in the order of insertion, and it is started if no
earlier one has raised. -/
structure Proper (tasks : List Task) (places : List Nat) : Prop where
  once : ∀ place, places.count place ≤ 1
  ordered : places.Pairwise (· ≤ ·)
  reached : ∀ place < tasks.length, (∀ task ∈ tasks.take place, task.raises = false) →
    places.count place = 1

def reach : List Task → Nat
  | [] => 0
  | task :: rest => if task.raises then 1 else reach rest + 1

theorem runTasks_eq (owner : Owner) (place : Nat) (tasks : List Task) :
    runTasks owner place tasks =
      ((List.range' place (reach tasks)).map (Prod.mk owner), tasks.any Task.raises) := by
  induction tasks generalizing place with
  | nil => rfl
  | cons task rest ih =>
    cases hraises : task.raises with
    | true => simp [runTasks, reach, hraises, range'_succ]
    | false => simp [runTasks, reach, hraises, ih, range'_succ]

theorem lt_reach {tasks : List Task} {place : Nat} (hinside : place < tasks.length)
    (hquiet : ∀ task ∈ tasks.take place, task.raises = false) : place < reach tasks := by
  induction tasks generalizing place with
  | nil => exact absurd hinside (Nat.not_lt_zero place)
  | cons task rest ih =>
      cases place with
      | zero => simp only [reach]; split <;> omega
      | succ place =>
          have hfirst : task.raises = false := hquiet task (by simp)
          have hlater := ih (Nat.lt_of_succ_lt_succ hinside)
            (fun other hmember => hquiet other (by simp [hmember]))
          simp only [reach, hfirst, Bool.false_eq_true, if_false]
          omega

theorem count_range (place size : Nat) :
    (List.range size).count place = if place < size then 1 else 0 := by
  simp [nodup_range.count]

theorem proper_range (tasks : List Task) : Proper tasks (List.range (reach tasks)) where
  once place := by
    rw [count_range]
    split <;> omega
  ordered := pairwise_lt_range.imp Nat.le_of_lt
  reached place hinside hquiet := by rw [count_range, if_pos (lt_reach hinside hquiet)]

theorem proper_nil_iff (tasks : List Task) : Proper tasks [] ↔ tasks = [] := by
  constructor
  · intro hproper
    rcases tasks with _ | ⟨task, rest⟩
    · rfl
    · exact absurd (hproper.reached 0 (Nat.succ_pos _) (by simp)) (by simp)
  · rintro rfl
    exact proper_range []

theorem not_proper_twice {tasks : List Task} (hnonempty : tasks ≠ []) :
    ¬ Proper tasks (List.range (reach tasks) ++ List.range (reach tasks)) := by
  intro hproper
  have hstarted : 0 < reach tasks :=
    lt_reach (length_pos_iff.mpr hnonempty) (by simp)
  have htwice := hproper.once 0
  rw [count_append, count_range, if_pos hstarted] at htwice
  omega

@[simp] theorem starts_append (before after : List (Owner × Nat)) (owner : Owner) :
    starts (before ++ after) owner = starts before owner ++ starts after owner := by
  simp [starts]

theorem starts_runTasks (runner owner : Owner) (tasks : List Task) :
    starts (runTasks runner 0 tasks).1 owner =
      if runner = owner then List.range (reach tasks) else [] := by
  rw [runTasks_eq, range_eq_range']
  by_cases hsame : runner = owner
  · simp [starts, hsame, Function.comp_def, filter_map]
  · simp [starts, hsame, Function.comp_def, filter_map]

namespace Queues

def rest (queues : Queues) (id : Nat) : List Task :=
  if (queues.heap id).any Task.raises then queues.heap id else []

theorem starts_runSync (queues : Queues) (id : Nat) (owner : Owner) :
    starts (queues.runSync id).log owner =
      starts queues.log owner ++
        if .object id = owner then List.range (reach (queues.heap id)) else [] := by
  simp only [runSync, starts_append, starts_runTasks]

theorem heap_runSync (queues : Queues) (id other : Nat) :
    (queues.runSync id).heap other = if other = id then queues.rest id else queues.heap other := by
  simp only [runSync, runTasks_eq, rest]
  by_cases hsame : other = id
  · subst hsame
    cases (queues.heap other).any Task.raises <;> simp
  · cases (queues.heap id).any Task.raises <;> simp [hsame]

theorem starts_drainOne (queues : Queues) (id : Nat) (owner : Owner) :
    starts (if (queues.heap id).isEmpty then queues else queues.runSync id).log owner =
      starts (queues.runSync id).log owner := by
  cases hempty : queues.heap id with
  | nil => simp [starts_runSync, hempty, reach]
  | cons task rest => rfl

theorem heap_drainOne (queues : Queues) (id other : Nat) :
    (if (queues.heap id).isEmpty then queues else queues.runSync id).heap other =
      (queues.runSync id).heap other := by
  cases hempty : queues.heap id with
  | nil =>
      rw [heap_runSync]
      by_cases hsame : other = id
      · simp [hsame, rest, hempty]
      · simp [hsame]
  | cons task rest => rfl

section

variable (ids seen : List Nat) (queues : Queues)

theorem starts_drainAll (id : Nat) :
    starts (queues.drainAll ids seen).log (.object id) =
      starts queues.log (.object id) ++
        if id ∈ ids ∧ id ∉ seen then List.range (reach (queues.heap id)) else [] := by
  induction ids generalizing seen queues with
  | nil => simp [drainAll]
  | cons first others ih =>
    rw [drainAll]
    by_cases hknown : first ∈ seen
    · rw [if_pos hknown, ih]
      by_cases hsame : id = first
      · simp [hsame, hknown]
      · simp [hsame]
    · rw [if_neg hknown, ih, starts_drainOne, heap_drainOne, starts_runSync, heap_runSync]
      by_cases hsame : id = first
      · simp [hsame, hknown]
      · simp [hsame, Ne.symm hsame]

theorem heap_drainAll (id : Nat) :
    (queues.drainAll ids seen).heap id =
      if id ∈ ids ∧ id ∉ seen then queues.rest id else queues.heap id := by
  induction ids generalizing seen queues with
  | nil => simp [drainAll]
  | cons first others ih =>
    rw [drainAll]
    by_cases hknown : first ∈ seen
    · rw [if_pos hknown, ih]
      by_cases hsame : id = first
      · simp [hsame, hknown]
      · simp [hsame]
    · rw [if_neg hknown, ih, rest, heap_drainOne, heap_runSync]
      by_cases hsame : id = first
      · simp [hsame, hknown]
      · simp [hsame, rest]

theorem starts_drainAll_attached :
    starts (queues.drainAll ids seen).log .attached = starts queues.log .attached := by
  induction ids generalizing seen queues with
  | nil => rfl
  | cons first others ih =>
    rw [drainAll]
    split
    · exact ih seen queues
    · rw [ih, starts_drainOne, starts_runSync]
      simp

end

theorem starts_runBackgroundObj (queues : Queues) (id : Nat) :
    ∀ background : Background, starts (queues.runBackgroundObj background).log (.object id) =
      starts queues.log (.object id) ++
        if background = .object id then List.range (reach (queues.heap id)) else []
  | .absent => by simp [runBackgroundObj]
  | .object other => by
      rw [runBackgroundObj, starts_runSync]
      by_cases hsame : other = id
      · simp [hsame]
      · simp [hsame]
  | .starlette _ | .task _ | .callable _ => by
      simp [runBackgroundObj, starts_runTasks]

theorem starts_runBackgroundObj_attached (queues : Queues) :
    ∀ background : Background, starts (queues.runBackgroundObj background).log .attached =
      starts queues.log .attached ++ List.range (reach background.attached)
  | .absent => by simp [runBackgroundObj, Background.attached, reach]
  | .object _ => by simp [runBackgroundObj, Background.attached, reach, starts_runSync]
  | .starlette _ | .task _ | .callable _ => by
      simp [runBackgroundObj, starts_runTasks]

end Queues

namespace Request

variable (request : Request)

def converts : Bool :=
  match request.result with
  | some (response, _) => !request.teardownRaises && decide (conversion response = .plain)
  | none => false

theorem drainBackgroundTasks_eq :
    request.drainBackgroundTasks =
      Queues.drainAll request.drained [] ⟨request.heap, []⟩ := by
  rw [drainBackgroundTasks]
  split
  · rfl
  · rename_i hclosed
    -- With the gate closed there is no object to drain.
    have hnone : ¬ (request.shared ≠ none ∨ request.params ≠ []) :=
      fun hsome => hclosed (request.gated hsome)
    have hempty : request.drained = [] := by
      simp only [ne_eq, not_or, Decidable.not_not] at hnone
      simp [drained, hnone]
    rw [hempty, Queues.drainAll]

theorem finish_eq :
    request.finish =
      if request.converts then request.drainBackgroundTasks.runBackgroundObj request.background
      else request.drainBackgroundTasks := by
  unfold finish converts background
  rcases request.result with _ | ⟨response, background⟩
  · simp
  · cases request.teardownRaises
    · simp
    · simp

/-- The starts of an object: by the drain, and by the conversion if the response has it as
its `background`. -/
theorem starts_finish_object (id : Nat) :
    starts request.finish.log (.object id) =
      (if id ∈ request.drained then List.range (reach (request.heap id)) else []) ++
        if request.converts ∧ request.background = .object id then
          List.range (reach (request.drainBackgroundTasks.heap id))
        else [] := by
  have hdrain : starts request.drainBackgroundTasks.log (.object id) =
      if id ∈ request.drained then List.range (reach (request.heap id)) else [] := by
    rw [drainBackgroundTasks_eq, Queues.starts_drainAll]
    simp [starts]
  rw [finish_eq]
  cases hconverted : request.converts with
  | true => simp [Queues.starts_runBackgroundObj, hdrain]
  | false => simp [hdrain]

theorem starts_finish_attached :
    starts request.finish.log .attached =
      if request.converts then List.range (reach request.background.attached) else [] := by
  have hdrain : starts request.drainBackgroundTasks.log .attached = [] := by
    rw [drainBackgroundTasks_eq, Queues.starts_drainAll_attached]
    rfl
  rw [finish_eq]
  cases hconverted : request.converts with
  | true => simp [Queues.starts_runBackgroundObj_attached, hdrain]
  | false => simp [hdrain]

theorem heap_drainBackgroundTasks (id : Nat) :
    request.drainBackgroundTasks.heap id =
      if id ∈ request.drained ∧ ∀ task ∈ request.heap id, task.raises = false then []
      else request.heap id := by
  rw [drainBackgroundTasks_eq, Queues.heap_drainAll, Queues.rest]
  by_cases hdrained : id ∈ request.drained
  · simp only [hdrained, not_mem_nil, not_false_eq_true, and_true, true_and, if_true]
    by_cases hquiet : ∀ task ∈ request.heap id, task.raises = false
    · rw [if_pos hquiet, if_neg (by simpa using hquiet)]
    · rw [if_neg hquiet, if_pos (by simpa using hquiet)]
  · rw [if_neg (fun hboth => hdrained hboth.1), if_neg (fun hboth => hdrained hboth.1)]

/-- When the tasks of the request are started as they should be. -/
def Settled : Prop :=
  match request.background with
  | .absent => True
  | .object id =>
    if id ∈ request.drained then
      request.converts = true → ∀ task ∈ request.heap id, task.raises = false
    else request.heap id = [] ∨ request.converts = true
  | background => background.attached = [] ∨ request.converts = true

theorem proper_of_not_carried {id : Nat} (hdrained : id ∈ request.drained)
    (hother : ¬ (request.converts = true ∧ request.background = .object id)) :
    Proper (request.heap id) (starts request.finish.log (.object id)) := by
  rw [starts_finish_object, if_pos hdrained, if_neg hother, append_nil]
  exact proper_range (request.heap id)

theorem proper_carried_iff {id : Nat} (hcarried : request.background = .object id) :
    Proper (request.heap id) (starts request.finish.log (.object id)) ↔
      if id ∈ request.drained then
        request.converts = true → ∀ task ∈ request.heap id, task.raises = false
      else request.heap id = [] ∨ request.converts = true := by
  by_cases hdrained : id ∈ request.drained
  · rw [if_pos hdrained]
    by_cases hconverted : request.converts = true
    · rw [starts_finish_object, if_pos hdrained, if_pos ⟨hconverted, hcarried⟩,
        heap_drainBackgroundTasks]
      by_cases hquiet : ∀ task ∈ request.heap id, task.raises = false
      · rw [if_pos ⟨hdrained, hquiet⟩]
        refine iff_of_true ?_ (fun _ => hquiet)
        simpa [reach] using proper_range (request.heap id)
      · rw [if_neg (fun hboth => hquiet hboth.2)]
        have hnonempty : request.heap id ≠ [] := by
          intro hempty
          exact hquiet (by simp [hempty])
        exact iff_of_false (not_proper_twice hnonempty) (fun hall => hquiet (hall hconverted))
    · exact iff_of_true (request.proper_of_not_carried hdrained fun hboth => hconverted hboth.1)
        (fun hyes => absurd hyes hconverted)
  · rw [if_neg hdrained, starts_finish_object, if_neg hdrained, nil_append]
    by_cases hconverted : request.converts = true
    · rw [if_pos ⟨hconverted, hcarried⟩, heap_drainBackgroundTasks,
        if_neg (fun hboth => hdrained hboth.1)]
      exact iff_of_true (proper_range _) (Or.inr hconverted)
    · rw [if_neg (fun hboth => hconverted hboth.1), proper_nil_iff]
      simp [hconverted]

theorem proper_attached_iff :
    Proper request.background.attached (starts request.finish.log .attached) ↔
      request.background.attached = [] ∨ request.converts = true := by
  rw [starts_finish_attached]
  by_cases hconverted : request.converts = true
  · rw [if_pos hconverted]
    exact iff_of_true (proper_range _) (Or.inr hconverted)
  · rw [if_neg hconverted, proper_nil_iff]
    simp [hconverted]

theorem all_proper_iff (carried : Owner)
    (honly : ∀ id, .object id ≠ carried → request.background ≠ .object id) :
    (∀ owner ∈ request.drained.map .object ++ [carried],
        Proper (request.tasks owner) (starts request.finish.log owner)) ↔
      Proper (request.tasks carried) (starts request.finish.log carried) := by
  constructor
  · intro hall
    exact hall carried (by simp)
  · intro hproper owner hmember
    by_cases hsame : owner = carried
    · exact hsame ▸ hproper
    · obtain ⟨id, hdrained, rfl⟩ : ∃ id ∈ request.drained, .object id = owner := by
        simpa [hsame] using hmember
      exact request.proper_of_not_carried hdrained fun hboth => honly id hsame hboth.2

private theorem all_proper_attached_iff (hown : ∀ id, request.background ≠ .object id) :
    (∀ owner ∈ request.drained.map .object ++ [.attached],
        Proper (request.tasks owner) (starts request.finish.log owner)) ↔
      request.background.attached = [] ∨ request.converts = true :=
  (request.all_proper_iff .attached fun id _ => hown id).trans request.proper_attached_iff

/-- The tasks of a request are started at most once, in order, and unless an earlier one of
their object has raised, exactly when the response carries no tasks, or carries tasks that
the conversion runs and the drain has not left behind. -/
theorem tasks_started_once_iff :
    (∀ owner ∈ request.owners,
        Proper (request.tasks owner) (starts request.finish.log owner)) ↔ request.Settled := by
  unfold owners Settled
  cases hcarried : request.background with
  | absent =>
      refine iff_of_true (fun owner hmember => ?_) trivial
      obtain ⟨id, hdrained, rfl⟩ : ∃ id ∈ request.drained, .object id = owner := by
        simpa using hmember
      exact request.proper_of_not_carried hdrained (by simp [hcarried])
  | object id =>
      refine (request.all_proper_iff (.object id) ?_).trans (request.proper_carried_iff hcarried)
      intro other hdifferent
      simpa [hcarried, eq_comm] using hdifferent
  | starlette | task | callable =>
      have hall := request.all_proper_attached_iff (by simp [hcarried])
      rwa [hcarried] at hall

end Request

/-- A task that succeeds and one that raises, on the injected object, which the response
carries too. -/
def injectedAsBackground : Request where
  shared := some 0
  params := [0]
  hasInjectBackgroundTasks := true
  hasDepParams := false
  gated _ := rfl
  heap _ := [⟨false⟩, ⟨true⟩]
  teardownRaises := false
  result := some (⟨.json, 200, [], none, false, none⟩, .object 0)

def fileWithBackground : Request where
  shared := none
  params := []
  hasInjectBackgroundTasks := false
  hasDepParams := false
  gated := by simp
  heap _ := []
  teardownRaises := false
  result := some (⟨.file, 200, [], some "report.csv", false, none⟩, .task ⟨false⟩)

/-- Both tasks of the injected object are started twice, the first one although it succeeded,
and the task of the file is not started. -/
theorem task_started_twice_or_never :
    (.object 0 ∈ injectedAsBackground.owners ∧
      starts injectedAsBackground.finish.log (.object 0) = [0, 1, 0, 1] ∧
      ¬ Proper (injectedAsBackground.tasks (.object 0))
        (starts injectedAsBackground.finish.log (.object 0))) ∧
    .attached ∈ fileWithBackground.owners ∧
      fileWithBackground.tasks .attached = [⟨false⟩] ∧
      starts fileWithBackground.finish.log .attached = [] ∧
      ¬ Proper (fileWithBackground.tasks .attached)
        (starts fileWithBackground.finish.log .attached) := by
  refine ⟨⟨by decide, by decide, fun hproper => ?_⟩, by decide, by decide, by decide,
    fun hproper => ?_⟩
  · exact absurd (hproper.once 0) (by decide)
  · exact absurd ((proper_nil_iff _).mp hproper) (by decide)

end FastapiTurbo.BackgroundDrain
