import FastapiTurbo.Lib.Transition
import Mathlib.Logic.Function.Basic

/-! `_captured_server_exceptions`: the one list of an application on which the handling of
every in-process request leaves its exception (`responses.rs`, `streaming.rs`), and from
which `_asgi_oneshot_http` takes the exception that it raises. -/
namespace FastapiTurbo.CapturedExceptions

open Lib List

variable {ε : Type}

/-- An exception and the request whose handling captured it.  The list has only the
exception; the request is kept for the statements. -/
abbrev Captured (ε : Type) := Nat × ε

inductive Phase (ε : Type) where
  | waiting
  /-- Draining the request body from `receive`. -/
  | receiving
  /-- From the executor's run of the handler to the last `send`. -/
  | handling
  /-- The list was seen not to be empty; `pop(0)` is next. -/
  | draining
  /-- After `pop(0)`; `clear()` is next. -/
  | popped (captured : Captured ε)
  | returned
  /-- Left by an exception that was not captured. -/
  | failed
  | raised (captured : Captured ε)
  deriving DecidableEq

def Phase.finished : Phase ε → Bool
  | .returned | .failed | .raised _ => true
  | _ => false

structure Door (ε : Type) where
  captured : List (Captured ε)
  phase : Nat → Phase ε
  log : List (Captured ε)

inductive Action (ε : Type) where
  | call (request : Nat)
  /-- `http.disconnect` before the body is complete. -/
  | disconnect (request : Nat)
  | receive (request : Nat)
  /-- `_captured_server_exceptions.append`, on whatever thread. -/
  | capture (request : Nat) (exception : ε)
  /-- The first `send` raises, which leaves the call before the drain. -/
  | sendFails (request : Nat)
  /-- `if captured:` -/
  | check (request : Nat)
  | pop (request : Nat)
  | clear (request : Nat)

def Door.moveTo (door : Door ε) (request : Nat) (phase : Phase ε) : Door ε :=
  { door with phase := Function.update door.phase request phase }

namespace Door

variable (door : Door ε) (request other : Nat) (phase : Phase ε)

@[simp] theorem phase_moveTo :
    (door.moveTo request phase).phase other =
      if other = request then phase else door.phase other := by
  simp only [moveTo, Function.update_apply]

@[simp] theorem captured_moveTo : (door.moveTo request phase).captured = door.captured := rfl

@[simp] theorem log_moveTo : (door.moveTo request phase).log = door.log := rfl

end Door

def step : Action ε → Door ε → Option (Door ε)
  | .call request, door =>
    match door.phase request with
    | .waiting => some (door.moveTo request .receiving)
    | _ => none
  | .disconnect request, door =>
    match door.phase request with
    | .receiving => some (door.moveTo request .returned)
    | _ => none
  | .receive request, door =>
    match door.phase request with
    | .receiving => some (door.moveTo request .handling)
    | _ => none
  | .capture request exception, door =>
    match door.phase request with
    | .waiting | .receiving => none
    -- The stream and the teardown of a request may go on after its call has ended.
    | _ => some { door with
        captured := door.captured ++ [(request, exception)]
        log := door.log ++ [(request, exception)] }
  | .sendFails request, door =>
    match door.phase request with
    | .handling => some (door.moveTo request .failed)
    | _ => none
  | .check request, door =>
    match door.phase request with
    | .handling =>
      some (door.moveTo request (if door.captured.isEmpty then .returned else .draining))
    | _ => none
  | .pop request, door =>
    match door.phase request with
    | .draining =>
      match door.captured with
      | [] => some (door.moveTo request .failed)
      | first :: rest => some { door.moveTo request (.popped first) with captured := rest }
    | _ => none
  | .clear request, door =>
    match door.phase request with
    | .popped captured => some { door.moveTo request (.raised captured) with captured := [] }
    | _ => none

inductive Stepped (door : Door ε) : Action ε → Door ε → Prop
  | call {request} (hphase : door.phase request = .waiting) :
      Stepped door (.call request) (door.moveTo request .receiving)
  | disconnect {request} (hphase : door.phase request = .receiving) :
      Stepped door (.disconnect request) (door.moveTo request .returned)
  | receive {request} (hphase : door.phase request = .receiving) :
      Stepped door (.receive request) (door.moveTo request .handling)
  | capture (request exception) :
      Stepped door (.capture request exception)
        { door with
          captured := door.captured ++ [(request, exception)]
          log := door.log ++ [(request, exception)] }
  | sendFails {request} (hphase : door.phase request = .handling) :
      Stepped door (.sendFails request) (door.moveTo request .failed)
  | checkEmpty {request} (hphase : door.phase request = .handling) (hempty : door.captured = []) :
      Stepped door (.check request) (door.moveTo request .returned)
  | check {request} (hphase : door.phase request = .handling) (hcaptured : door.captured ≠ []) :
      Stepped door (.check request) (door.moveTo request .draining)
  | popEmpty {request} (hphase : door.phase request = .draining) (hempty : door.captured = []) :
      Stepped door (.pop request) (door.moveTo request .failed)
  | pop {request first rest} (hphase : door.phase request = .draining)
      (hcaptured : door.captured = first :: rest) :
      Stepped door (.pop request)
        { door.moveTo request (.popped first) with captured := rest }
  | clear {request captured} (hphase : door.phase request = .popped captured) :
      Stepped door (.clear request)
        { door.moveTo request (.raised captured) with captured := [] }

theorem stepped_of_step {action : Action ε} {door next : Door ε}
    (hs : step action door = some next) : Stepped door action next := by
  cases action with
  | check request =>
    simp only [step] at hs
    split at hs
    · next hp =>
      cases hc : door.captured with
      | nil =>
        simp only [hc, isEmpty_nil, if_true, Option.some.injEq] at hs
        exact hs ▸ .checkEmpty hp hc
      | cons first rest =>
        simp only [hc, isEmpty_cons, Bool.false_eq_true, if_false, Option.some.injEq] at hs
        exact hs ▸ .check hp (by simp [hc])
    · cases hs
  | pop request =>
    simp only [step] at hs
    split at hs
    · next hp =>
      cases hc : door.captured with
      | nil =>
        simp only [hc, Option.some.injEq] at hs
        exact hs ▸ .popEmpty hp hc
      | cons first rest =>
        simp only [hc, Option.some.injEq] at hs
        exact hs ▸ .pop hp hc
    · cases hs
  | _ =>
    simp only [step] at hs
    split at hs <;> cases hs
    constructor <;> assumption

def idle : Door ε where
  captured := []
  phase := fun _ => .waiting
  log := []

/-- An exception is captured while its request is being handled, while no other is on the
list and while no request is between its test of the list and its `clear`; a request comes
to the test with nobody else's exception on the list, and its `send` does not fail once its
exception is on it. -/
def Alone (door : Door ε) : Action ε → Prop
  | .capture request _ =>
    door.phase request = .handling ∧ door.captured = [] ∧
      ∀ other, door.phase other ≠ .draining ∧ ∀ captured, door.phase other ≠ .popped captured
  | .check request => ∀ captured ∈ door.captured, captured.1 = request
  | .sendFails request => ∀ captured ∈ door.captured, captured.1 ≠ request
  | _ => True

structure Delivers (door : Door ε) : Prop where
  /-- At most one is on the list, and its request will come for it. -/
  listed : door.captured = [] ∨ ∃ captured, door.captured = [captured] ∧
    captured ∈ door.log ∧
    (door.phase captured.1 = .handling ∨ door.phase captured.1 = .draining)
  draining : ∀ request, door.phase request = .draining →
    ∃ exception, door.captured = [(request, exception)]
  popped : ∀ request captured, door.phase request = .popped captured →
    captured.1 = request ∧ captured ∈ door.log ∧ door.captured = []
  raised : ∀ request captured, door.phase request = .raised captured →
    captured.1 = request ∧ captured ∈ door.log
  logged : ∀ captured ∈ door.log, captured ∈ door.captured ∨
    door.phase captured.1 = .popped captured ∨ door.phase captured.1 = .raised captured

theorem delivers_idle : Delivers (idle : Door ε) := by
  constructor <;> simp [idle]

def Phase.quiet : Phase ε → Bool
  | .draining | .popped _ | .raised _ => false
  | _ => true

namespace Delivers

variable {door : Door ε} {request : Nat}

variable (hdelivers : Delivers door)
include hdelivers

theorem phase_of_mem {captured : Captured ε} (hmem : captured ∈ door.captured) :
    door.captured = [captured] ∧
      (door.phase captured.1 = .handling ∨ door.phase captured.1 = .draining) := by
  rcases hdelivers.listed with he | ⟨first, hl, -, hp⟩
  · simp [he] at hmem
  · obtain rfl : captured = first := by simpa [hl] using hmem
    exact ⟨hl, hp⟩

theorem not_mem_of_phase (hh : door.phase request ≠ .handling)
    (hd : door.phase request ≠ .draining) :
    ∀ captured ∈ door.captured, captured.1 ≠ request := by
  rintro captured hmem rfl
  rcases (hdelivers.phase_of_mem hmem).2 with hp | hp
  · exact hh hp
  · exact hd hp

theorem moveTo {phase : Phase ε} (hb : (door.phase request).quiet = true) (ha : phase.quiet = true)
    (hf : ∀ captured ∈ door.captured, captured.1 ≠ request) :
    Delivers (door.moveTo request phase) := by
  obtain ⟨hl, hd, hp, hr, hlogged⟩ := hdelivers
  constructor <;> simp only [Door.phase_moveTo, Door.captured_moveTo, Door.log_moveTo]
  -- Every clause is about requests that are not in a quiet phase, so about others.
  all_goals grind [Phase.quiet]

theorem capture {exception : ε} (ha : Alone door (.capture request exception)) :
    Delivers { door with
      captured := door.captured ++ [(request, exception)]
      log := door.log ++ [(request, exception)] } := by
  obtain ⟨hh, he, hn⟩ := ha
  refine ⟨.inr ⟨(request, exception), by simp [he], by simp, .inl hh⟩, ?_, ?_, ?_, ?_⟩
  · intro other ho
    exact absurd ho (hn other).1
  · intro other cap ho
    exact absurd ho ((hn other).2 cap)
  · intro other cap ho
    obtain ⟨hown, hlog⟩ := hdelivers.raised other cap ho
    exact ⟨hown, mem_append_left _ hlog⟩
  · intro cap hc
    rcases mem_append.1 hc with hlog | hnew
    · rcases hdelivers.logged cap hlog with hl | hheld
      · exact .inl (mem_append_left _ hl)
      · exact .inr hheld
    · exact .inl (mem_append_right _ hnew)

theorem check_own {exception : ε} (hl : door.captured = [(request, exception)]) :
    Delivers (door.moveTo request .draining) := by
  obtain ⟨hlisted, hd, hp, hr, hlogged⟩ := hdelivers
  constructor <;> simp only [Door.phase_moveTo, Door.captured_moveTo, Door.log_moveTo]
  all_goals grind

theorem pop {exception : ε} (hl : door.captured = [(request, exception)]) :
    Delivers { door.moveTo request (.popped (request, exception)) with captured := [] } := by
  obtain ⟨hlisted, hd, hp, hr, hlogged⟩ := hdelivers
  constructor <;> simp only [Door.phase_moveTo, Door.log_moveTo]
  all_goals grind

theorem clear {cap : Captured ε} (hp : door.phase request = .popped cap) :
    Delivers { door.moveTo request (.raised cap) with captured := [] } := by
  obtain ⟨hl, hd, hh, hr, hlogged⟩ := hdelivers
  constructor <;> simp only [Door.phase_moveTo, Door.log_moveTo]
  all_goals grind

theorem raised_iff (hf : (door.phase request).finished = true) (captured : Captured ε) :
    door.phase request = .raised captured ↔ captured ∈ door.log ∧ captured.1 = request := by
  constructor
  · intro hr
    obtain ⟨hown, hlog⟩ := hdelivers.raised request captured hr
    exact ⟨hlog, hown⟩
  · rintro ⟨hlog, rfl⟩
    rcases hdelivers.logged captured hlog with hl | hpopped | hr
    · rcases (hdelivers.phase_of_mem hl).2 with hp | hp <;>
        simp [hp, Phase.finished] at hf
    · simp [hpopped, Phase.finished] at hf
    · exact hr

end Delivers

private theorem delivers_step (action : Action ε) (door next : Door ε) (ha : Alone door action)
    (hs : step action door = some next) (hd : Delivers door) : Delivers next := by
  cases stepped_of_step hs with
  | call hp | disconnect hp | receive hp =>
    exact hd.moveTo (by simp [hp, Phase.quiet]) rfl
      (hd.not_mem_of_phase (by simp [hp]) (by simp [hp]))
  | capture request exception => exact hd.capture ha
  | sendFails hp => exact hd.moveTo (by simp [hp, Phase.quiet]) rfl ha
  | checkEmpty hp he =>
    exact hd.moveTo (by simp [hp, Phase.quiet]) rfl (by simp [he])
  | @check request hp hc =>
    obtain ⟨captured, rest, hl⟩ := exists_cons_of_ne_nil hc
    have hmem : captured ∈ door.captured := by simp [hl]
    obtain rfl : captured.1 = request := ha captured hmem
    exact hd.check_own (hd.phase_of_mem hmem).1
  | popEmpty hp he =>
    obtain ⟨exception, hl⟩ := hd.draining _ hp
    simp [he] at hl
  | pop hp hc =>
    obtain ⟨exception, hl⟩ := hd.draining _ hp
    obtain ⟨rfl, rfl⟩ := List.cons.inj (hc.symm.trans hl)
    exact hd.pop hl
  | clear hp => exact hd.clear hp

/-- In every run in which exceptions are captured alone, a request that has ended raised a
captured exception just if its own handling captured it: none goes to another request and
none is lost. -/
theorem captured_alone_delivered {actions : List (Action ε)} {door : Door ε}
    (hrun : runActions step actions idle = some door) (halone : Meets step Alone actions idle)
    {request : Nat} (hfinished : (door.phase request).finished = true) (captured : Captured ε) :
    door.phase request = .raised captured ↔ captured ∈ door.log ∧ captured.1 = request :=
  (halone.keeps hrun delivers_step delivers_idle).raised_iff hfinished captured

def handledApart : List (Action String) :=
  [.call 0, .call 1, .receive 0, .receive 1, .check 1, .capture 0 "ValueError", .check 0, .pop 0,
    .clear 0]

theorem handled_apart_delivered :
    ∃ door : Door String, runActions step handledApart idle = some door ∧
      (door.phase 0 = .raised (0, "ValueError") ↔ (0, "ValueError") ∈ door.log ∧ 0 = 0) := by
  have ha : Meets step Alone handledApart (idle : Door String) := by
    simp only [handledApart, idle, Meets, Alone, step, Option.some.injEq, forall_eq',
      Door.phase_moveTo,
      Door.captured_moveTo, Door.log_moveTo, isEmpty_nil, Nat.zero_ne_one, Nat.one_ne_zero,
      if_true, if_false, true_and]
    grind
  exact ⟨_, rfl, @captured_alone_delivered String handledApart _ rfl ha 0 rfl (0, "ValueError")⟩

/-- Request 1 comes to the drain while the exception of request 0 is on the list, and
raises it; request 0 returns. -/
theorem exception_raised_by_other_request :
    (runActions step [.call 0, .call 1, .receive 0, .receive 1, .capture 0 "ValueError",
        .check 1, .pop 1, .clear 1, .check 0] idle).map
        (fun door => (door.phase 0, door.phase 1, door.log)) =
      some (.returned, .raised (0, "ValueError"), [(0, "ValueError")]) := by
  decide

-- Both requests capture an exception; the drain of the first one clears the other's.
example :
    (runActions step [.call 0, .call 1, .receive 0, .receive 1, .capture 0 "ValueError",
        .capture 1 "KeyError", .check 0, .pop 0, .clear 0, .check 1] idle).map
        (fun door => (door.phase 0, door.phase 1)) =
      some (.raised (0, "ValueError"), .returned) := by
  decide

end FastapiTurbo.CapturedExceptions
