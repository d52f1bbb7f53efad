/-! How long `_drive_stream` keeps the event loop to itself (`responses.py`). -/
namespace FastapiTurbo.StreamFairness

inductive Event (ν ε : Type) where
  /-- It yields `None`. -/
  | checkpoint
  /-- It yields an awaitable. -/
  | await
  | chunk (value : ν)
  | exhausted
  | raised (error : ε)

inductive Sent (ε : Type) where
  | send
  | throw (error : ε)

inductive Push where
  | sent
  | dropped
  | full (accepted : Bool)

inductive Outcome (ε : Type) where
  | exhausted
  | raised (error : ε)
  | disconnected

/-- A generator with the memory that it shares with other tasks, the client, and the event
loop: how it answers each awaitable, and what the other tasks do while it has control. -/
structure Setting (σ μ ν ε : Type) where
  resume : σ → Sent ε → μ → Event ν ε × σ × μ
  push : Nat → ν → Push
  answer : Nat → Sent ε
  others : μ → μ

structure Driver (σ ε : Type) where
  gen : σ
  sent : Sent ε
  n : Nat := 0
  awaits : Nat := 0

/-- Where a driver is after a resumption, with the chunk that it has pushed. -/
inductive Progress (σ ν ε : Type) where
  | inline (driver : Driver σ ε) (chunk : Option ν)
  | control (driver : Driver σ ε) (chunk : Option ν)
  | over (chunk : Option ν) (outcome : Outcome ε)

variable {σ μ ν ε : Type} (setting : Setting σ μ ν ε)

/-- A resumption in `_step_anext` and what `_drive_stream(fair=True)` does after it. -/
def advance (driver : Driver σ ε) (memory : μ) : Progress σ ν ε × μ :=
  match setting.resume driver.gen driver.sent memory with
  | (.checkpoint, gen, memory) => (.inline { driver with gen, sent := .send } none, memory)
  | (.await, gen, memory) =>
    (.control { driver with gen, sent := setting.answer driver.awaits, awaits := driver.awaits + 1 }
      none, memory)
  | (.chunk value, gen, memory) =>
    let next := { driver with gen, sent := .send, n := driver.n + 1 }
    match setting.push driver.n value with
    | .sent =>
      if (driver.n + 1) % 64 = 0 then (.control next (some value), memory)
      else (.inline next (some value), memory)
    | .full true => (.control next (some value), memory)
    | _ => (.over (some value) .disconnected, memory)
  | (.exhausted, _, memory) => (.over none .exhausted, memory)
  | (.raised error, _, memory) => (.over none (.raised error), memory)

/-- The driver returns control to the loop, or ends, within so many resumptions. -/
def returnsWithin : Nat → Driver σ ε → μ → Bool
  | 0, _, _ => false
  | count + 1, driver, memory =>
    match advance setting driver memory with
    | (.inline next _, memory) => returnsWithin count next memory
    | _ => true

def emit (chunk : Option ν) (rest : List ν × Option (Outcome ε)) : List ν × Option (Outcome ε) :=
  (chunk.toList ++ rest.1, rest.2)

/-- The chunks and the outcome of the driver in so many resumptions. -/
def driveStream : Nat → Driver σ ε → μ → List ν × Option (Outcome ε)
  | 0, _, _ => ([], none)
  | count + 1, driver, memory =>
    match advance setting driver memory with
    | (.inline next chunk, memory) => emit chunk (driveStream count next memory)
    | (.control next chunk, memory) =>
      emit chunk (driveStream count next (setting.others memory))
    | (.over chunk outcome, _) => (chunk.toList, some outcome)

/-- The same with `async for`, where the loop has control at every checkpoint. -/
def asyncFor : Nat → Driver σ ε → μ → List ν × Option (Outcome ε)
  | 0, _, _ => ([], none)
  | count + 1, driver, memory =>
    match setting.resume driver.gen driver.sent memory with
    | (.checkpoint, gen, memory) =>
      asyncFor count { driver with gen, sent := .send } (setting.others memory)
    | (.await, gen, memory) =>
      asyncFor count { driver with
        gen, sent := setting.answer driver.awaits, awaits := driver.awaits + 1 }
        (setting.others memory)
    | (.chunk value, gen, memory) =>
      match setting.push driver.n value with
      | .sent | .full true =>
        emit (some value) (asyncFor count { driver with gen, sent := .send, n := driver.n + 1 }
          memory)
      | _ => ([value], some .disconnected)
    | (.exhausted, _, _) => ([], some .exhausted)
    | (.raised error, _, _) => ([], some (.raised error))

/-- So many resumptions in a row come to a bare checkpoint. -/
def spins : Nat → σ → Sent ε → μ → Bool
  | 0, _, _, _ => true
  | count + 1, gen, sent, memory =>
    match setting.resume gen sent memory with
    | (.checkpoint, gen, memory) => spins count gen .send memory
    | _ => false

/-- What the generator does does not depend on other tasks. -/
def Setting.Independent : Prop :=
  ∀ gen sent memory other,
    (setting.resume gen sent memory).1 = (setting.resume gen sent other).1 ∧
      (setting.resume gen sent memory).2.1 = (setting.resume gen sent other).2.1

variable {setting} {bound : Nat}

theorem returnsWithin_of_spins (n : Nat) (driver : Driver σ ε) (memory : μ)
    (hs : spins setting n driver.gen driver.sent memory = true) :
    returnsWithin setting n driver memory = false := by
  induction n generalizing driver memory with
  | zero => rfl
  | succ n ih =>
    rw [spins] at hs
    split at hs
    · rename_i gen mid hr
      simp only [returnsWithin, advance, hr]
      exact ih { driver with gen, sent := .send } mid hs
    · cases hs

private theorem returnsWithin_add {n : Nat} {driver : Driver σ ε} {memory : μ}
    (hr : returnsWithin setting n driver memory = true) (more : Nat) :
    returnsWithin setting (more + n) driver memory = true := by
  induction n generalizing driver memory with
  | zero => cases hr
  | succ n ih =>
    rw [returnsWithin] at hr
    rw [Nat.add_succ, returnsWithin]
    split
    · rename_i next chunk mid ha
      rw [ha] at hr
      exact ih hr
    · rfl

/-- Before the generator has spun for `count` resumptions, the driver is past a chunk. -/
theorem returnsWithin_of_not_spins {more : Nat} (count : Nat) (driver : Driver σ ε) (memory : μ)
    (hs : spins setting count driver.gen driver.sent memory = false)
    (hc : (driver.n + 1) % 64 ≠ 0 → ∀ (next : Driver σ ε) mid, next.n = driver.n + 1 →
      returnsWithin setting more next mid = true) :
    returnsWithin setting (count + more) driver memory = true := by
  induction count generalizing driver memory with
  | zero => cases hs
  | succ count ih =>
    rcases hr : setting.resume driver.gen driver.sent memory with ⟨ev, gen, mid⟩
    rw [Nat.succ_add, returnsWithin, advance, hr]
    cases ev with
    | checkpoint =>
      rw [spins, hr] at hs
      exact ih { driver with gen, sent := .send } mid hs hc
    | chunk value =>
      cases hp : setting.push driver.n value with
      | sent =>
        by_cases hy : (driver.n + 1) % 64 = 0
        · simp [hp, hy]
        · simp only [hp, if_neg hy]
          exact returnsWithin_add (hc hy _ mid rfl) count
      | dropped => simp [hp]
      | full accepted => cases accepted <;> simp [hp]
    | _ => rfl

theorem returnsWithin_of_bounded
    (hb : ∀ gen sent memory, spins setting bound gen sent memory = false)
    (left : Nat) (driver : Driver σ ε) (memory : μ) (hl : 64 - driver.n % 64 ≤ left) :
    returnsWithin setting (bound * left) driver memory = true := by
  induction left generalizing driver memory with
  | zero => omega
  | succ left ih =>
    rw [Nat.mul_succ, Nat.add_comm]
    refine returnsWithin_of_not_spins bound driver memory (hb _ _ _) ?_
    intro hy next mid hn
    exact ih next mid (by omega)

private theorem driveStream_eq_asyncFor (hindependent : setting.Independent) (count : Nat)
    (driver : Driver σ ε)
    (memory other : μ) :
    driveStream setting count driver memory = asyncFor setting count driver other := by
  induction count generalizing driver memory other with
  | zero => rfl
  | succ count ih =>
    have hs := hindependent driver.gen driver.sent memory other
    rcases hr : setting.resume driver.gen driver.sent memory with ⟨ev, gen, mid⟩
    rcases ho : setting.resume driver.gen driver.sent other with ⟨ev', gen', mid'⟩
    rw [hr, ho] at hs
    obtain ⟨rfl, rfl⟩ := hs
    rw [driveStream, advance, asyncFor, hr, ho]
    cases ev with
    | checkpoint | await => exact congrArg (emit none) (ih _ _ _)
    | chunk value =>
      cases hp : setting.push driver.n value with
      | sent =>
        by_cases hy : (driver.n + 1) % 64 = 0
        · simp only [hp, if_pos hy]
          exact congrArg (emit (some value)) (ih _ _ _)
        · simp only [hp, if_neg hy]
          exact congrArg (emit (some value)) (ih _ _ _)
      | dropped => simp [hp]
      | full accepted =>
        cases accepted with
        | false => simp [hp]
        | true =>
          simp only [hp]
          exact congrArg (emit (some value)) (ih _ _ _)
    | exhausted => rfl
    | raised error => rfl

/-- One constant bounds the resumptions before control is returned, for all generators that
are admitted, exactly if one constant bounds their runs of bare checkpoints; 64 times the
latter is then enough.  A generator that does not depend on other tasks gives the chunks and
the outcome of `async for`. -/
theorem control_returned_iff (admitted : Setting σ μ ν ε → Prop) :
    ((∃ bound, ∀ setting, admitted setting → ∀ driver memory,
        returnsWithin setting bound driver memory = true) ↔
      ∃ bound, ∀ setting, admitted setting → ∀ gen sent memory,
        spins setting bound gen sent memory = false) ∧
    (∀ bound, (∀ setting, admitted setting → ∀ gen sent memory,
        spins setting bound gen sent memory = false) →
      ∀ setting, admitted setting → ∀ driver memory,
        returnsWithin setting (bound * 64) driver memory = true) ∧
    ∀ setting : Setting σ μ ν ε, setting.Independent → ∀ count driver memory,
      driveStream setting count driver memory = asyncFor setting count driver memory := by
  have hreturns : ∀ bound, (∀ setting, admitted setting → ∀ gen sent memory,
      spins setting bound gen sent memory = false) → ∀ setting, admitted setting →
        ∀ driver memory, returnsWithin setting (bound * 64) driver memory = true :=
    fun bound hbound setting hadmitted driver memory =>
      returnsWithin_of_bounded (hbound setting hadmitted) 64 driver memory (Nat.sub_le _ _)
  refine ⟨⟨?_, ?_⟩, hreturns, fun setting hindependent count driver memory =>
    driveStream_eq_asyncFor hindependent count driver memory memory⟩
  · rintro ⟨bound, hwithin⟩
    refine ⟨bound, fun setting hadmitted gen sent memory => ?_⟩
    rw [← Bool.not_eq_true]
    intro hspins
    have hlate := returnsWithin_of_spins bound ⟨gen, sent, 0, 0⟩ memory hspins
    rw [hwithin setting hadmitted] at hlate
    cases hlate
  · rintro ⟨bound, hbound⟩
    exact ⟨bound * 64, hreturns bound hbound⟩

def waitingForFlag : Setting Unit Bool Nat String where
  resume _ _ flag := (if flag then .exhausted else .checkpoint, (), flag)
  push _ _ := .sent
  answer _ := .send
  others _ := true

/-- The other task never gets to run, though `async for` would end at once. -/
theorem flag_never_set :
    (∀ bound, returnsWithin waitingForFlag bound ⟨(), .send, 0, 0⟩ false = false) ∧
      asyncFor waitingForFlag 2 ⟨(), .send, 0, 0⟩ false = ([], some .exhausted) := by
  refine ⟨fun bound => returnsWithin_of_spins bound _ _ ?_, rfl⟩
  induction bound with
  | zero => rfl
  | succ bound ih => exact ih

end FastapiTurbo.StreamFairness
