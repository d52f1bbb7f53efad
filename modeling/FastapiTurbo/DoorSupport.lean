import FastapiTurbo.HandlerBridge

/-! The sync wrapper that the door puts around an `async def` endpoint
(`_door_support.py`), with the syntactic scan that chooses its driver and the
runs of the scanned code. -/
namespace FastapiTurbo.DoorSupport

open Lib Py HandlerBridge

/-- The iterating forms: `for`, `async for`, and a list, set or dict
comprehension without or with an `async` generator clause. -/
inductive Iteration where
  | forLoop
  | asyncFor
  | comprehension
  | asyncComprehension
  deriving DecidableEq

def Iteration.awaits : Iteration → Bool
  | .forLoop | .comprehension => false
  | .asyncFor | .asyncComprehension => true

/-- The forms whose body is a code object of its own.  A nested `def`, `async
def` or `lambda` evaluates its decorators and defaults where it stands, a
generator expression its outermost iterable. -/
inductive Deferred where
  | nestedDef
  | generatorExp
  deriving DecidableEq

/-- Python syntax as far as suspension goes.  `seq` and `skip` lay out the child
lists of an `ast` node; `call` is any other expression or simple statement, with
the identifiers it names. -/
inductive Code where
  | skip
  | seq (first second : Code)
  | call (names : List String) (operands : Code)
  | await (operand : Code)
  | iterate (kind : Iteration) (iterable body : Code)
  | asyncWith (items body : Code)
  | deferred (kind : Deferred) (header body : Code)
  | branch (test thenBody elseBody : Code)
  | ret (value : Code)
  | raise (operand : Code)
  deriving DecidableEq

namespace Code

def nodes : Code → List Code
  | .skip => []
  | .seq first second => first.nodes ++ second.nodes
  | node => [node]

def iterChildNodes : Code → List Code
  | .skip => []
  | .seq first second => first.nodes ++ second.nodes
  | .call _ operands => operands.nodes
  | .await operand => operand.nodes
  | .iterate _ iterable body => iterable.nodes ++ body.nodes
  | .asyncWith items body => items.nodes ++ body.nodes
  | .deferred _ header body => header.nodes ++ body.nodes
  | .branch test thenBody elseBody => test.nodes ++ thenBody.nodes ++ elseBody.nodes
  | .ret value => value.nodes
  | .raise operand => operand.nodes

def size : Code → Nat
  | .skip => 1
  | .seq first second => first.size + second.size + 1
  | .call _ operands => operands.size + 1
  | .await operand => operand.size + 1
  | .iterate _ iterable body => iterable.size + body.size + 1
  | .asyncWith items body => items.size + body.size + 1
  | .deferred _ header body => header.size + body.size + 1
  | .branch test thenBody elseBody => test.size + thenBody.size + elseBody.size + 1
  | .ret value => value.size + 1
  | .raise operand => operand.size + 1

/-- The identifiers that `ast.walk` meets in `Name` and `Attribute` nodes. -/
def names : Code → List String
  | .skip => []
  | .seq first second => first.names ++ second.names
  | .call named operands => named ++ operands.names
  | .await operand => operand.names
  | .iterate _ iterable body => iterable.names ++ body.names
  | .asyncWith items body => items.names ++ body.names
  | .deferred _ header body => header.names ++ body.names
  | .branch test thenBody elseBody => test.names ++ thenBody.names ++ elseBody.names
  | .ret value => value.names
  | .raise operand => operand.names

/-- `isinstance(node, (ast.Await, ast.AsyncFor, ast.AsyncWith))`.  The async
clause of a comprehension is an `ast.comprehension` with `is_async` set, which is
none of the three. -/
def isAwaitNode : Code → Bool
  | .await _ => true
  | .iterate .asyncFor _ _ => true
  | .asyncWith _ _ => true
  | _ => false

def isNestedDef : Code → Bool
  | .deferred .nestedDef _ _ => true
  | _ => false

end Code

/-- The loop of `_has_await_in_source`, with the top of the stack first.  Every
round pops one node, so the number of nodes is fuel enough. -/
def scanStack : Nat → List Code → Bool
  | _, [] => false
  | 0, _ :: _ => false
  | fuel + 1, node :: stack =>
    if node.isAwaitNode then true
    else if node.isNestedDef then scanStack fuel stack
    else scanStack fuel (node.iterChildNodes.reverse ++ stack)

def Code.showsAwait : Code → Bool
  | .skip => false
  | .seq first second => first.showsAwait || second.showsAwait
  | .call _ operands => operands.showsAwait
  | .await _ => true
  | .iterate kind iterable body =>
    decide (kind = .asyncFor) || iterable.showsAwait || body.showsAwait
  | .asyncWith _ _ => true
  | .deferred .nestedDef _ _ => false
  | .deferred .generatorExp header body => header.showsAwait || body.showsAwait
  | .branch test thenBody elseBody =>
    test.showsAwait || thenBody.showsAwait || elseBody.showsAwait
  | .ret value => value.showsAwait
  | .raise operand => operand.showsAwait

def stackSize : List Code → Nat
  | [] => 0
  | node :: rest => node.size + stackSize rest

theorem stackSize_append (upper lower : List Code) :
    stackSize (upper ++ lower) = stackSize upper + stackSize lower := by
  induction upper with
  | nil => simp [stackSize]
  | cons node rest ih => simp [stackSize, ih, Nat.add_assoc]

theorem stackSize_reverse (stack : List Code) : stackSize stack.reverse = stackSize stack := by
  induction stack with
  | nil => rfl
  | cons node rest ih =>
    rw [List.reverse_cons, stackSize_append]
    simp only [stackSize]
    omega

theorem stackSize_nodes_le (code : Code) : stackSize code.nodes ≤ code.size := by
  induction code with
  | seq first second ihFirst ihSecond =>
    simp only [Code.nodes, stackSize_append, Code.size]
    omega
  | _ => simp [stackSize, Code.nodes, Code.size]

theorem stackSize_iterChildNodes_lt (node : Code) : stackSize node.iterChildNodes < node.size := by
  cases node with
  | skip => simp [stackSize, Code.iterChildNodes, Code.size]
  | call named operands | await operands | ret operands | raise operands =>
    simpa [Code.iterChildNodes, Code.size, Nat.lt_succ_iff] using stackSize_nodes_le operands
  | seq first second | iterate kind first second | asyncWith first second
  | deferred kind first second =>
    have hfirst := stackSize_nodes_le first
    have hsuspends := stackSize_nodes_le second
    simp only [Code.iterChildNodes, stackSize_append, Code.size]
    omega
  | branch test thenBody elseBody =>
    have htest := stackSize_nodes_le test
    have hthen := stackSize_nodes_le thenBody
    have helse := stackSize_nodes_le elseBody
    simp only [Code.iterChildNodes, stackSize_append, Code.size]
    omega

theorem any_showsAwait_nodes (code : Code) : code.nodes.any Code.showsAwait = code.showsAwait := by
  induction code with
  | seq first second ihFirst ihSecond =>
    simp [Code.nodes, ihFirst, ihSecond, Code.showsAwait]
  | _ => simp [Code.nodes, Code.showsAwait]

theorem any_showsAwait_iterChildNodes (node : Code) (hawait : node.isAwaitNode = false)
    (hnested : node.isNestedDef = false) :
    node.iterChildNodes.any Code.showsAwait = node.showsAwait := by
  cases node with
  | iterate kind iterable body =>
    cases kind <;>
      simp_all [Code.iterChildNodes, Code.isAwaitNode, Code.showsAwait, any_showsAwait_nodes]
  | deferred kind header body =>
    cases kind <;>
      simp_all [Code.iterChildNodes, Code.isNestedDef, Code.showsAwait, any_showsAwait_nodes]
  | _ =>
    simp_all [Code.iterChildNodes, Code.isAwaitNode, Code.showsAwait, any_showsAwait_nodes,
      Bool.or_assoc]

theorem showsAwait_of_isAwaitNode {node : Code} (hawait : node.isAwaitNode = true) :
    node.showsAwait = true := by
  cases node with
  | iterate kind iterable body => cases kind <;> simp_all [Code.isAwaitNode, Code.showsAwait]
  | _ => simp_all [Code.isAwaitNode, Code.showsAwait]

private theorem showsAwait_of_isNestedDef {node : Code} (hnested : node.isNestedDef = true) :
    node.showsAwait = false := by
  cases node with
  | deferred kind header body => cases kind <;> simp_all [Code.isNestedDef, Code.showsAwait]
  | _ => simp [Code.isNestedDef] at hnested

theorem scanStack_eq_any (fuel : Nat) (stack : List Code) (hfirst : stackSize stack ≤ fuel) :
    scanStack fuel stack = stack.any Code.showsAwait := by
  induction fuel generalizing stack with
  | zero =>
    cases stack with
    | nil => rfl
    | cons node rest =>
      have hchildren := stackSize_iterChildNodes_lt node
      simp only [stackSize] at hfirst
      omega
  | succ fuel ih =>
    cases stack with
    | nil => rfl
    | cons node rest =>
      have hchildren := stackSize_iterChildNodes_lt node
      have hcompletes : node.size + stackSize rest ≤ fuel + 1 := hfirst
      rw [scanStack]
      cases hawait : node.isAwaitNode with
      | true => simp [showsAwait_of_isAwaitNode hawait]
      | false =>
        cases hnested : node.isNestedDef with
        | true => simpa [showsAwait_of_isNestedDef hnested] using ih rest (by omega)
        | false =>
          have hsuspends : stackSize (node.iterChildNodes.reverse ++ rest) ≤ fuel := by
            rw [stackSize_append, stackSize_reverse]
            omega
          simp [ih _ hsuspends, any_showsAwait_iterChildNodes node hawait hnested]

/-- What a node does when it runs: effects, suspensions, calls that need a
running loop, in order.  A suspension comes with the effects of the cleanup that runs
if the coroutine is closed there. -/
inductive Action (ε : Type) where
  | effect (effect : ε)
  | suspend (cleanup : List ε)
  | needLoop
  deriving DecidableEq

/-- How a statement list ends: it falls through, or a `return` leaves the
function with a value, `none` for `None`. -/
inductive Flow (ν : Type) where
  | next
  | exit (value : Option ν)
  deriving DecidableEq

/-- The behaviour of one execution of one node, which the syntax leaves open:
its actions, the error it raises after them, the rounds of an iteration, the
branch taken, the value of a `return`, the error of a `raise`. -/
structure Answer (ε ν : Type) where
  actions : List (Action ε)
  error : Option PyErr
  rounds : Nat
  taken : Bool
  value : Option ν
  thrown : PyErr

/-- Answers for a piece of syntax, addressed by the path to a node in it and, in
a loop, the number of the round. -/
abbrev World (ε ν : Type) := List Nat → Answer ε ν

def World.sub {ε ν : Type} (world : World ε ν) (index : Nat) : World ε ν :=
  fun path => world (index :: path)

def playActions {ε ν : Type} (awaits : Bool) (error : Option PyErr) :
    List (Action ε) → Coroutine ε (Flow ν) PyErr
  | [] =>
    match error with
    | none => .done (.returned .next)
    | some error => .done (.raised error)
  | .effect effect :: rest => .emit effect (playActions awaits error rest)
  | .suspend cleanup :: rest =>
    if awaits then .suspend cleanup (playActions awaits error rest)
    else playActions awaits error rest
  | .needLoop :: rest => .needLoop (playActions awaits error rest)

def Answer.play {ε ν : Type} (answer : Answer ε ν) (awaits : Bool) :
    Coroutine ε (Flow ν) PyErr :=
  playActions awaits answer.error answer.actions

/-- Sequential composition: what falls through is followed by `second`. -/
def andThen {ε ν : Type} (first second : Coroutine ε (Flow ν) PyErr) :
    Coroutine ε (Flow ν) PyErr :=
  first.follow fun outcome =>
    match outcome with
    | .returned .next => second
    | other => .done other

/-- The exit of an `async with` block runs however the body ended, and may
suppress the error it raised. -/
def guarded {ε ν : Type} (body exit : Coroutine ε (Flow ν) PyErr) (suppress : Bool) :
    Coroutine ε (Flow ν) PyErr :=
  body.follow fun outcome =>
    andThen exit
      (match outcome with
        | .raised error => .done (if suppress then .returned .next else .raised error)
        | other => .done other)

/-- The rounds of an iteration, each a `step`, and the advance that ends it. -/
def inRounds {ε ν : Type} (step : Nat → Coroutine ε (Flow ν) PyErr)
    (finish : Coroutine ε (Flow ν) PyErr) (rounds : Nat) : Coroutine ε (Flow ν) PyErr :=
  (List.range rounds).foldr (fun round rest => andThen (step round) rest) finish

/-- A run of the code in a world.  The body of a nested definition or generator
expression is not run here. -/
def Code.exec {ε ν : Type} : Code → World ε ν → Coroutine ε (Flow ν) PyErr
  | .skip, _ => .done (.returned .next)
  | .seq first second, world => andThen (first.exec (world.sub 0)) (second.exec (world.sub 1))
  | .call _ operands, world =>
    andThen (operands.exec (world.sub 0)) ((world []).play false)
  | .await operand, world =>
    andThen (operand.exec (world.sub 0)) ((world []).play true)
  | .iterate kind iterable body, world =>
    andThen (iterable.exec (world.sub 0))
      (inRounds
        (fun round =>
          andThen ((world [round + 1, 0]).play kind.awaits)
            (body.exec ((world.sub (round + 1)).sub 1)))
        ((world []).play kind.awaits) (world []).rounds)
  | .asyncWith items body, world =>
    andThen (items.exec (world.sub 0))
      (andThen ((world []).play true)
        (guarded (body.exec (world.sub 1)) ((world [2]).play true) (world [2]).taken))
  | .deferred _ header _, world => header.exec (world.sub 0)
  | .branch test thenBody elseBody, world =>
    andThen (test.exec (world.sub 0))
      (if (world []).taken then thenBody.exec (world.sub 1) else elseBody.exec (world.sub 2))
  | .ret value, world =>
    andThen (value.exec (world.sub 0)) (.done (.returned (.exit (world []).value)))
  | .raise operand, world =>
    andThen (operand.exec (world.sub 0)) (.done (.raised (world []).thrown))

def Code.canComplete : Code → Bool
  | .skip => true
  | .seq first second => first.canComplete && second.canComplete
  | .call _ operands => operands.canComplete
  | .await operand => operand.canComplete
  | .iterate _ iterable _ => iterable.canComplete
  | .asyncWith items body => items.canComplete && body.canComplete
  | .deferred _ header _ => header.canComplete
  | .branch test thenBody elseBody =>
    test.canComplete && (thenBody.canComplete || elseBody.canComplete)
  | .ret _ => false
  | .raise _ => false

/-- Whether some run of the code meets a suspension: an `await`, an `async for`,
an `async with` or an async comprehension that the code object itself reaches. -/
def Code.canSuspend : Code → Bool
  | .skip => false
  | .seq first second => first.canSuspend || (first.canComplete && second.canSuspend)
  | .call _ operands => operands.canSuspend
  | .await operand => operand.canSuspend || operand.canComplete
  | .iterate kind iterable body =>
    iterable.canSuspend || (iterable.canComplete && (kind.awaits || body.canSuspend))
  | .asyncWith items _ => items.canSuspend || items.canComplete
  | .deferred _ header _ => header.canSuspend
  | .branch test thenBody elseBody =>
    test.canSuspend ||
      (test.canComplete && (thenBody.canSuspend || elseBody.canSuspend))
  | .ret value => value.canSuspend
  | .raise operand => operand.canSuspend

section Reach

variable {ε ν : Type}

def completes (script : Coroutine ε (Flow ν) PyErr) : Prop :=
  script.drive.outcome = .returned .next

theorem completes_done (outcome : Outcome (Flow ν) PyErr) :
    completes (.done outcome : Coroutine ε (Flow ν) PyErr) ↔ outcome = .returned .next :=
  Iff.rfl

theorem suspends_andThen (first second : Coroutine ε (Flow ν) PyErr) :
    (andThen first second).suspends = true ↔
      first.suspends = true ∨ (completes first ∧ second.suspends = true) := by
  rw [andThen, Coroutine.suspends_follow, completes]
  cases first.drive.outcome with
  | raised error => simp [Coroutine.suspends]
  | returned flow => cases flow <;> simp [Coroutine.suspends]

theorem completes_andThen (first second : Coroutine ε (Flow ν) PyErr) :
    completes (andThen first second) ↔ completes first ∧ completes second := by
  unfold completes
  rw [andThen, Coroutine.drive_follow_outcome]
  cases first.drive.outcome with
  | raised error => simp [Coroutine.drive]
  | returned flow => cases flow <;> simp [Coroutine.drive]

private theorem awaits_of_playActions_suspends (awaits : Bool) (error : Option PyErr)
    (actions : List (Action ε)) (hsuspends :
      (playActions awaits error actions : Coroutine ε (Flow ν) PyErr).suspends = true) :
    awaits = true := by
  induction actions with
  | nil => cases error <;> simp [playActions, Coroutine.suspends] at hsuspends
  | cons action rest ih =>
    cases action with
    | effect effect | needLoop => exact ih hsuspends
    | suspend cleanup =>
      cases awaits with
      | true => rfl
      | false => exact ih (by simpa [playActions] using hsuspends)

theorem Answer.awaits_of_suspends (answer : Answer ε ν) (awaits : Bool)
    (hsuspends : (answer.play awaits).suspends = true) : awaits = true :=
  awaits_of_playActions_suspends awaits answer.error answer.actions hsuspends

private theorem suspends_inRounds (step : Nat → Coroutine ε (Flow ν) PyErr)
    (finish : Coroutine ε (Flow ν) PyErr) (rounds : Nat)
    (hsuspends : (inRounds step finish rounds).suspends = true) :
    (∃ round, (step round).suspends = true) ∨ finish.suspends = true := by
  unfold inRounds at hsuspends
  revert hsuspends
  induction List.range rounds with
  | nil => exact .inr
  | cons round rest ih =>
    intro hsuspends
    rcases (suspends_andThen _ _).1 hsuspends with hstep | ⟨-, hrest⟩
    · exact .inl ⟨round, hstep⟩
    · exact ih hrest

/-- Every run is accounted for by the syntax: a suspension by `canSuspend`, and
falling through by one of the two. -/
theorem Code.exec_reach (code : Code) (world : World ε ν) :
    ((code.exec world).suspends = true → code.canSuspend = true) ∧
      (completes (code.exec world) → code.canComplete = true ∨ code.canSuspend = true) := by
  induction code generalizing world with
  | skip => simp [Code.exec, Coroutine.suspends, Code.canComplete]
  | seq first second ihFirst ihSecond =>
    simp only [Code.exec, suspends_andThen, completes_andThen, Code.canSuspend, Code.canComplete]
    grind
  | call named operands ih =>
    have hplain := (world []).awaits_of_suspends false
    simp only [Code.exec, suspends_andThen, completes_andThen, Code.canSuspend, Code.canComplete]
    grind
  | await operand ih | asyncWith items body ihItems _ =>
    simp only [Code.exec, suspends_andThen, completes_andThen, Code.canSuspend]
    grind
  | iterate kind iterable body ihIterable ihBody =>
    have hfirst := (world []).awaits_of_suspends kind.awaits
    have hrest := suspends_inRounds
      (fun round =>
        andThen ((world [round + 1, 0]).play kind.awaits)
          (body.exec ((world.sub (round + 1)).sub 1)))
      ((world []).play kind.awaits) (world []).rounds
    have hsuspends (round : Nat) :
        (andThen ((world [round + 1, 0]).play kind.awaits)
          (body.exec ((world.sub (round + 1)).sub 1))).suspends = true →
          kind.awaits = true ∨ body.canSuspend = true := by
      rw [suspends_andThen]
      exact Or.imp (Answer.awaits_of_suspends _ _) fun h => (ihBody _).1 h.2
    simp only [Code.exec, suspends_andThen, completes_andThen, Code.canSuspend, Code.canComplete]
    grind
  | deferred kind header body ihHeader _ => exact ihHeader (world.sub 0)
  | branch test thenBody elseBody ihTest ihThen ihElse =>
    simp only [Code.exec, suspends_andThen, completes_andThen, Code.canSuspend, Code.canComplete]
    split <;> grind
  | ret value ih | raise operand ih =>
    simp only [Code.exec, suspends_andThen, completes_andThen, Code.canSuspend,
      Coroutine.suspends, completes_done]
    grind

def Answer.quiet : Answer ε ν :=
  ⟨[], none, 0, true, none, noRunningLoop⟩

def Answer.awaiting : Answer ε ν :=
  { (Answer.quiet : Answer ε ν) with actions := [.suspend []] }

def World.of (answer : Answer ε ν) (first second third : World ε ν) : World ε ν
  | [] => answer
  | 0 :: path => first path
  | 1 :: path => second path
  | _ :: path => third path

def World.quiet : World ε ν :=
  fun _ => Answer.quiet

section

variable (answer : Answer ε ν) (first second third : World ε ν)

@[simp] theorem World.of_root : World.of answer first second third [] = answer :=
  rfl

@[simp] theorem World.sub_of_zero : (World.of answer first second third).sub 0 = first :=
  rfl

@[simp] theorem World.sub_of_one : (World.of answer first second third).sub 1 = second :=
  rfl

@[simp] theorem World.sub_of_two : (World.of answer first second third).sub 2 = third :=
  rfl

end

@[simp] theorem completes_play_quiet (awaits : Bool) :
    completes ((Answer.quiet : Answer ε ν).play awaits) :=
  rfl

@[simp] theorem suspends_play_awaiting :
    ((Answer.awaiting : Answer ε ν).play true).suspends = true :=
  rfl

private theorem completes_guarded {body exit : Coroutine ε (Flow ν) PyErr} (suppress : Bool)
    (hbody : completes body) (helse : completes exit) : completes (guarded body exit suppress) := by
  rw [completes, guarded, Coroutine.drive_follow_outcome, hbody]
  exact (completes_andThen exit _).2 ⟨helse, rfl⟩

theorem Code.exists_completes (code : Code) (hcompletes : code.canComplete = true) :
    ∃ world : World ε ν, completes (code.exec world) := by
  induction code with
  | skip => exact ⟨World.quiet, rfl⟩
  | seq first second ihFirst ihSecond =>
    simp only [Code.canComplete, Bool.and_eq_true] at hcompletes
    obtain ⟨worldFirst, hfirst⟩ := ihFirst hcompletes.1
    obtain ⟨worldSecond, hsuspends⟩ := ihSecond hcompletes.2
    refine ⟨World.of .quiet worldFirst worldSecond .quiet, ?_⟩
    simp [Code.exec, completes_andThen, hfirst, hsuspends]
  | call named operand ih | await operand ih =>
    obtain ⟨world, hworld⟩ := ih hcompletes
    refine ⟨World.of .quiet world .quiet .quiet, ?_⟩
    simp [Code.exec, completes_andThen, hworld]
  | iterate kind iterable body ihIterable _ =>
    obtain ⟨world, hworld⟩ := ihIterable hcompletes
    refine ⟨World.of .quiet world .quiet .quiet, ?_⟩
    simp only [Code.exec, completes_andThen]
    exact ⟨hworld, completes_play_quiet kind.awaits⟩
  | asyncWith items body ihItems ihBody =>
    simp only [Code.canComplete, Bool.and_eq_true] at hcompletes
    obtain ⟨worldItems, hitems⟩ := ihItems hcompletes.1
    obtain ⟨worldBody, hbody⟩ := ihBody hcompletes.2
    refine ⟨World.of .quiet worldItems worldBody .quiet, ?_⟩
    simp only [Code.exec, completes_andThen]
    exact ⟨hitems, completes_play_quiet _, completes_guarded _ hbody (completes_play_quiet _)⟩
  | deferred kind header body ihHeader _ =>
    obtain ⟨world, hworld⟩ := ihHeader hcompletes
    exact ⟨World.of .quiet world .quiet .quiet, hworld⟩
  | branch test thenBody elseBody ihTest ihThen ihElse =>
    simp only [Code.canComplete, Bool.and_eq_true, Bool.or_eq_true] at hcompletes
    obtain ⟨worldTest, htest⟩ := ihTest hcompletes.1
    rcases hcompletes.2 with hthen | helse
    · obtain ⟨world, hworld⟩ := ihThen hthen
      refine ⟨World.of .quiet worldTest world .quiet, ?_⟩
      simp [Code.exec, completes_andThen, htest, hworld, Answer.quiet]
    · obtain ⟨world, hworld⟩ := ihElse helse
      refine ⟨World.of { Answer.quiet with taken := false } worldTest .quiet world, ?_⟩
      simp [Code.exec, completes_andThen, htest, hworld]
  | ret value _ | raise operand _ => simp [Code.canComplete] at hcompletes

theorem Code.exists_suspends (code : Code) (hsuspends : code.canSuspend = true) :
    ∃ world : World ε ν, (code.exec world).suspends = true := by
  induction code with
  | skip => simp [Code.canSuspend] at hsuspends
  | seq first second ihFirst ihSecond =>
    simp only [Code.canSuspend, Bool.or_eq_true, Bool.and_eq_true] at hsuspends
    rcases hsuspends with hfirst | ⟨hcompletes, hsecond⟩
    · obtain ⟨world, hworld⟩ := ihFirst hfirst
      refine ⟨World.of .quiet world .quiet .quiet, ?_⟩
      simp [Code.exec, suspends_andThen, hworld]
    · obtain ⟨worldFirst, hworldFirst⟩ := first.exists_completes hcompletes
      obtain ⟨world, hworld⟩ := ihSecond hsecond
      refine ⟨World.of .quiet worldFirst world .quiet, ?_⟩
      simp [Code.exec, suspends_andThen, hworldFirst, hworld]
  | call named operand ih | ret operand ih | raise operand ih =>
    obtain ⟨world, hworld⟩ := ih hsuspends
    refine ⟨World.of .quiet world .quiet .quiet, ?_⟩
    simp [Code.exec, suspends_andThen, hworld]
  | await operand ih | asyncWith operand body ih _ =>
    simp only [Code.canSuspend, Bool.or_eq_true] at hsuspends
    rcases hsuspends with hoperand | hcompletes
    · obtain ⟨world, hworld⟩ := ih hoperand
      refine ⟨World.of .quiet world .quiet .quiet, ?_⟩
      simp [Code.exec, suspends_andThen, hworld]
    · obtain ⟨world, hworld⟩ := operand.exists_completes hcompletes
      refine ⟨World.of .awaiting world .quiet .quiet, ?_⟩
      simp [Code.exec, suspends_andThen, hworld]
  | iterate kind iterable body ihIterable ihBody =>
    simp only [Code.canSuspend, Bool.or_eq_true, Bool.and_eq_true] at hsuspends
    rcases hsuspends with hitems | ⟨hcompletes, hawait | hbody⟩
    · obtain ⟨world, hworld⟩ := ihIterable hitems
      refine ⟨World.of .quiet world .quiet .quiet, ?_⟩
      simp [Code.exec, suspends_andThen, hworld]
    · obtain ⟨world, hworld⟩ := iterable.exists_completes hcompletes
      refine ⟨World.of .awaiting world .quiet .quiet, ?_⟩
      simp only [Code.exec, suspends_andThen, hawait]
      exact .inr ⟨hworld, rfl⟩
    · -- one round, whose advance is quiet and whose body suspends
      obtain ⟨worldIterable, hworldIterable⟩ := iterable.exists_completes hcompletes
      obtain ⟨world, hworld⟩ := ihBody hbody
      refine ⟨World.of { Answer.quiet with rounds := 1 } worldIterable
        (World.of .quiet .quiet world .quiet) .quiet, ?_⟩
      simp only [Code.exec, suspends_andThen]
      refine .inr ⟨hworldIterable, ?_⟩
      exact (suspends_andThen _ _).2
        (.inl ((suspends_andThen _ _).2 (.inr ⟨completes_play_quiet _, hworld⟩)))
  | deferred kind header body ihHeader _ =>
    obtain ⟨world, hworld⟩ := ihHeader hsuspends
    exact ⟨World.of .quiet world .quiet .quiet, hworld⟩
  | branch test thenBody elseBody ihTest ihThen ihElse =>
    simp only [Code.canSuspend, Bool.or_eq_true, Bool.and_eq_true] at hsuspends
    rcases hsuspends with htest | ⟨hcompletes, hthen | helse⟩
    · obtain ⟨world, hworld⟩ := ihTest htest
      refine ⟨World.of .quiet world .quiet .quiet, ?_⟩
      simp [Code.exec, suspends_andThen, hworld]
    · obtain ⟨worldTest, hworldTest⟩ := test.exists_completes hcompletes
      obtain ⟨world, hworld⟩ := ihThen hthen
      refine ⟨World.of .quiet worldTest world .quiet, ?_⟩
      simp [Code.exec, suspends_andThen, hworldTest, hworld, Answer.quiet]
    · obtain ⟨worldTest, hworldTest⟩ := test.exists_completes hcompletes
      obtain ⟨world, hworld⟩ := ihElse helse
      refine ⟨World.of { Answer.quiet with taken := false } worldTest .quiet world, ?_⟩
      simp [Code.exec, suspends_andThen, hworldTest, hworld]

end Reach

section Wrapper

variable {κ ε ν : Type}

/-- The definition that `inspect.getsource` finds: its decorators and defaults, and its
body. -/
structure Source where
  header : Code
  body : Code

/-- An `async def`: its source as far as it is found, its own code, the arguments it
rejects, and how a call behaves.  The source is the one at the end of the `__wrapped__`
chain, so that of a wrapper made with `functools.wraps` is not its own. -/
structure AsyncFunction (κ ε ν : Type) where
  source : Option Source
  body : Code
  reject : κ → Option PyErr
  world : κ → World ε ν

def Flow.result : Flow ν → Option ν
  | .next => none
  | .exit value => value

/-- The coroutine of one call; falling off the end returns `None`. -/
def AsyncFunction.call (function : AsyncFunction κ ε ν) : CoroutineFunction κ ε (Option ν) :=
  fun kwargs =>
    match function.reject kwargs with
    | some error => .raised error
    | none =>
      .returned ((function.body.exec (function.world kwargs)).follow fun outcome =>
        match outcome with
        | .returned flow => .done (.returned flow.result)
        | .raised error => .done (.raised error))

/-- `_has_await_in_source`, the stack loaded with the children of the definition.
Without a source the answer is yes. -/
def hasAwaitInSource (function : AsyncFunction κ ε ν) : Bool :=
  match function.source with
  | none => true
  | some source =>
    scanStack (source.header.size + source.body.size)
      (source.header.nodes ++ source.body.nodes).reverse

def loopAffinityNames : List String :=
  ["get_running_loop", "get_event_loop", "current_task", "all_tasks", "create_task",
    "ensure_future", "run_coroutine_threadsafe", "call_soon", "call_soon_threadsafe",
    "call_later", "call_at"]

/-- `_uses_running_loop`: the names of the whole source count, nested bodies
included. -/
def usesRunningLoop (function : AsyncFunction κ ε ν) : Bool :=
  match function.source with
  | none => false
  | some source => (source.header.names ++ source.body.names).any loopAffinityNames.contains

/-- The error after which `_noawait_caller` tries again on the worker. -/
def isMissingLoop (error : PyErr) : Bool :=
  error.isInstance "RuntimeError" && error.mentions "no running event loop"

theorem isMissingLoop_noRunningLoop : isMissingLoop noRunningLoop = true := by
  decide

def noawaitCaller (function : AsyncFunction κ ε ν) (kwargs : κ) : Run ε (Option ν) PyErr :=
  probeThenWorker isMissingLoop function.call kwargs

def submitCaller (function : AsyncFunction κ ε ν) (kwargs : κ) : Run ε (Option ν) PyErr :=
  match function.call kwargs with
  | .raised error => ⟨[], .raised error⟩
  | .returned coro => submitToAsyncWorkerFast coro

def makeSyncWrapper (function : AsyncFunction κ ε ν) : κ → Run ε (Option ν) PyErr :=
  if !hasAwaitInSource function && !usesRunningLoop function then noawaitCaller function
  else submitCaller function

/-- There is no source, or an `await`, `async for` or `async with` stands in it outside
nested definitions. -/
def AsyncFunction.ShowsAwait (function : AsyncFunction κ ε ν) : Prop :=
  ∀ source ∈ function.source, source.header.showsAwait = true ∨ source.body.showsAwait = true

section

variable (function : AsyncFunction κ ε ν)

theorem hasAwaitInSource_iff : hasAwaitInSource function = true ↔ function.ShowsAwait := by
  unfold hasAwaitInSource AsyncFunction.ShowsAwait
  cases function.source with
  | none => simp
  | some source =>
    have hheader := stackSize_nodes_le source.header
    have hbody := stackSize_nodes_le source.body
    have hfuel : stackSize (source.header.nodes ++ source.body.nodes).reverse ≤
        source.header.size + source.body.size := by
      rw [stackSize_reverse, stackSize_append]
      omega
    simp only [scanStack_eq_any _ _ hfuel, List.any_reverse, List.any_append,
      any_showsAwait_nodes, Bool.or_eq_true, Option.mem_some_iff, forall_eq']

theorem makeSyncWrapper_eq_singleRun (kwargs : κ) :
    makeSyncWrapper function kwargs = singleRun function.call kwargs ↔
      function.ShowsAwait ∨ usesRunningLoop function = true ∨
        ProbedOnce isMissingLoop (function.call kwargs) := by
  have hsubmit : submitCaller function kwargs = singleRun function.call kwargs := by
    unfold submitCaller singleRun
    cases function.call kwargs <;> rfl
  have hprobe := probeThenWorker_eq_singleRun isMissingLoop_noRunningLoop function.call kwargs
  rw [← hasAwaitInSource_iff, makeSyncWrapper]
  cases hasAwaitInSource function <;> cases usesRunningLoop function <;>
    simp [hsubmit, noawaitCaller, hprobe]

private theorem hasAwaitInSource_sound_iff :
    (hasAwaitInSource function = false →
        ∀ world : World ε ν, (function.body.exec world).suspends = false) ↔
      function.ShowsAwait ∨ function.body.canSuspend = false := by
  rw [← hasAwaitInSource_iff]
  constructor
  · intro hsound
    cases hscan : hasAwaitInSource function with
    | true => exact .inl rfl
    | false =>
      refine .inr (Bool.eq_false_iff.2 fun hcan => ?_)
      obtain ⟨world, hsuspends⟩ : ∃ world : World ε ν, _ := function.body.exists_suspends hcan
      simp [hsound hscan world] at hsuspends
  · rintro (hscan | hcan) hfalse world
    · simp [hscan] at hfalse
    · refine Bool.eq_false_iff.2 fun hsuspends => ?_
      simp [(function.body.exec_reach world).1 hsuspends] at hcan

end

/-- One call of the wrapper is one run of the body, and the scan sees every
suspension, in exactly these cases. -/
theorem sync_wrapper_runs_once_and_scan_sound_iff (function : AsyncFunction κ ε ν) (kwargs : κ) :
    (makeSyncWrapper function kwargs = singleRun function.call kwargs ↔
        function.ShowsAwait ∨ usesRunningLoop function = true ∨
          ProbedOnce isMissingLoop (function.call kwargs)) ∧
      ((hasAwaitInSource function = false →
          ∀ world : World ε ν, (function.body.exec world).suspends = false) ↔
        function.ShowsAwait ∨ function.body.canSuspend = false) :=
  ⟨makeSyncWrapper_eq_singleRun function kwargs, hasAwaitInSource_sound_iff function⟩

end Wrapper

def comprehensionBody : Code :=
  .seq (.call ["log"] .skip)
    (.ret (.iterate .asyncComprehension (.call ["rows"] .skip) (.call ["row"] .skip)))

def asyncComprehensionHandler : AsyncFunction Unit String Nat where
  source := some ⟨.skip, comprehensionBody⟩
  body := comprehensionBody
  reject := fun _ => none
  world := fun _ path =>
    if path = [0] then ⟨[.effect "log"], none, 0, true, none, noRunningLoop⟩
    else if path = [1, 0] then Answer.awaiting
    else Answer.quiet

/-- A wrapper that awaits, made with `functools.wraps` around a function that does not.
Its `finally` runs when the suspended coroutine is closed. -/
def wrappedHandler : AsyncFunction Unit String Nat where
  source := some ⟨.skip, .ret .skip⟩
  body := .await (.call ["acquire"] .skip)
  reject := fun _ => none
  world := fun _ path =>
    if path = [] then
      ⟨[.suspend ["release"], .effect "release"], none, 0, true, none, noRunningLoop⟩
    else Answer.quiet

/-- The scan finds no await, yet the comprehension suspends and the wrapper logs twice;
and a function that is scanned in place of its wrapper lets the wrapper's cleanup run
twice. -/
theorem asyncComprehensionHandler_logs_twice :
    (hasAwaitInSource asyncComprehensionHandler = false ∧
      (makeSyncWrapper asyncComprehensionHandler ()).effects = ["log", "log"] ∧
      (singleRun asyncComprehensionHandler.call ()).effects = ["log"]) ∧
    hasAwaitInSource wrappedHandler = false ∧
      (makeSyncWrapper wrappedHandler ()).effects = ["release", "release"] ∧
      (singleRun wrappedHandler.call ()).effects = ["release"] := by
  decide

end FastapiTurbo.DoorSupport
