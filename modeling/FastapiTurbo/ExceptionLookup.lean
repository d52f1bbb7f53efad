import FastapiTurbo.Lib.Dict

/-! The three lookups of a handler for an `HTTPException` beside Starlette's
(`applications.py`, `_frontend.py`, `_ws_support.py`). -/
namespace FastapiTurbo.ExceptionLookup

open Lib

variable {κ η : Type} [DecidableEq κ]

inductive Key (κ : Type) where
  | exceptionClass (name : κ)
  | statusCode (code : Int)
  deriving DecidableEq

/-- An exception with a status code, by its class and the rest of the `__mro__`. -/
structure HttpException (κ : Type) where
  cls : κ
  parents : List κ
  statusCode : Int

def HttpException.mro (exc : HttpException κ) : List κ :=
  exc.cls :: exc.parents

/-- The handler of the first of the classes that has one. -/
def classHandler (handlers : Dict (Key κ) η) (classes : List κ) : Option η :=
  classes.findSome? fun cls => handlers.get? (.exceptionClass cls)

def lookupExceptionHandler (handlers : Dict (Key κ) η) (exc : HttpException κ) : Option η :=
  match handlers.get? (.exceptionClass exc.cls) with
  | some handler => some handler
  | none =>
    match classHandler handlers exc.parents with
    | some handler => some handler
    | none => handlers.get? (.statusCode exc.statusCode)

/-- The lookup of `_arender_http_exception`. -/
def arenderHttpException (handlers : Dict (Key κ) η) (exc : HttpException κ) : Option η :=
  match handlers.get? (.statusCode exc.statusCode) with
  | some handler => some handler
  | none => classHandler handlers exc.mro

/-- `isinstance(exc, key)`; a key that is no class makes it raise, and the loop goes on. -/
def HttpException.isInstance (exc : HttpException κ) : Key κ → Bool
  | .exceptionClass cls => exc.mro.contains cls
  | .statusCode _ => false

/-- The lookup of the WebSocket entry, in the order of registration. -/
def wsEntryHandler (handlers : Dict (Key κ) η) (exc : HttpException κ) : Option η :=
  (handlers.find? fun entry => exc.isInstance entry.1).map Prod.snd

/-- Starlette's: the status code goes before the classes. -/
def starletteHandler (handlers : Dict (Key κ) η) (exc : HttpException κ) : Option η :=
  (handlers.get? (.statusCode exc.statusCode)).or (classHandler handlers exc.mro)

variable (handlers : Dict (Key κ) η) (exc : HttpException κ)

theorem lookupExceptionHandler_eq :
    lookupExceptionHandler handlers exc =
      (classHandler handlers exc.mro).or (handlers.get? (.statusCode exc.statusCode)) := by
  have hmro : classHandler handlers exc.mro =
      (handlers.get? (.exceptionClass exc.cls)).or (classHandler handlers exc.parents) := by
    rw [HttpException.mro, classHandler, List.findSome?_cons]
    cases handlers.get? (.exceptionClass exc.cls) <;> rfl
  unfold lookupExceptionHandler
  rw [hmro]
  cases handlers.get? (.exceptionClass exc.cls) with
  | some hd => rfl
  | none => cases classHandler handlers exc.parents <;> rfl

theorem arenderHttpException_eq :
    arenderHttpException handlers exc = starletteHandler handlers exc := by
  unfold arenderHttpException starletteHandler
  cases handlers.get? (.statusCode exc.statusCode) <;> rfl

/-- The handler of the nearest class: no class before it in the `__mro__` is in the table. -/
def Nearest (handler : η) : Prop :=
  ∃ nearer cls farther, exc.mro = nearer ++ cls :: farther ∧
    handlers.get? (.exceptionClass cls) = some handler ∧
    ∀ other ∈ nearer, handlers.get? (.exceptionClass other) = none

/-- The handler that was registered first: no entry before it is for a class of the
`__mro__`. -/
def FirstRegistered (handler : η) : Prop :=
  ∃ earlier cls later, handlers = earlier ++ (.exceptionClass cls, handler) :: later ∧
    cls ∈ exc.mro ∧ ∀ entry ∈ earlier, ∀ other ∈ exc.mro, entry.1 ≠ .exceptionClass other

theorem classHandler_eq_some_iff (handler : η) :
    classHandler handlers exc.mro = some handler ↔ Nearest handlers exc handler :=
  List.findSome?_eq_some_iff

theorem isInstance_iff (key : Key κ) :
    exc.isInstance key = true ↔ ∃ cls ∈ exc.mro, key = .exceptionClass cls := by
  cases key with
  | statusCode code => simp [HttpException.isInstance]
  | exceptionClass cls => simp [HttpException.isInstance]

theorem wsEntryHandler_eq_some_iff (handler : η) :
    wsEntryHandler handlers exc = some handler ↔ FirstRegistered handlers exc handler := by
  have hbefore : ∀ earlier : Dict (Key κ) η, (∀ entry ∈ earlier, (!exc.isInstance entry.1) = true) ↔
      ∀ entry ∈ earlier, ∀ other ∈ exc.mro, entry.1 ≠ .exceptionClass other := by
    intro earlier
    refine forall_congr' fun entry => forall_congr' fun _ => ?_
    rw [Bool.not_eq_true', ← Bool.not_eq_true, isInstance_iff]
    simp
  rw [wsEntryHandler, Option.map_eq_some_iff]
  constructor
  · rintro ⟨⟨key, _⟩, hfind, rfl⟩
    obtain ⟨hinstance, earlier, later, rfl, hearlier⟩ := List.find?_eq_some_iff_append.1 hfind
    obtain ⟨cls, hcls, rfl⟩ := (isInstance_iff exc key).1 hinstance
    exact ⟨earlier, cls, later, rfl, hcls, (hbefore earlier).1 hearlier⟩
  · rintro ⟨earlier, cls, later, rfl, hcls, hearlier⟩
    refine ⟨(.exceptionClass cls, handler), List.find?_eq_some_iff_append.2 ⟨?_, ?_⟩, rfl⟩
    · exact (isInstance_iff exc _).2 ⟨cls, hcls, rfl⟩
    · exact ⟨earlier, later, rfl, (hbefore earlier).2 hearlier⟩

/-- Both class lookups find something, or neither does. -/
theorem wsEntryHandler_eq_none_iff :
    wsEntryHandler handlers exc = none ↔ classHandler handlers exc.mro = none := by
  rw [wsEntryHandler, Option.map_eq_none_iff, List.find?_eq_none, classHandler,
    List.findSome?_eq_none_iff]
  constructor
  · intro hnone cls hcls
    refine Dict.get?_eq_none _ _ fun hmem => ?_
    obtain ⟨entry, hentry, hkey⟩ := List.mem_map.1 hmem
    exact hnone entry hentry ((isInstance_iff exc entry.1).2 ⟨cls, hcls, hkey⟩)
  · intro hnone entry hentry hinstance
    obtain ⟨cls, hcls, hkey⟩ := (isInstance_iff exc entry.1).1 hinstance
    refine Dict.not_mem_keys_of_get? (hnone cls hcls) ?_
    rw [← hkey]
    exact List.mem_map_of_mem hentry

/-- The class of the exception that is first in the table has the handler of the nearest
class in the table, and the handler of the status code, if there is one, is that handler. -/
structure Undisputed : Prop where
  first_nearest : ∀ first nearest, FirstRegistered handlers exc first →
    Nearest handlers exc nearest → first = nearest
  status_nearest : ∀ handler, handlers.get? (.statusCode exc.statusCode) = some handler →
    Nearest handlers exc handler

private theorem wsEntryHandler_eq_iff :
    wsEntryHandler handlers exc = classHandler handlers exc.mro ↔
      ∀ first nearest, FirstRegistered handlers exc first → Nearest handlers exc nearest →
        first = nearest := by
  simp only [← wsEntryHandler_eq_some_iff, ← classHandler_eq_some_iff]
  constructor
  · intro hsame first nearest hfirst hnearest
    rw [hsame, hnearest] at hfirst
    exact (Option.some.inj hfirst).symm
  · intro hsame
    cases hnearest : classHandler handlers exc.mro with
    | none => exact (wsEntryHandler_eq_none_iff handlers exc).2 hnearest
    | some nearest =>
      cases hfirst : wsEntryHandler handlers exc with
      | none =>
        rw [(wsEntryHandler_eq_none_iff handlers exc).1 hfirst] at hnearest
        cases hnearest
      | some first => rw [hsame first nearest hfirst hnearest]

/-- All three lookups choose Starlette's handler exactly if the class that was registered
first and the status code leave the choice to the nearest class. -/
theorem handler_lookups_agree_iff :
    (lookupExceptionHandler handlers exc = starletteHandler handlers exc ∧
        arenderHttpException handlers exc = starletteHandler handlers exc ∧
        wsEntryHandler handlers exc = starletteHandler handlers exc) ↔
      Undisputed handlers exc := by
  have hcond : Undisputed handlers exc ↔
      wsEntryHandler handlers exc = classHandler handlers exc.mro ∧
        ∀ handler, handlers.get? (.statusCode exc.statusCode) = some handler →
          classHandler handlers exc.mro = some handler := by
    simp only [wsEntryHandler_eq_iff, classHandler_eq_some_iff]
    exact ⟨fun hund => ⟨hund.1, hund.2⟩, fun hund => ⟨hund.1, hund.2⟩⟩
  rw [hcond, lookupExceptionHandler_eq, arenderHttpException_eq, starletteHandler]
  cases hstatus : handlers.get? (.statusCode exc.statusCode) with
  | none => simp
  | some handler =>
    cases hclass : classHandler handlers exc.mro with
    | none => simp [(wsEntryHandler_eq_none_iff handlers exc).2 hclass]
    | some other =>
      simp only [Option.some_or, Option.some.injEq, true_and]
      constructor
      · rintro ⟨rfl, hfirst⟩
        exact ⟨hfirst, fun _ hsame => hsame⟩
      · rintro ⟨hfirst, hsame⟩
        have heq : other = handler := hsame handler rfl
        exact ⟨heq, heq ▸ hfirst⟩

def notFound : HttpException String :=
  ⟨"HTTPException", ["Exception"], 404⟩

/-- The table of the HTTP routes prefers the class to the status code, as does the WebSocket
entry. -/
theorem status_handler_is_shadowed :
    let handlers := [(Key.exceptionClass "HTTPException", "any"), (.statusCode 404, "missing")]
    starletteHandler handlers notFound = some "missing" ∧
      arenderHttpException handlers notFound = some "missing" ∧
      lookupExceptionHandler handlers notFound = some "any" ∧
      wsEntryHandler handlers notFound = some "any" := by
  decide

end FastapiTurbo.ExceptionLookup
