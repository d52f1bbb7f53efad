import FastapiTurbo.Lib.Coroutine

/-! The part of the Python object model that the bridge and the door inspect. -/
namespace FastapiTurbo.Py

/-- A Python exception: the names in its class's method resolution order, the
class itself first, and its `str`. -/
structure PyErr where
  mro : List String
  text : String
  deriving DecidableEq, Repr

def PyErr.isInstance (error : PyErr) (cls : String) : Bool :=
  error.mro.contains cls

def runtimeErrorMro : List String :=
  ["RuntimeError", "Exception", "BaseException", "object"]

def timeoutErrorMro : List String :=
  ["TimeoutError", "OSError", "Exception", "BaseException", "object"]

inductive Segment (ν : Type) where
  | suspends
  | ends (outcome : Lib.Outcome ν PyErr)
  deriving DecidableEq

/-- What `asyncio.get_running_loop` raises on a thread without a loop. -/
def noRunningLoop : PyErr :=
  ⟨runtimeErrorMro, "no running event loop"⟩

@[simp] theorem noRunningLoop_isRuntimeError :
    noRunningLoop.isInstance "RuntimeError" = true := by
  decide

def containsChars (needle : List Char) : List Char → Bool
  | [] => needle.isEmpty
  | char :: rest => needle.isPrefixOf (char :: rest) || containsChars needle rest

def PyErr.mentions (error : PyErr) (needle : String) : Bool :=
  containsChars needle.toList error.text.toList

/-- `sys.get_int_max_str_digits()`, as CPython starts. -/
def intMaxStrDigits : Nat := 4300

def isShort (value : Int) : Bool :=
  (Nat.toDigits 10 value.natAbs).length ≤ intMaxStrDigits

theorem lt_length_toDigits_pow {limit digits : Nat} (hpos : 0 < limit) (hle : limit ≤ digits) :
    ¬(Nat.toDigits 10 (Nat.pow 10 digits)).length ≤ limit := by
  rw [Nat.length_toDigits_le_iff (by decide) hpos, Nat.not_lt]
  exact Nat.pow_le_pow_right (by decide) hle

theorem isShort_pow : isShort (Nat.pow 10 intMaxStrDigits : Nat) = false := by
  rw [isShort, Int.natAbs_natCast, decide_eq_false_iff_not]
  exact lt_length_toDigits_pow (by decide) (Nat.le_refl _)

end FastapiTurbo.Py
