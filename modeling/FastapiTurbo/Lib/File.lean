/-! A file in memory: a buffer, a position within it and whether it is closed. -/
namespace FastapiTurbo.Lib

variable {α : Type}

structure File (α : Type) where
  buffer : List α
  position : Nat
  closed : Bool
  position_le : position ≤ buffer.length

namespace File

def ofItems (items : List α) : File α :=
  ⟨items, 0, false, Nat.zero_le _⟩

def peek (file : File α) (count : Option Nat) : List α :=
  let rest := file.buffer.drop file.position
  count.elim rest rest.take

def advance (file : File α) (count : Option Nat) : File α where
  buffer := file.buffer
  position := file.position + (file.peek count).length
  closed := file.closed
  position_le := by
    have hle := file.position_le
    cases count <;> simp only [peek, Option.elim, List.length_drop, List.length_take] <;> omega

def write (file : File α) (items : List α) : File α where
  buffer := file.buffer.take file.position ++ items ++
    file.buffer.drop (file.position + items.length)
  position := file.position + items.length
  closed := file.closed
  position_le := by
    have hle := file.position_le
    simp only [List.length_append, List.length_take, List.length_drop]
    omega

def seek (file : File α) (target : Int) : File α where
  buffer := file.buffer
  position := min target.toNat file.buffer.length
  closed := file.closed
  position_le := Nat.min_le_right _ _

def close (file : File α) : File α :=
  { file with closed := true }

end File

end FastapiTurbo.Lib
