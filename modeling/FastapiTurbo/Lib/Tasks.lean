import Mathlib.Data.List.Basic

/-! Tasks in a list, each known by its place, of which one moves at a time. -/
namespace FastapiTurbo.Lib

open List

variable {α : Type}

theorem getElem?_moved {tasks : List α} {place other : Nat} {old new task : α}
    (hp : tasks[place]? = some old)
    (ht : (tasks.set place new)[other]? = some task) :
    other = place ∧ task = new ∨ other ≠ place ∧ tasks[other]? = some task := by
  by_cases ho : place = other
  · subst ho
    have hl := (List.getElem?_eq_some_iff.1 hp).1
    rw [getElem?_set_self hl, Option.some.injEq] at ht
    exact .inl ⟨rfl, ht.symm⟩
  · rw [getElem?_set_ne ho] at ht
    exact .inr ⟨fun hs => ho hs.symm, ht⟩

theorem getElem?_started {tasks : List α} {place : Nat} {new task : α}
    (ht : (tasks ++ [new])[place]? = some task) :
    place = tasks.length ∧ task = new ∨ tasks[place]? = some task := by
  rcases Nat.lt_trichotomy place tasks.length with hl | rfl | hg
  · rw [getElem?_append_left hl] at ht
    exact .inr ht
  · rw [getElem?_concat_length, Option.some.injEq] at ht
    exact .inl ⟨rfl, ht.symm⟩
  · rw [getElem?_eq_none (by rw [length_append, length_singleton]; omega)] at ht
    cases ht

theorem countP_moved {tasks : List α} {place : Nat} {old : α} (hp : tasks[place]? = some old)
    (counted : α → Bool) (new : α) :
    (tasks.set place new).countP counted + (if counted old then 1 else 0) =
      tasks.countP counted + (if counted new then 1 else 0) := by
  obtain ⟨hl, rfl⟩ := List.getElem?_eq_some_iff.1 hp
  rw [countP_set hl]
  have hpositive : (if counted tasks[place] then 1 else 0) ≤ tasks.countP counted := by
    split
    · rename_i hc
      exact countP_pos_iff.2 ⟨_, getElem_mem hl, hc⟩
    · exact Nat.zero_le _
  omega

section Holdings

variable {β : Type} [BEq β] (held : α → List β)

theorem count_flatMap_moved {tasks : List α} {place : Nat} {old : α}
    (hp : tasks[place]? = some old) (new : α) (item : β) :
    ((tasks.set place new).flatMap held).count item + (held old).count item =
      (tasks.flatMap held).count item + (held new).count item := by
  induction tasks generalizing place with
  | nil => cases hp
  | cons task rest ih =>
    cases place with
    | zero =>
      cases hp
      simp only [set_cons_zero, flatMap_cons, count_append]
      omega
    | succ place =>
      have hr := ih hp
      simp only [set_cons_succ, flatMap_cons, count_append]
      omega

end Holdings

end FastapiTurbo.Lib
