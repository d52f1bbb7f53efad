import FastapiTurbo.Lib.Tasks

/-! Resources that tasks take from a pool or make, and may put back.  A resource is a number
below the count of those that were made. -/
namespace FastapiTurbo.Lib

open List

variable {α : Type} {uses : α → Option Nat} {tasks : List α} {pool : List Nat} {made : Nat}

structure Pooled (uses : α → Option Nat) (tasks : List α) (pool : List Nat) (made : Nat) :
    Prop where
  alone : ∀ (first second : Nat) (one other : α) (resource : Nat), tasks[first]? = some one →
    tasks[second]? = some other → uses one = some resource → uses other = some resource →
    first = second
  used : ∀ (place : Nat) (task : α) (resource : Nat), tasks[place]? = some task →
    uses task = some resource →
    resource < made ∧ resource ∉ pool
  pooled : ∀ resource ∈ pool, resource < made
  nodup : pool.Nodup

namespace Pooled

theorem empty (uses : α → Option Nat) : Pooled uses [] [] 0 where
  alone := by simp
  used := by simp
  pooled := nofun
  nodup := nodup_nil

theorem started (h : Pooled uses tasks pool made) {new : α} (hnew : uses new = none) :
    Pooled uses (tasks ++ [new]) pool made where
  alone := by
    intro first second one other resource hone ho hu husesOther
    rcases getElem?_started hone with ⟨_, rfl⟩ | hone
    · simp [hnew] at hu
    rcases getElem?_started ho with ⟨_, rfl⟩ | ho
    · simp [hnew] at husesOther
    exact h.alone first second one other resource hone ho hu husesOther
  used := by
    intro place task resource ht hu
    rcases getElem?_started ht with ⟨_, rfl⟩ | ht
    · simp [hnew] at hu
    · exact h.used place task resource ht hu
  pooled := h.pooled
  nodup := h.nodup

theorem taken (h : Pooled uses tasks pool made) {place : Nat} {old new : α} {left : List Nat}
    {count : Nat} (hold : tasks[place]? = some old) (hl : left.Sublist pool)
    (hc : made ≤ count)
    (hused : ∀ resource, uses new = some resource → resource < count ∧ resource ∉ left ∧
      ∀ (other : Nat) (task : α), tasks[other]? = some task → uses task = some resource →
        other = place) :
    Pooled uses (tasks.set place new) left count where
  alone := by
    intro first second one other resource hone ho hu husesOther
    rcases getElem?_moved hold hone with ⟨rfl, rfl⟩ | ⟨_, honeStays⟩
    · rcases getElem?_moved hold ho with ⟨rfl, _⟩ | ⟨_, hotherStays⟩
      · rfl
      · exact ((hused resource hu).2.2 second other hotherStays husesOther).symm
    · rcases getElem?_moved hold ho with ⟨rfl, rfl⟩ | ⟨_, hotherStays⟩
      · exact (hused resource husesOther).2.2 first one honeStays hu
      · exact h.alone first second one other resource honeStays hotherStays hu husesOther
  used := by
    intro other task resource ht hu
    rcases getElem?_moved hold ht with ⟨rfl, rfl⟩ | ⟨_, ht⟩
    · exact ⟨(hused resource hu).1, (hused resource hu).2.1⟩
    · have hb := h.used other task resource ht hu
      exact ⟨Nat.lt_of_lt_of_le hb.1 hc, fun hmem => hb.2 (hl.subset hmem)⟩
  pooled := fun resource hmem => Nat.lt_of_lt_of_le (h.pooled resource (hl.subset hmem)) hc
  nodup := h.nodup.sublist hl

theorem moved (h : Pooled uses tasks pool made) {place : Nat} {old new : α}
    (hold : tasks[place]? = some old)
    (huses : ∀ resource, uses new = some resource → uses old = some resource) :
    Pooled uses (tasks.set place new) pool made := by
  refine h.taken hold (List.Sublist.refl pool) (Nat.le_refl made) fun resource hnew => ?_
  have hu := huses resource hnew
  refine ⟨(h.used place old resource hold hu).1, (h.used place old resource hold hu).2, ?_⟩
  exact fun other task ht ho =>
    h.alone other place task old resource ht hold ho hu

theorem popped {resource : Nat} (h : Pooled uses tasks (resource :: pool) made) {place : Nat}
    {old new : α} (hold : tasks[place]? = some old) (hnew : uses new = some resource) :
    Pooled uses (tasks.set place new) pool made := by
  refine h.taken hold (sublist_cons_self resource pool) (Nat.le_refl made) ?_
  intro used hu
  rw [hnew] at hu
  cases hu
  refine ⟨h.pooled resource mem_cons_self, (nodup_cons.1 h.nodup).1, ?_⟩
  intro other task ht huses
  exact absurd mem_cons_self (h.used other task resource ht huses).2

variable (h : Pooled uses tasks pool made)
include h

theorem fresh {place : Nat} {old new : α} (hold : tasks[place]? = some old)
    (hnew : uses new = some made) : Pooled uses (tasks.set place new) pool (made + 1) := by
  refine h.taken hold (List.Sublist.refl pool) (Nat.le_succ made) ?_
  intro used hu
  rw [hnew] at hu
  cases hu
  refine ⟨Nat.lt_succ_self made, fun hmem => Nat.lt_irrefl made (h.pooled made hmem), ?_⟩
  intro other task ht huses
  exact absurd (h.used other task made ht huses).1 (Nat.lt_irrefl made)

theorem stocked :
    Pooled uses tasks (made :: pool) (made + 1) where
  alone := h.alone
  used := by
    intro place task resource ht hu
    have hb := h.used place task resource ht hu
    refine ⟨Nat.lt_succ_of_lt hb.1, fun hmem => ?_⟩
    rcases mem_cons.1 hmem with rfl | hmem
    · exact Nat.lt_irrefl _ hb.1
    · exact hb.2 hmem
  pooled := by
    intro resource hmem
    rcases mem_cons.1 hmem with rfl | hmem
    · exact Nat.lt_succ_self _
    · exact Nat.lt_succ_of_lt (h.pooled resource hmem)
  nodup := nodup_cons.2 ⟨fun hmem => Nat.lt_irrefl made (h.pooled made hmem), h.nodup⟩

theorem returned {place resource : Nat} {old new : α} (hold : tasks[place]? = some old)
    (huses : uses old = some resource)
    (hnew : uses new = none) : Pooled uses (tasks.set place new) (resource :: pool) made := by
  have hm : Pooled uses (tasks.set place new) pool made :=
    h.moved hold fun other ho => by rw [hnew] at ho; cases ho
  have hb := h.used place old resource hold huses
  refine ⟨hm.alone, ?_, ?_, nodup_cons.2 ⟨hb.2, h.nodup⟩⟩
  · intro other task used ht hu
    have ha := hm.used other task used ht hu
    refine ⟨ha.1, fun hmem => ?_⟩
    rcases mem_cons.1 hmem with rfl | hmem
    · rcases getElem?_moved hold ht with ⟨_, rfl⟩ | ⟨ho, ht⟩
      · rw [hnew] at hu
        cases hu
      · exact ho (h.alone other place task old used ht hold hu huses)
    · exact ha.2 hmem
  · intro other hmem
    rcases mem_cons.1 hmem with rfl | hmem
    · exact hb.1
    · exact h.pooled other hmem

end Pooled

end FastapiTurbo.Lib
