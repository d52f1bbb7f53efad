import Mathlib.Data.List.Nodup

/-! Blocks of items put in the order of a rank, compared with the order of the items. -/
namespace FastapiTurbo.Lib

open List

variable {α β : Type} {rank : α → Nat} {kept all : α → List β} {item : α} {items : List α}

/-- The blocks of the items of rank 0, then those of rank 1, then those of rank 2. -/
def ranked (rank : α → Nat) (blocks : α → List β) (items : List α) : List β :=
  (items.filter (rank · = 0)).flatMap blocks ++ ((items.filter (rank · = 1)).flatMap blocks ++
    (items.filter (rank · = 2)).flatMap blocks)

theorem ranked_cons (blocks : α → List β) (items : List α) (hrank : rank item ≤ 2) :
    ∃ front back, ranked rank blocks (item :: items) = front ++ (blocks item ++ back) ∧
      ranked rank blocks items = front ++ back ∧
      ∀ value, value ∈ front ↔ ∃ other ∈ items, rank other < rank item ∧ value ∈ blocks other := by
  obtain hzero | hone | htwo : rank item = 0 ∨ rank item = 1 ∨ rank item = 2 := by omega
  · exact ⟨[], ranked rank blocks items, by simp [ranked, hzero], rfl, by simp [hzero]⟩
  · refine ⟨(items.filter (rank · = 0)).flatMap blocks, _, by simp [ranked, hone], rfl, ?_⟩
    simp [hone, and_assoc]
  · refine ⟨(items.filter (rank · = 0)).flatMap blocks ++
      (items.filter (rank · = 1)).flatMap blocks, (items.filter (rank · = 2)).flatMap blocks,
      by simp [ranked, htwo], by simp [ranked], ?_⟩
    intro value
    have hs (n : Nat) : n < 2 ↔ n = 0 ∨ n = 1 := by omega
    simp [htwo, hs, and_assoc, or_and_right, and_or_left, exists_or]

theorem ranked_perm (hrank : ∀ item ∈ items, rank item ≤ 2)
    (hperm : ∀ item ∈ items, (kept item).Perm (all item)) :
    (ranked rank kept items).Perm (items.flatMap all) := by
  induction items with
  | nil => simp [ranked]
  | cons item items ih =>
    rw [forall_mem_cons] at hrank hperm
    obtain ⟨front, back, hcons, hrest, -⟩ := ranked_cons kept items hrank.1
    rw [hcons, flatMap_cons]
    refine perm_append_comm_assoc _ _ _ |>.trans (hperm.1.append ?_)
    rw [← hrest]
    exact ih hrank.2 hperm.2

theorem append_block_eq_iff {front own own' rest rest' : List β} (hperm : own.Perm own')
    (hapart : ∀ value ∈ front, value ∉ own') :
    front ++ (own ++ rest) = own' ++ rest' ↔
      (front = [] ∨ own' = []) ∧ own = own' ∧ front ++ rest = rest' := by
  constructor
  · intro heq
    cases front with
    | nil =>
      rw [nil_append] at heq
      obtain ⟨hown, hrank⟩ := append_inj heq hperm.length_eq
      exact ⟨.inl rfl, hown, hrank⟩
    | cons value front =>
      cases own' with
      | nil =>
        rw [hperm.eq_nil, nil_append, nil_append] at heq
        exact ⟨.inr rfl, hperm.eq_nil, heq⟩
      | cons first own' =>
        rw [cons_append, cons_append, List.cons.injEq] at heq
        exact absurd (heq.1 ▸ mem_cons_self) (hapart value mem_cons_self)
  · rintro ⟨rfl | rfl, rfl, rfl⟩
    · rfl
    · rfl

/-- The blocks by rank are the blocks of the items in order exactly if each is and a block
never comes after one of a higher rank. -/
theorem ranked_eq_iff (hrank : ∀ item ∈ items, rank item ≤ 2)
    (hperm : ∀ item ∈ items, (kept item).Perm (all item)) (hnodup : (items.flatMap all).Nodup) :
    ranked rank kept items = items.flatMap all ↔ (∀ item ∈ items, kept item = all item) ∧
      items.Pairwise fun item later => rank later < rank item → all item = [] ∨ all later = [] := by
  induction items with
  | nil => simp [ranked]
  | cons item items ih =>
    rw [forall_mem_cons] at hrank hperm
    rw [flatMap_cons, nodup_append] at hnodup
    obtain ⟨front, back, hcons, hrest, hfront⟩ := ranked_cons kept items hrank.1
    have hapart : ∀ value ∈ front, value ∉ all item := by
      intro value hvalue hown
      obtain ⟨other, hother, -, hmem⟩ := (hfront value).1 hvalue
      exact hnodup.2.2 value hown value
        (mem_flatMap.2 ⟨other, hother, (hperm.2 other hother).mem_iff.1 hmem⟩) rfl
    have hempty : front = [] ∨ all item = [] ↔
        ∀ later ∈ items, rank later < rank item → all item = [] ∨ all later = [] := by
      constructor
      · rintro (hnil | hnil) later hlater hlt
        · refine .inr (eq_nil_iff_forall_not_mem.2 fun value hvalue => ?_)
          have hmem := (hfront value).2
            ⟨later, hlater, hlt, (hperm.2 later hlater).mem_iff.2 hvalue⟩
          simp [hnil] at hmem
        · exact .inl hnil
      · refine fun hlater => or_iff_not_imp_right.2 fun hown => ?_
        refine eq_nil_iff_forall_not_mem.2 fun value hvalue => ?_
        obtain ⟨other, hother, hlt, hmem⟩ := (hfront value).1 hvalue
        rw [(hperm.2 other hother).mem_iff, (hlater other hother hlt).resolve_left hown] at hmem
        exact not_mem_nil hmem
    rw [hcons, flatMap_cons, append_block_eq_iff hperm.1 hapart, ← hrest, hempty,
      ih hrank.2 hperm.2 hnodup.2.1, forall_mem_cons, pairwise_cons]
    tauto

end FastapiTurbo.Lib
