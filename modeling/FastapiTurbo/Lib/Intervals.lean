import Mathlib.Data.List.Sort

/-! Half-open intervals of natural numbers, sorted and put together. -/
namespace FastapiTurbo.Lib.Intervals

open List

def Covered (intervals : List (Nat × Nat)) (point : Nat) : Prop :=
  ∃ interval ∈ intervals, interval.1 ≤ point ∧ point < interval.2

theorem covered_append {front back : List (Nat × Nat)} {point : Nat} :
    Covered (front ++ back) point ↔ Covered front point ∨ Covered back point := by
  simp only [Covered, mem_append, or_and_right, exists_or]

theorem covered_singleton {interval : Nat × Nat} {point : Nat} :
    Covered [interval] point ↔ interval.1 ≤ point ∧ point < interval.2 := by
  simp [Covered]

def Before (first second : Nat × Nat) : Prop :=
  first.1 < second.1 ∨ (first.1 = second.1 ∧ first.2 ≤ second.2)

instance : DecidableRel Before :=
  fun _ _ => inferInstanceAs (Decidable (_ ∨ _))

instance : Std.Total Before where
  total first second := by
    unfold Before
    omega

instance : IsTrans (Nat × Nat) Before where
  trans first second third hfirst hsecond := by
    unfold Before at *
    omega

def join (done : List (Nat × Nat)) (next : Nat × Nat) : List (Nat × Nat) :=
  match done.getLast? with
  | some last =>
    if next.1 ≤ last.2 then done.dropLast ++ [(last.1, Nat.max last.2 next.2)]
    else done ++ [next]
  | none => done ++ [next]

def coalesce (intervals : List (Nat × Nat)) : List (Nat × Nat) :=
  (intervals.insertionSort Before).foldl join []

theorem join_nil (next : Nat × Nat) : join [] next = [next] := rfl

theorem join_concat (front : List (Nat × Nat)) (last next : Nat × Nat) :
    join (front ++ [last]) next =
      if next.1 ≤ last.2 then front ++ [(last.1, Nat.max last.2 next.2)]
      else front ++ [last] ++ [next] := by
  simp [join]

/-- Intervals that are not empty, within the first `limit` points and with a point between
any two of them. -/
structure Apart (limit : Nat) (intervals : List (Nat × Nat)) : Prop where
  nonempty : ∀ interval ∈ intervals, interval.1 < interval.2
  within : ∀ interval ∈ intervals, interval.2 ≤ limit
  gaps : intervals.Pairwise fun first second => first.2 < second.1

theorem apart_nil (limit : Nat) : Apart limit [] :=
  ⟨by simp, by simp, .nil⟩

variable {limit : Nat} {done : List (Nat × Nat)} {next : Nat × Nat}

theorem Apart.join (ha : Apart limit done) (hnext : next.1 < next.2) (hl : next.2 ≤ limit) :
    Apart limit (join done next) := by
  obtain ⟨hn, hw, hg⟩ := ha
  rcases eq_nil_or_concat' done with rfl | ⟨front, last, rfl⟩
  · rw [join_nil]
    exact ⟨by simpa using hnext, by simpa using hl, pairwise_singleton _ _⟩
  · rw [forall_mem_append, forall_mem_singleton] at hn hw
    obtain ⟨hf, -, hlast⟩ := pairwise_append.1 hg
    simp only [mem_singleton, forall_eq] at hlast
    rw [join_concat]
    split
    · refine ⟨?_, ?_, pairwise_append.2 ⟨hf, pairwise_singleton _ _, ?_⟩⟩
      · rw [forall_mem_append, forall_mem_singleton]
        exact ⟨hn.1, Nat.lt_of_lt_of_le hn.2 (Nat.le_max_left _ _)⟩
      · rw [forall_mem_append, forall_mem_singleton]
        exact ⟨hw.1, Nat.max_le.2 ⟨hw.2, hl⟩⟩
      · simpa using hlast
    · next hb =>
      refine ⟨?_, ?_, pairwise_append.2 ⟨hg, pairwise_singleton _ _, ?_⟩⟩
      · rw [forall_mem_append, forall_mem_append, forall_mem_singleton, forall_mem_singleton]
        exact ⟨hn, hnext⟩
      · rw [forall_mem_append, forall_mem_append, forall_mem_singleton, forall_mem_singleton]
        exact ⟨hw, hl⟩
      · simp only [mem_singleton, forall_eq, forall_mem_append]
        refine ⟨fun interval hmem => ?_, by omega⟩
        have hbefore := hlast interval hmem
        have hs := hn.2
        omega

theorem covered_join (hs : ∀ interval ∈ done, interval.1 ≤ next.1) (point : Nat) :
    Covered (join done next) point ↔ Covered (done ++ [next]) point := by
  rcases eq_nil_or_concat' done with rfl | ⟨front, last, rfl⟩
  · rfl
  · have hstart := hs last (by simp)
    rw [join_concat]
    split
    · next ht =>
      have hmax : point < Nat.max last.2 next.2 ↔ point < last.2 ∨ point < next.2 := by
        change point < max last.2 next.2 ↔ _
        omega
      simp only [covered_append, covered_singleton, or_assoc, hmax]
      refine or_congr_right ?_
      omega
    · rfl

theorem starts_join {bound : Nat} (hs : ∀ interval ∈ done, interval.1 ≤ bound)
    (hn : next.1 ≤ bound) : ∀ interval ∈ join done next, interval.1 ≤ bound := by
  rcases eq_nil_or_concat' done with rfl | ⟨front, last, rfl⟩
  · simpa [join_nil] using hn
  · rw [forall_mem_append, forall_mem_singleton] at hs
    rw [join_concat]
    split
    · rw [forall_mem_append, forall_mem_singleton]
      exact hs
    · rw [forall_mem_append, forall_mem_append, forall_mem_singleton, forall_mem_singleton]
      exact ⟨hs, hn⟩

theorem foldl_join (intervals done : List (Nat × Nat))
    (hs : intervals.Pairwise fun first second => first.1 ≤ second.1)
    (hintervals : ∀ interval ∈ intervals, interval.1 < interval.2 ∧ interval.2 ≤ limit)
    (hstarts : ∀ interval ∈ done, ∀ next ∈ intervals, interval.1 ≤ next.1)
    (ha : Apart limit done) :
    Apart limit (intervals.foldl join done) ∧
      ∀ point, Covered (intervals.foldl join done) point ↔ Covered (done ++ intervals) point := by
  induction intervals generalizing done with
  | nil => exact ⟨ha, fun point => by rw [append_nil, foldl_nil]⟩
  | cons next intervals ih =>
    obtain ⟨hn, hr⟩ := pairwise_cons.1 hs
    obtain ⟨⟨hnonempty, hl⟩, ho⟩ := forall_mem_cons.1 hintervals
    have hb : ∀ interval ∈ done, interval.1 ≤ next.1 :=
      fun interval hmem => hstarts interval hmem next mem_cons_self
    have hj : ∀ interval ∈ join done next, ∀ other ∈ intervals, interval.1 ≤ other.1 :=
      fun interval hmem other hother =>
        Nat.le_trans (starts_join hb (Nat.le_refl _) interval hmem) (hn other hother)
    obtain ⟨hresult, hc⟩ := ih (join done next) hr ho hj
      (ha.join hnonempty hl)
    refine ⟨hresult, fun point => ?_⟩
    rw [foldl_cons, hc, covered_append, covered_join hb, ← covered_append,
      append_assoc, singleton_append]

theorem coalesce_spec {intervals : List (Nat × Nat)}
    (hintervals : ∀ interval ∈ intervals, interval.1 < interval.2 ∧ interval.2 ≤ limit) :
    Apart limit (coalesce intervals) ∧
      ∀ point, Covered (coalesce intervals) point ↔ Covered intervals point := by
  have hs : (intervals.insertionSort Before).Pairwise
      fun first second => first.1 ≤ second.1 :=
    (pairwise_insertionSort Before intervals).imp fun hb => by
      unfold Before at hb
      omega
  obtain ⟨ha, hc⟩ := foldl_join (intervals.insertionSort Before) [] hs
    (fun interval hmem => hintervals interval ((mem_insertionSort Before).1 hmem))
    (by simp) (apart_nil limit)
  refine ⟨ha, fun point => ?_⟩
  rw [coalesce, hc, nil_append]
  simp only [Covered, mem_insertionSort]

end FastapiTurbo.Lib.Intervals
