import Mathlib.Data.List.Infix

/-! The first place of one list within another. -/
namespace FastapiTurbo.Lib

open List

variable {α : Type}

def Clear (needle front back : List α) : Prop :=
  ∀ place < front.length, ¬needle <+: (front ++ back).drop place

instance Clear.decidable [DecidableEq α] (needle front back : List α) :
    Decidable (Clear needle front back) :=
  Nat.decidableBallLT _ _

@[simp] theorem clear_nil (needle back : List α) : Clear needle [] back :=
  fun place hp => absurd hp (Nat.not_lt_zero place)

variable {needle front back : List α}

theorem clear_cons {item : α} :
    Clear needle (item :: front) back ↔
      ¬needle <+: item :: (front ++ back) ∧ Clear needle front back := by
  constructor
  · intro hc
    refine ⟨hc 0 (Nat.succ_pos _), ?_⟩
    intro place hp
    exact hc (place + 1) (Nat.succ_lt_succ hp)
  · rintro ⟨hh, hr⟩ place hp
    cases place with
    | zero => exact hh
    | succ place => exact hr place (Nat.lt_of_succ_lt_succ hp)

theorem clear_append {mid : List α} :
    Clear needle (front ++ mid) back ↔
      Clear needle front (mid ++ back) ∧ Clear needle mid back := by
  induction front with
  | nil => simp
  | cons item front ih =>
    rw [cons_append, clear_cons, clear_cons, ih, append_assoc, and_assoc]

theorem prefix_append_iff {haystack : List α} (hl : needle.length ≤ haystack.length) :
    needle <+: haystack ++ back ↔ needle <+: haystack := by
  constructor
  · intro hs
    exact prefix_of_prefix_length_le hs (prefix_append haystack back) hl
  · intro hs
    exact hs.trans (prefix_append haystack back)

theorem clear_needle_append : Clear needle front (needle ++ back) ↔ Clear needle front needle := by
  induction front with
  | nil => simp
  | cons item front ih =>
    rw [clear_cons, clear_cons, ih, ← append_assoc, ← cons_append, prefix_append_iff]
    simp only [length_cons, length_append]
    omega

theorem Clear.longer {longer : List α} (hc : Clear needle front back)
    (hs : needle <+: longer) : Clear longer front back :=
  fun place hp hf => hc place hp (hs.trans hf)

theorem prefix_append_cons_iff {next : α} (hn : next ∉ needle) :
    needle <+: front ++ next :: back ↔ needle <+: front := by
  by_cases hl : needle.length ≤ front.length
  · exact prefix_append_iff hl
  · constructor
    · intro hs
      have hw : front ++ [next] <+: front ++ next :: back := by simp
      have hinside : front ++ [next] <+: needle :=
        prefix_of_prefix_length_le hw hs (by simp; omega)
      exact absurd (hinside.subset (by simp)) hn
    · intro hs
      exact absurd hs.length_le hl

variable {head : α} {tail : List α}

theorem clear_iff_not_within {next : α} (hn : next ∉ tail) :
    Clear (head :: tail) front (next :: back) ↔ ¬head :: tail <:+: front := by
  induction front with
  | nil => simp
  | cons item front ih =>
    rw [clear_cons, infix_cons_iff, not_or, ih, cons_prefix_cons, cons_prefix_cons,
      prefix_append_cons_iff hn]

theorem clear_of_not_mem (hh : head ∉ front) : Clear (head :: tail) front back := by
  intro place hp hs
  rw [drop_append_of_le_length (Nat.le_of_lt hp), drop_eq_getElem_cons hp,
    cons_append, cons_prefix_cons] at hs
  exact hh (hs.1 ▸ getElem_mem hp)

theorem infix_append_iff_of_not_mem (hh : head ∉ front) :
    head :: tail <:+: front ++ back ↔ head :: tail <:+: back := by
  induction front with
  | nil => rfl
  | cons item front ih =>
    rw [mem_cons, not_or] at hh
    rw [cons_append, infix_cons_iff, ih hh.2, cons_prefix_cons]
    exact or_iff_right fun hs => hh.1 hs.1

section Cut

variable [DecidableEq α]

def cutAt (needle : List α) : List α → Option (List α × List α)
  | [] => if needle.isEmpty then some ([], []) else none
  | item :: rest =>
    if needle.isPrefixOf (item :: rest) then some ([], (item :: rest).drop needle.length)
    else (cutAt needle rest).map fun parts => (item :: parts.1, parts.2)

variable {needle haystack : List α}

theorem cutAt_of_start (hs : needle <+: haystack) :
    cutAt needle haystack = some ([], haystack.drop needle.length) := by
  cases haystack with
  | nil =>
    rw [prefix_nil.1 hs]
    rfl
  | cons item rest => rw [cutAt, if_pos (List.isPrefixOf_iff_prefix.2 hs)]

theorem cutAt_cons_of_not_start {rest : List α} {item : α} (hs : ¬needle <+: item :: rest) :
    cutAt needle (item :: rest) =
      (cutAt needle rest).map fun parts => (item :: parts.1, parts.2) := by
  rw [cutAt, if_neg fun hf => hs (List.isPrefixOf_iff_prefix.1 hf)]

theorem cutAt_append_of_clear {front back : List α} (hc : Clear needle front back) :
    cutAt needle (front ++ back) =
      (cutAt needle back).map fun parts => (front ++ parts.1, parts.2) := by
  induction front with
  | nil => simp
  | cons item front ih =>
    obtain ⟨hh, hr⟩ := clear_cons.1 hc
    rw [cons_append, cutAt_cons_of_not_start hh, ih hr, Option.map_map]
    rfl

theorem cutAt_eq_some_iff {front back : List α} :
    cutAt needle haystack = some (front, back) ↔
      haystack = front ++ (needle ++ back) ∧ Clear needle front (needle ++ back) := by
  constructor
  · intro hcut
    induction haystack generalizing front with
    | nil =>
      cases needle with
      | nil =>
        cases hcut
        exact ⟨rfl, clear_nil _ _⟩
      | cons item needle => cases hcut
    | cons item rest ih =>
      by_cases hs : needle <+: item :: rest
      · rw [cutAt_of_start hs] at hcut
        cases hcut
        exact ⟨(prefix_append_drop hs), clear_nil _ _⟩
      · rw [cutAt_cons_of_not_start hs] at hcut
        obtain ⟨⟨before, after⟩, hr, hp⟩ := Option.map_eq_some_iff.1 hcut
        cases hp
        obtain ⟨rfl, hc⟩ := ih hr
        exact ⟨rfl, clear_cons.2 ⟨hs, hc⟩⟩
  · rintro ⟨rfl, hc⟩
    rw [cutAt_append_of_clear hc, cutAt_of_start (prefix_append needle back)]
    simp

theorem cutAt_eq_none_iff : cutAt needle haystack = none ↔ ¬needle <:+: haystack := by
  constructor
  · rintro hcut ⟨front, back, rfl⟩
    induction front with
    | nil =>
      rw [nil_append, cutAt_of_start (prefix_append needle back)] at hcut
      cases hcut
    | cons item front ih =>
      by_cases hs : needle <+: item :: (front ++ needle ++ back)
      · rw [cons_append, cons_append, cutAt_of_start hs] at hcut
        cases hcut
      · rw [cons_append, cons_append, cutAt_cons_of_not_start hs] at hcut
        exact ih (Option.map_eq_none_iff.1 hcut)
  · intro hw
    cases hcut : cutAt needle haystack with
    | none => rfl
    | some parts =>
      obtain ⟨rfl, -⟩ := cutAt_eq_some_iff.1 hcut
      exact absurd ⟨parts.1, parts.2, append_assoc _ _ _⟩ hw

end Cut

end FastapiTurbo.Lib
