import FastapiTurbo.Lib.Dict
import Mathlib.Data.List.Count
import Mathlib.Order.Basic

/-! Values grouped by a key of theirs, each group in the order of its values. -/
namespace FastapiTurbo.Lib

open List

variable {α κ : Type} [DecidableEq κ]

def nonempty (items : List α) : Option (List α) :=
  if items.isEmpty then none else some items

theorem nonempty_inj {one other : List α} (hs : nonempty one = nonempty other) :
    one = other := by
  cases one <;> cases other <;> simp_all [nonempty]

theorem map_nonempty {β : Type} (change : α → β) (items : List α) :
    (nonempty items).map (List.map change) = nonempty (items.map change) := by
  cases items <;> rfl

namespace Dict

def pushUnder (keyOf : α → κ) (groups : Dict κ (List α)) (value : α) : Dict κ (List α) :=
  groups.set (keyOf value) ((groups.get? (keyOf value)).getD [] ++ [value])

theorem get?_foldl_pushUnder (keyOf : α → κ) (values : List α) (groups : Dict κ (List α))
    (key : κ) :
    (values.foldl (pushUnder keyOf) groups).get? key =
      if (values.filter (keyOf · = key)).isEmpty then groups.get? key
      else some ((groups.get? key).getD [] ++ values.filter (keyOf · = key)) := by
  induction values generalizing groups with
  | nil => simp
  | cons value rest ih =>
    rw [foldl_cons, ih, pushUnder, get?_set]
    by_cases hkey : keyOf value = key
    · subst hkey
      by_cases hr : (rest.filter (keyOf · = keyOf value)).isEmpty <;> simp_all
    · have hne : key ≠ keyOf value := fun hs => hkey hs.symm
      simp [hkey, hne]

theorem get?_grouped (keyOf : α → κ) (values : List α) (key : κ) :
    (values.foldl (pushUnder keyOf) []).get? key = nonempty (values.filter (keyOf · = key)) := by
  rw [get?_foldl_pushUnder, nonempty]
  rfl

end Dict

theorem perm_of_groups [DecidableEq α] (keyOf : α → κ) {one other : List α}
    (hg : ∀ key, one.filter (keyOf · = key) = other.filter (keyOf · = key)) : one.Perm other := by
  rw [perm_iff_count]
  intro value
  have hkey : decide (keyOf value = keyOf value) = true := decide_eq_true rfl
  rw [← count_filter (p := (keyOf · = keyOf value)) hkey, hg,
    count_filter (p := (keyOf · = keyOf value)) hkey]

theorem eq_of_perm_of_lt {β γ : Type} [Preorder γ] {items : List α} {before after : α → β}
    (level : β → γ) (hp : (items.map after).Perm (items.map before))
    (hd : ∀ item ∈ items, after item = before item ∨ level (after item) < level (before item)) :
    ∀ item ∈ items, after item = before item := by
  classical
  intro item hitem
  refine (hd item hitem).resolve_right fun hlt => ?_
  obtain ⟨front, back, rfl⟩ := append_of_mem hitem
  have hc := hp.countP_eq fun value => decide (level (before item) ≤ level value)
  have hle : ∀ others : List α, (∀ other ∈ others, other ∈ front ++ item :: back) →
      others.countP (fun other => decide (level (before item) ≤ level (after other))) ≤
        others.countP (fun other => decide (level (before item) ≤ level (before other))) := by
    intro others ho
    apply countP_mono_left
    intro other hother hr
    rw [decide_eq_true_eq] at hr ⊢
    rcases hd other (ho other hother) with hs | hl
    · rwa [hs] at hr
    · exact hr.trans hl.le
  have hf := hle front fun other hmem => mem_append_left _ hmem
  have hb := hle back fun other hmem => mem_append_right _ (mem_cons_of_mem _ hmem)
  have hitemAfter : ¬level (before item) ≤ level (after item) := not_le_of_gt hlt
  simp only [map_append, map_cons, countP_append, countP_map, countP_cons,
    Function.comp_def, hitemAfter, le_refl, decide_true, decide_false, if_true, Bool.false_eq_true,
    if_false] at hc
  omega

end FastapiTurbo.Lib
