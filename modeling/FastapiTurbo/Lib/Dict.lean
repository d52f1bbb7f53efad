import FastapiTurbo.Lib.Lists

/-! Insertion-ordered dictionaries as association lists. -/
namespace FastapiTurbo.Lib

open List

abbrev Dict (κ ν : Type) := List (κ × ν)

namespace Dict

variable {κ ν : Type} [DecidableEq κ]

def get? (dict : Dict κ ν) (key : κ) : Option ν :=
  (dict.find? fun entry => entry.1 = key).map Prod.snd

def contains (dict : Dict κ ν) (key : κ) : Bool :=
  dict.any fun entry => entry.1 = key

def erase (dict : Dict κ ν) (key : κ) : Dict κ ν :=
  dict.filter fun entry => entry.1 ≠ key

/-- `dict[key] = value`: a new key goes to the end. -/
def set (dict : Dict κ ν) (key : κ) (value : ν) : Dict κ ν :=
  if dict.contains key then dict.map fun entry => if entry.1 = key then (key, value) else entry
  else dict ++ [(key, value)]

theorem mem_set (dict : Dict κ ν) (key : κ) (value : ν) : (key, value) ∈ dict.set key value := by
  unfold set
  split
  · rename_i hc
    obtain ⟨entry, hmem, hkey⟩ := any_eq_true.1 hc
    exact mem_map.2 ⟨entry, hmem, by simp_all⟩
  · simp

theorem get?_erase (dict : Dict κ ν) (key other : κ) :
    (dict.erase key).get? other = if other = key then none else dict.get? other := by
  induction dict with
  | nil => simp [erase, get?]
  | cons entry rest ih =>
    simp only [erase, get?] at ih ⊢
    by_cases he : entry.1 = key
    · by_cases ho : other = key
      · simp_all
      · have hne : entry.1 ≠ other := fun hs => ho (hs ▸ he)
        simp_all
    · by_cases hf : entry.1 = other
      · have hne : other ≠ key := fun hs => he (hf.trans hs)
        simp_all
      · simp_all

theorem get?_cons (entry : κ × ν) (rest : Dict κ ν) (key : κ) :
    get? (entry :: rest) key = if entry.1 = key then some entry.2 else get? rest key := by
  by_cases hkey : entry.1 = key <;> simp [get?, hkey]

theorem get?_append (one other : Dict κ ν) (key : κ) :
    get? (one ++ other) key = (one.get? key).or (other.get? key) := by
  simp [get?, find?_append, Option.map_or]

theorem get?_eq_none (dict : Dict κ ν) (key : κ) (hkey : key ∉ dict.map Prod.fst) :
    dict.get? key = none := by
  rw [get?, Option.map_eq_none_iff, find?_eq_none]
  intro entry hmem he
  exact hkey (mem_map.2 ⟨entry, hmem, of_decide_eq_true he⟩)

theorem mem_of_get? {dict : Dict κ ν} {key : κ} {value : ν} (hget : dict.get? key = some value) :
    (key, value) ∈ dict := by
  obtain ⟨entry, hf, rfl⟩ := Option.map_eq_some_iff.1 hget
  have hkey : entry.1 = key := by simpa using find?_some hf
  rw [← hkey]
  exact mem_of_find?_eq_some hf

theorem get?_of_mem {dict : Dict κ ν} (hn : (dict.map Prod.fst).Nodup) {key : κ} {value : ν}
    (hmem : (key, value) ∈ dict) : dict.get? key = some value := by
  induction dict with
  | nil => simp at hmem
  | cons entry rest ih =>
    rw [map_cons, nodup_cons] at hn
    rcases mem_cons.1 hmem with rfl | hr
    · simp [get?]
    · have hne : entry.1 ≠ key := fun hs =>
        hn.1 (hs ▸ mem_map_of_mem (f := Prod.fst) hr)
      simpa [get?, hne] using ih hn.2 hr

theorem contains_eq_isSome (dict : Dict κ ν) (key : κ) :
    dict.contains key = (dict.get? key).isSome := by
  unfold contains get?
  rw [Option.isSome_map, Bool.eq_iff_iff, find?_isSome, any_eq_true]

section

variable (dict : Dict κ ν) (key other : κ) (value : ν)

private theorem get?_map_replace :
    get? (dict.map fun entry => if entry.1 = key then (key, value) else entry) other =
      if other = key then (dict.get? key).map fun _ => value else dict.get? other := by
  induction dict with
  | nil => simp [get?]
  | cons entry rest ih =>
    simp only [get?] at ih ⊢
    by_cases he : entry.1 = key
    · by_cases ho : other = key
      · simp_all
      · have hne : entry.1 ≠ other := fun hs => ho (hs ▸ he)
        have hne' : key ≠ other := fun hs => ho hs.symm
        simp_all
    · by_cases hf : entry.1 = other
      · have hne : other ≠ key := fun hs => he (hf.trans hs)
        simp_all
      · simp_all

theorem get?_set :
    (dict.set key value).get? other = if other = key then some value else dict.get? other := by
  unfold set
  split
  · rename_i hc
    rw [contains_eq_isSome, Option.isSome_iff_exists] at hc
    obtain ⟨old, hold⟩ := hc
    rw [get?_map_replace, hold]
    rfl
  · rename_i hc
    have hn : dict.get? key = none := by
      simpa [contains_eq_isSome] using hc
    by_cases ho : other = key
    · subst ho
      rw [get?, Option.map_eq_none_iff] at hn
      simp [get?, find?_append, hn]
    · have hne : key ≠ other := fun hs => ho hs.symm
      simp [get?, hne, ho]

theorem contains_set :
    (dict.set key value).contains other = true ↔ other = key ∨ dict.contains other = true := by
  rw [contains_eq_isSome, get?_set, contains_eq_isSome]
  by_cases ho : other = key <;> simp [ho]

end

theorem contains_iff_mem_keys (dict : Dict κ ν) (key : κ) :
    dict.contains key = true ↔ key ∈ dict.map Prod.fst := by
  simp [contains, any_eq_true]

theorem not_mem_keys_of_get? {dict : Dict κ ν} {key : κ} (hn : dict.get? key = none) :
    key ∉ dict.map Prod.fst := by
  rw [← contains_iff_mem_keys, contains_eq_isSome, hn]
  simp

theorem keys_set (dict : Dict κ ν) (key : κ) (value : ν) :
    (dict.set key value).map Prod.fst = addNew (dict.map Prod.fst) key := by
  have hc := contains_iff_mem_keys dict key
  unfold set addNew
  by_cases hkey : key ∈ dict.map Prod.fst
  · rw [if_pos (hc.2 hkey), if_pos hkey, map_map]
    apply map_congr_left
    intro entry _
    by_cases he : entry.1 = key <;> simp [he]
  · rw [if_neg (fun hmem => hkey (hc.1 hmem)), if_neg hkey, map_append]
    rfl

theorem keys_erase (dict : Dict κ ν) (key : κ) :
    (dict.erase key).map Prod.fst = (dict.map Prod.fst).filter (· ≠ key) := by
  rw [erase, filter_map]
  rfl

end Dict

end FastapiTurbo.Lib
