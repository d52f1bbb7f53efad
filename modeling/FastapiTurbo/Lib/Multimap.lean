/-! Maps from keys to several values, as lists of pairs.  What counts is the order of the
values of one key. -/
namespace FastapiTurbo.Lib

abbrev Multimap (κ ν : Type) := List (κ × ν)

inductive Joining where
  | skip
  | append
  | insert
  deriving DecidableEq

namespace Multimap

variable {κ ν : Type} [DecidableEq κ]

def getAll (map : Multimap κ ν) (key : κ) : List ν :=
  (map.filter fun pair => pair.1 = key).map Prod.snd

def remove (map : Multimap κ ν) (key : κ) : Multimap κ ν :=
  map.filter fun pair => pair.1 ≠ key

def append (map : Multimap κ ν) (key : κ) (value : ν) : Multimap κ ν :=
  map ++ [(key, value)]

def insert (map : Multimap κ ν) (key : κ) (value : ν) : Multimap κ ν :=
  (map.remove key).append key value

def join (joining : κ → Joining) (map : Multimap κ ν) (pair : κ × ν) : Multimap κ ν :=
  match joining pair.1 with
  | .skip => map
  | .append => map.append pair.1 pair.2
  | .insert => map.insert pair.1 pair.2

def merge (joining : κ → Joining) (map pairs : Multimap κ ν) : Multimap κ ν :=
  pairs.foldl (join joining) map

@[simp] theorem getAll_nil (key : κ) : getAll ([] : Multimap κ ν) key = [] := rfl

theorem getAll_cons (pair : κ × ν) (rest : Multimap κ ν) (key : κ) :
    getAll (pair :: rest) key =
      if pair.1 = key then pair.2 :: rest.getAll key else rest.getAll key := by
  by_cases hkey : pair.1 = key <;> simp [getAll, hkey]

@[simp] theorem getAll_concat (one other : Multimap κ ν) (key : κ) :
    getAll (one ++ other) key = one.getAll key ++ other.getAll key := by
  simp [getAll]

theorem getAll_remove (map : Multimap κ ν) (removed key : κ) :
    (map.remove removed).getAll key = if key = removed then [] else map.getAll key := by
  by_cases hkey : key = removed
  · simp [getAll, remove, hkey]
  · rw [if_neg hkey, getAll, getAll, remove, List.filter_filter]
    refine congrArg _ (List.filter_congr fun pair _ => ?_)
    by_cases hp : pair.1 = key <;> simp [hp, hkey]

theorem getAll_eq_nil {map : Multimap κ ν} {key : κ} (hkey : key ∉ map.map Prod.fst) :
    map.getAll key = [] := by
  refine List.map_eq_nil_iff.2 (List.filter_eq_nil_iff.2 fun pair hp hs => hkey ?_)
  exact List.mem_map.2 ⟨pair, hp, of_decide_eq_true hs⟩

def joined : Joining → List ν → List ν → List ν
  | .skip, values, _ => values
  | .append, values, more => values ++ more
  | .insert, values, more => more.getLast?.elim values ([·])

theorem joined_cons (how : Joining) (values : List ν) (value : ν) (more : List ν) :
    joined how (joined how values [value]) more = joined how values (value :: more) := by
  cases how with
  | skip => rfl
  | append => simp [joined]
  | insert => cases more <;> simp [joined, List.getLast?_cons]

theorem joined_nil (how : Joining) (values : List ν) : joined how values [] = values := by
  cases how <;> simp [joined]

theorem getAll_join (joining : κ → Joining) (map : Multimap κ ν) (pair : κ × ν) (key : κ) :
    (map.join joining pair).getAll key =
      joined (joining key) (map.getAll key) (getAll [pair] key) := by
  by_cases hkey : pair.1 = key
  · subst hkey
    cases hj : joining pair.1 <;>
      simp [join, hj, joined, append, insert, getAll_cons, getAll_remove]
  · have ho : ¬key = pair.1 := fun hs => hkey hs.symm
    rw [getAll_cons, if_neg hkey, getAll_nil, joined_nil]
    cases hj : joining pair.1 <;>
      simp [join, hj, append, insert, getAll_cons, getAll_remove, hkey, ho]

theorem getAll_merge (joining : κ → Joining) (map pairs : Multimap κ ν) (key : κ) :
    (map.merge joining pairs).getAll key =
      joined (joining key) (map.getAll key) (pairs.getAll key) := by
  induction pairs generalizing map with
  | nil => exact (joined_nil _ _).symm
  | cons pair rest ih =>
    rw [merge, List.foldl_cons, ← merge, ih, getAll_join, getAll_cons pair rest]
    by_cases hkey : pair.1 = key
    · rw [if_pos hkey, getAll_cons, if_pos hkey, getAll_nil, joined_cons]
    · rw [if_neg hkey, getAll_cons, if_neg hkey, getAll_nil, joined_nil]

end Multimap

end FastapiTurbo.Lib
