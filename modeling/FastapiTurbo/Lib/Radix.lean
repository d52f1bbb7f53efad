import Mathlib.Data.List.Lex
import Mathlib.Data.List.MinMax

/-! Path patterns of a radix router: literal characters, parameters that take one
segment, and a last parameter that takes all the rest. -/
namespace FastapiTurbo.Lib

open List

inductive PathPattern (α ν : Type) where
  | nil
  | lit (char : α) (rest : PathPattern α ν)
  | param (name : ν) (rest : PathPattern α ν)
  | catchAll (name : ν)
  deriving DecidableEq

namespace PathPattern

variable {α β ν : Type}

def shape : PathPattern α ν → PathPattern α Unit
  | .nil => .nil
  | .lit char rest => .lit char rest.shape
  | .param _ rest => .param () rest.shape
  | .catchAll _ => .catchAll ()

/-- Patterns of one path are compared at the first place where they differ: a
literal goes before a parameter, a parameter before the rest of the path. -/
def rank : PathPattern α ν → List Nat
  | .nil => []
  | .lit _ rest => 0 :: rest.rank
  | .param _ rest => 1 :: rest.rank
  | .catchAll _ => [2]

section Accepts

variable [DecidableEq α] (separator : α)

def accepts : PathPattern α ν → List α → Bool
  | .nil, path => path.isEmpty
  | .lit _ _, [] => false
  | .lit char rest, first :: path => first = char && rest.accepts path
  | .param _ _, [] => false
  | .param _ rest, first :: path =>
    first ≠ separator && rest.accepts (path.dropWhile (· ≠ separator))
  | .catchAll _, path => !path.isEmpty

def Separated : PathPattern α ν → Prop
  | .nil => True
  | .lit _ rest => rest.Separated
  | .param _ rest => (rest = .nil ∨ ∃ tail, rest = .lit separator tail) ∧ rest.Separated
  | .catchAll _ => True

def choose (table : List (PathPattern α ν × β)) (path : List α) :
    Option (PathPattern α ν × β) :=
  (table.filter fun entry => entry.1.accepts separator path).argmin fun entry => entry.1.rank

variable {separator}

variable {one other : PathPattern α ν}

theorem accepts_of_shape (hs : one.shape = other.shape) (path : List α) :
    one.accepts separator path = other.accepts separator path := by
  induction one generalizing other path with
  | nil | catchAll name => cases other <;> simp_all [shape, accepts]
  | lit char rest ih =>
    cases other with
    | lit char' rest' =>
      simp only [shape, lit.injEq] at hs
      cases path with
      | nil => rfl
      | cons first path => simp [accepts, hs.1, ih hs.2]
    | _ => simp [shape] at hs
  | param name rest ih =>
    cases other with
    | param name' rest' =>
      simp only [shape, param.injEq, true_and] at hs
      cases path with
      | nil => rfl
      | cons first path => simp [accepts, ih hs]
    | _ => simp [shape] at hs

variable {path : List α}

theorem shape_of_rank (hone : one.accepts separator path = true)
    (ho : other.accepts separator path = true) (hr : one.rank = other.rank) :
    one.shape = other.shape := by
  induction one generalizing other path with
  | nil | catchAll name => cases other <;> simp_all [rank, shape]
  | lit char rest ih =>
    cases other with
    | lit char' rest' =>
      cases path with
      | nil => simp [accepts] at hone
      | cons first path =>
        simp only [accepts, Bool.and_eq_true, decide_eq_true_eq] at hone ho
        simp only [rank, List.cons.injEq, true_and] at hr
        simp [shape, ← hone.1, ho.1, ih hone.2 ho.2 hr]
    | _ => simp [rank] at hr
  | param name rest ih =>
    cases other with
    | param name' rest' =>
      cases path with
      | nil => simp [accepts] at hone
      | cons first path =>
        simp only [accepts, Bool.and_eq_true] at hone ho
        simp only [rank, List.cons.injEq, true_and] at hr
        simp [shape, ih hone.2 ho.2 hr]
    | _ => simp [rank] at hr

variable {table : List (PathPattern α ν × β)}

theorem mem_of_choose {entry : PathPattern α ν × β}
    (hc : choose separator table path = some entry) :
    entry ∈ table ∧ entry.1.accepts separator path = true :=
  mem_filter.1 (argmin_mem hc)

theorem rank_le_of_choose {entry other : PathPattern α ν × β}
    (hc : choose separator table path = some entry) (hmem : other ∈ table)
    (ha : other.1.accepts separator path = true) : entry.1.rank ≤ other.1.rank := by
  have hf : other ∈ table.filter fun entry => entry.1.accepts separator path :=
    mem_filter.2 ⟨hmem, ha⟩
  have hnot := not_lt_of_mem_argmin (f := fun entry : PathPattern α ν × β => entry.1.rank)
    hf hc
  exact not_lt.1 hnot

theorem exists_choose {other : PathPattern α ν × β} (hmem : other ∈ table)
    (ha : other.1.accepts separator path = true) :
    ∃ entry, choose separator table path = some entry := by
  cases hc : choose separator table path with
  | some entry => exact ⟨entry, rfl⟩
  | none =>
    have he := argmin_eq_none.1 hc
    exact absurd ha (by simpa using filter_eq_nil_iff.1 he other hmem)

theorem accepts_nil_iff (pattern : PathPattern α ν) :
    pattern.accepts separator [] = true ↔ pattern = .nil := by
  cases pattern <;> simp [accepts]

variable {name : ν} {rest : PathPattern α ν}

theorem accepts_param_iff (hs : (PathPattern.param name rest).Separated separator)
    {first : α} (hf : first ≠ separator) (path : List α) :
    rest.accepts separator path = true ↔
      (PathPattern.param name rest).accepts separator (first :: path) = true ∧
        path.dropWhile (· ≠ separator) = path := by
  have hh (ha : rest.accepts separator path = true) :
      path.dropWhile (· ≠ separator) = path := by
    rcases hs.1 with rfl | ⟨tail, rfl⟩
    · simp_all [accepts]
    · cases path with
      | nil => rfl
      | cons next path => simp_all [accepts]
  constructor
  · intro ha
    rw [accepts, hh ha]
    exact ⟨by simp [hf, ha], rfl⟩
  · rintro ⟨ha, hp⟩
    rw [accepts, hp] at ha
    exact (Bool.and_eq_true _ _ ▸ ha).2

theorem accepts_param (hs : (PathPattern.param name rest).Separated separator) {first : α}
    (hf : first ≠ separator) (ha : rest.accepts separator path = true) :
    (PathPattern.param name rest).accepts separator (first :: path) = true :=
  ((accepts_param_iff hs hf path).1 ha).1

section

variable (hfresh : ∀ char : α, ∃ other, other ≠ char ∧ other ≠ separator)
include hfresh

theorem exists_accepts (pattern : PathPattern α ν) (hs : pattern.Separated separator) :
    ∃ path, pattern.accepts separator path = true := by
  obtain ⟨fresh, -, hfresh⟩ := hfresh separator
  induction pattern with
  | nil => exact ⟨[], rfl⟩
  | lit char rest ih =>
    obtain ⟨path, hp⟩ := ih hs
    exact ⟨char :: path, by simp [accepts, hp]⟩
  | param name rest ih =>
    obtain ⟨path, hp⟩ := ih hs.2
    exact ⟨fresh :: path, accepts_param hs hfresh hp⟩
  | catchAll name => exact ⟨[fresh], rfl⟩

theorem exists_accepts_first {pattern : PathPattern α ν} (hs : pattern.Separated separator)
    (hp : (∃ name rest, pattern = .param name rest) ∨ ∃ name, pattern = .catchAll name)
    (char : α) : ∃ first path, first ≠ char ∧ pattern.accepts separator (first :: path) = true := by
  obtain ⟨first, hne, hf⟩ := hfresh char
  rcases hp with ⟨name, rest, rfl⟩ | ⟨name, rfl⟩
  · obtain ⟨path, hpath⟩ := exists_accepts hfresh rest hs.2
    exact ⟨first, path, hne, accepts_param hs hf hpath⟩
  · exact ⟨first, [], hne, rfl⟩

theorem not_lit_and_param {char : α} {pattern : PathPattern α ν} (hs : pattern.Separated separator)
    (hp : (∃ name rest, pattern = .param name rest) ∨ ∃ name, pattern = .catchAll name)
    (hsame : ∀ path, (PathPattern.lit char rest).accepts separator path =
      pattern.accepts separator path) : False := by
  obtain ⟨first, path, hne, ha⟩ := exists_accepts_first hfresh hs hp char
  rw [← hsame] at ha
  simp [accepts, hne] at ha

end

theorem not_param_and_catchAll {name' : ν}
    (hfresh : ∀ char : α, ∃ other, other ≠ char ∧ other ≠ separator)
    (hs : ∀ path, (PathPattern.param name rest).accepts separator path =
      (PathPattern.catchAll name').accepts separator path) : False := by
  obtain ⟨fresh, -, hfresh⟩ := hfresh separator
  -- one segment is accepted, so nothing follows the parameter; two are accepted as well
  have hone := hs [fresh]
  have htwo := hs [fresh, separator]
  simp only [accepts, dropWhile_nil, isEmpty_cons, Bool.not_false, Bool.and_eq_true,
    accepts_nil_iff] at hone
  simp [accepts, hone.2] at htwo

theorem shape_of_accepts (hfresh : ∀ char : α, ∃ other, other ≠ char ∧ other ≠ separator)
    (hone : one.Separated separator) (ho : other.Separated separator)
    (hs : ∀ path, one.accepts separator path = other.accepts separator path) :
    one.shape = other.shape := by
  induction one generalizing other with
  | nil =>
    have hnil : other = .nil := (accepts_nil_iff other).1 (hs []).symm
    rw [hnil]
  | lit char rest ih =>
    cases other with
    | nil => exact absurd (hs []) (by simp [accepts])
    | lit char' rest' =>
      obtain ⟨path, hp⟩ := exists_accepts hfresh rest hone
      have hc : char = char' := by
        have hf := hs (char :: path)
        simp [accepts, hp] at hf
        exact hf.1
      subst hc
      have hr (path : List α) : rest.accepts separator path = rest'.accepts separator path := by
        simpa [accepts] using hs (char :: path)
      rw [shape, shape, ih hone (show rest'.Separated separator from ho) hr]
    | param name rest' => exact (not_lit_and_param hfresh ho (.inl ⟨_, _, rfl⟩) hs).elim
    | catchAll name => exact (not_lit_and_param hfresh ho (.inr ⟨_, rfl⟩) hs).elim
  | param name rest ih =>
    cases other with
    | nil => exact absurd (hs []) (by simp [accepts])
    | lit char rest' =>
      exact (not_lit_and_param hfresh hone (.inl ⟨_, _, rfl⟩) fun path => (hs path).symm).elim
    | param name' rest' =>
      obtain ⟨fresh, -, hne⟩ := hfresh separator
      have hr (path : List α) : rest.accepts separator path = rest'.accepts separator path := by
        rw [Bool.eq_iff_iff, accepts_param_iff hone hne, accepts_param_iff ho hne, hs]
      rw [shape, shape, ih hone.2 ho.2 hr]
    | catchAll name' => exact (not_param_and_catchAll hfresh hs).elim
  | catchAll name =>
    cases other with
    | nil => exact absurd (hs []) (by simp [accepts])
    | lit char rest =>
      exact (not_lit_and_param hfresh hone (.inr ⟨_, rfl⟩) fun path => (hs path).symm).elim
    | param name' rest =>
      exact (not_param_and_catchAll hfresh fun path => (hs path).symm).elim
    | catchAll name' => rfl

end Accepts

end PathPattern

end FastapiTurbo.Lib
