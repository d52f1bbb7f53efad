import FastapiTurbo.ClusterPick
import Mathlib.Data.List.Rotate

/-! Connections that are picked a worker and finished one after the other (`cluster.rs`). -/
namespace FastapiTurbo.Cluster

open List

variable (word : Nat)

/-- `Workers::pick` with nothing between its steps; a `usize` has `word` values. -/
def pick (state : State) : Option Nat × State :=
  if state.list.isEmpty then (none, state)
  else
    let order := probeOrder state.list (state.next % state.list.length)
    let turned := { state with next := (state.next + 1) % word }
    match order.find? fun worker => (state.peers worker).outstanding = state.least with
    | none => (none, turned)
    | some worker =>
      (some worker, turned.setPeer worker { state.peers worker with
        outstanding := ((state.peers worker).outstanding + 1) % word })

def complete (worker : Nat) (state : State) : State :=
  let peer := state.peers worker
  if 0 < peer.outstanding then
    state.setPeer worker { peer with outstanding := fetchSub peer.outstanding }
  else state

inductive Turn where
  | pick
  | complete (worker : Nat)

def Turn.take (state : State) : Turn → State
  | .pick => (Cluster.pick word state).2
  | .complete worker => Cluster.complete worker state

/-- The workers of `count` picks, each of whose connections is finished before the next. -/
def picks : Nat → State → List Nat
  | 0, _ => []
  | count + 1, state =>
    match pick word state with
    | (none, next) => picks count next
    | (some worker, next) => worker :: picks count (complete worker next)

variable {word} {state : State}

private theorem list_take (turn : Turn) : (turn.take word state).list = state.list := by
  cases turn with
  | pick =>
    rw [Turn.take, pick]
    split
    · rfl
    · dsimp only
      split <;> rfl
  | complete worker =>
    simp only [Turn.take, complete]
    split <;> rfl

theorem list_foldl_take (turns : List Turn) :
    (turns.foldl (Turn.take word) state).list = state.list := by
  induction turns generalizing state with
  | nil => rfl
  | cons turn rest ih => rw [foldl_cons, ih, list_take]

theorem pick_least (hl : state.list ≠ []) :
    ∃ worker ∈ state.list, (pick word state).1 = some worker ∧
      ∀ other ∈ state.list, (state.peers worker).outstanding ≤ (state.peers other).outstanding := by
  obtain ⟨hb, least, hmem, hleast⟩ := least_spec state hl
  have hf : ((probeOrder state.list (state.next % state.list.length)).find? fun worker =>
      (state.peers worker).outstanding = state.least).isSome := by
    rw [find?_isSome]
    exact ⟨least, mem_probeOrder.2 hmem, by simpa using hleast⟩
  obtain ⟨worker, hw⟩ := Option.isSome_iff_exists.1 hf
  have hload : (state.peers worker).outstanding = state.least := by
    simpa using find?_some hw
  refine ⟨worker, mem_probeOrder.1 (mem_of_find?_eq_some hw), ?_, ?_⟩
  · simp [pick, hl, hw]
  · exact fun other ho => hload ▸ hb other ho

/-- With equal counters the cursor decides, and a finished connection leaves no trace but in
the cursor. -/
theorem picks_succ {load : Nat} (hl : state.list ≠ []) (hload : load + 1 < word)
    (he : ∀ worker ∈ state.list, (state.peers worker).outstanding = load) (count : Nat) :
    picks word (count + 1) state = state.list.getD (state.next % state.list.length) 0 ::
      picks word count { state with next := (state.next + 1) % word } := by
  have hin := Nat.mod_lt state.next (length_pos_of_ne_nil hl)
  obtain ⟨-, least, hmem, hleast⟩ := least_spec state hl
  have hf : (probeOrder state.list (state.next % state.list.length)).find? (fun worker =>
      (state.peers worker).outstanding = state.least) =
        some state.list[state.next % state.list.length] := by
    rw [probeOrder, drop_eq_getElem_cons hin, cons_append]
    refine find?_cons_of_pos (decide_eq_true ?_)
    rw [he _ (getElem_mem hin), ← hleast, he least hmem]
  have hb : ∀ worker ∈ state.list,
      complete worker ({ state with next := (state.next + 1) % word }.setPeer worker
        { state.peers worker with outstanding := ((state.peers worker).outstanding + 1) % word }) =
          { state with next := (state.next + 1) % word } := by
    intro worker hw
    have hsmall : ((state.peers worker).outstanding + 1) % word =
        (state.peers worker).outstanding + 1 := Nat.mod_eq_of_lt (he worker hw ▸ hload)
    simp [complete, State.setPeer, fetchSub, hsmall]
  rw [picks, pick, if_neg (by simpa using hl)]
  simp only [hf, hb _ (getElem_mem hin)]
  simp [hin]

private theorem picks_eq {load : Nat} (hl : state.list ≠ []) (hload : load + 1 < word)
    (hc : state.next < word)
    (he : ∀ worker ∈ state.list, (state.peers worker).outstanding = load) (count : Nat) :
    picks word count state = (List.range count).map fun turn =>
      state.list.getD ((state.next + turn) % word % state.list.length) 0 := by
  induction count generalizing state with
  | zero => rfl
  | succ count ih =>
    have ht : (state.next + 1) % word < word := Nat.mod_lt _ (Nat.zero_lt_of_lt hc)
    have hr := @ih { state with next := (state.next + 1) % word } hl ht he
    rw [picks_succ hl hload he, hr, range_succ_eq_map]
    simp [Nat.mod_eq_of_lt hc, Nat.add_assoc, Nat.add_comm 1]

/-- Picks and completions one after the other, on a list of workers that does not change:
every pick finds a worker with the least counter, and with equal counters below the last value
of a `usize`, each connection being finished before the next is picked, as many picks as there
are workers go to each worker once, unless the cursor wraps around in between and `word` is no
multiple of their number. -/
theorem sequential_picks_fair (word : Nat) (state : State) (hlist : state.list ≠ []) :
    (∀ turns : List Turn, let now := turns.foldl (Turn.take word) state
      ∃ worker ∈ state.list, (pick word now).1 = some worker ∧ ∀ other ∈ state.list,
        (now.peers worker).outstanding ≤ (now.peers other).outstanding) ∧
    ∀ load, (∀ worker ∈ state.list, (state.peers worker).outstanding = load) →
      load + 1 < word → state.next < word →
      state.next + state.list.length ≤ word ∨ state.list.length ∣ word →
        (picks word state.list.length state).Perm state.list := by
  constructor
  · intro turns
    have hk : (turns.foldl (Turn.take word) state).list = state.list := list_foldl_take turns
    have hl := @pick_least word (turns.foldl (Turn.take word) state) (hk ▸ hlist)
    rwa [hk] at hl
  · intro load he hload hc hw
    have hr : picks word state.list.length state = state.list.rotate state.next := by
      rw [picks_eq hlist hload hc he]
      refine ext_getElem (by simp) fun turn ht hround => ?_
      have hleast : turn < state.list.length := by simpa using ht
      have hin : (state.next + turn) % word % state.list.length =
          (turn + state.next) % state.list.length := by
        rcases hw with hf | hd
        · rw [Nat.mod_eq_of_lt (Nat.lt_of_lt_of_le (by omega) hf), Nat.add_comm]
        · rw [Nat.mod_mod_of_dvd _ hd, Nat.add_comm]
      have hb : (turn + state.next) % state.list.length < state.list.length :=
        Nat.mod_lt _ (Nat.zero_lt_of_lt hleast)
      rw [getElem_map, getElem_range, hin, getElem_rotate]
      simp [hb]
    rw [hr]
    exact rotate_perm _ _

/-- Four workers are picked once each while a cursor of three bits wraps around. -/
theorem four_workers_in_turn :
    (picks 8 4 { list := [0, 1, 2, 3], next := 6 }).Perm [0, 1, 2, 3] :=
  (sequential_picks_fair 8 { list := [0, 1, 2, 3], next := 6 } (by simp)).2 0 (by simp)
    (by decide) (by decide) (.inr ⟨2, rfl⟩)

end FastapiTurbo.Cluster
