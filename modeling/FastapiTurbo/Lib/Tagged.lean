/-! Logs whose entries carry the key of what they are about. -/
namespace FastapiTurbo.Lib

open List

variable {α β κ : Type} [DecidableEq κ]

def taggedWith (key : κ) (log : List (κ × β)) : List β :=
  (log.filter fun entry => entry.1 = key).map Prod.snd

@[simp] theorem taggedWith_nil (key : κ) : taggedWith key ([] : List (κ × β)) = [] := rfl

@[simp] theorem taggedWith_append (key : κ) (front back : List (κ × β)) :
    taggedWith key (front ++ back) = taggedWith key front ++ taggedWith key back := by
  simp [taggedWith]

theorem taggedWith_own {key : κ} {log : List (κ × β)} (hlog : ∀ entry ∈ log, entry.1 = key) :
    taggedWith key log = log.map Prod.snd := by
  unfold taggedWith
  rw [filter_eq_self.2]
  intro entry hmem
  simpa using hlog entry hmem

theorem taggedWith_eq_nil {key : κ} {log : List (κ × β)} (hlog : ∀ entry ∈ log, entry.1 ≠ key) :
    taggedWith key log = [] := by
  unfold taggedWith
  rw [filter_eq_nil_iff.2, map_nil]
  intro entry hmem
  simpa using hlog entry hmem

theorem taggedWith_flatMap (key : α → κ) (block : α → List (κ × β)) (items : List α)
    (hb : ∀ item ∈ items, ∀ entry ∈ block item, entry.1 = key item)
    (hd : items.Pairwise fun item other => key item ≠ key other) {item : α} (hmem : item ∈ items) :
    taggedWith (key item) (items.flatMap block) = (block item).map Prod.snd := by
  induction items with
  | nil => simp at hmem
  | cons head rest ih =>
    obtain ⟨hh, hr⟩ := pairwise_cons.1 hd
    have hblockRest : ∀ item ∈ rest, ∀ entry ∈ block item, entry.1 = key item :=
      fun other ho => hb other (mem_cons_of_mem head ho)
    rw [flatMap_cons, taggedWith_append]
    rcases mem_cons.1 hmem with rfl | hitem
    · rw [taggedWith_own (hb item mem_cons_self), taggedWith_eq_nil, append_nil]
      intro entry he
      obtain ⟨other, ho, he⟩ := mem_flatMap.1 he
      rw [hblockRest other ho entry he]
      exact (hh other ho).symm
    · rw [taggedWith_eq_nil, nil_append]
      · exact ih hblockRest hr hitem
      · intro entry he
        rw [hb head mem_cons_self entry he]
        exact hh item hitem

end FastapiTurbo.Lib
