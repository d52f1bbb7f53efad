/-! Lists put together from parts that are known one by one. -/
namespace FastapiTurbo.Lib

open List

variable {α β : Type}

section Keys

variable {κ : Type} [DecidableEq κ] (key : β → κ) (name : α → κ) (items : List α)

theorem filter_flatMap_of_key (part : α → List β)
    (hpart : ∀ item ∈ items, ∀ piece ∈ part item, key piece = name item)
    (hnames : items.Pairwise fun left right => name left ≠ name right) {item : α}
    (hitem : item ∈ items) :
    (items.flatMap part).filter (fun piece => key piece = name item) = part item := by
  have hown (other : α) (hother : other ∈ items) (hname : name other = name item) :
      (part other).filter (fun piece => key piece = name item) = part other :=
    filter_eq_self.2 fun piece hpiece => by simpa [hname] using hpart other hother piece hpiece
  have hothers (others : List α) (hmem : ∀ other ∈ others, other ∈ items)
      (hne : ∀ other ∈ others, name other ≠ name item) :
      (others.flatMap part).filter (fun piece => key piece = name item) = [] := by
    refine filter_eq_nil_iff.2 fun piece hpiece => ?_
    obtain ⟨other, hother, hpart'⟩ := mem_flatMap.1 hpiece
    simpa [hpart other (hmem other hother) piece hpart'] using hne other hother
  obtain ⟨before, after, rfl⟩ := append_of_mem hitem
  rw [pairwise_append, pairwise_cons] at hnames
  obtain ⟨-, ⟨hafter, -⟩, hbefore⟩ := hnames
  rw [flatMap_append, flatMap_cons, filter_append, filter_append, hown item hitem rfl,
    hothers before (fun other hother => mem_append_left _ hother)
      (fun other hother => hbefore other hother item mem_cons_self),
    hothers after (fun other hother => mem_append_right _ (mem_cons_of_mem _ hother))
      (fun other hother => (hafter other hother).symm)]
  simp

/-- Lists joined from parts that bear different names are equal only part by part. -/
theorem eq_of_flatMap_eq_of_keys (left right : α → List β)
    (hleft : ∀ item ∈ items, ∀ piece ∈ left item, key piece = name item)
    (hright : ∀ item ∈ items, ∀ piece ∈ right item, key piece = name item)
    (hnames : items.Pairwise fun one other => name one ≠ name other)
    (hsame : items.flatMap left = items.flatMap right) :
    ∀ item ∈ items, left item = right item := by
  intro item hitem
  rw [← filter_flatMap_of_key key name items left hleft hnames hitem, hsame,
    filter_flatMap_of_key key name items right hright hnames hitem]

end Keys

theorem none_or_first (holds : α → Prop) (items : List α) :
    (∀ item ∈ items, ¬holds item) ∨
      ∃ before item after, items = before ++ item :: after ∧
        (∀ other ∈ before, ¬holds other) ∧ holds item := by
  induction items with
  | nil => exact .inl (by simp)
  | cons head rest ih =>
    by_cases hh : holds head
    · exact .inr ⟨[], head, rest, rfl, by simp, hh⟩
    · rcases ih with hn | ⟨before, item, after, rfl, hb, hitem⟩
      · exact .inl (by simpa [hh] using hn)
      · exact .inr ⟨head :: before, item, after, rfl, by simpa [hh] using hb, hitem⟩

def Somewhere (holds : List α → α → Prop) (items : List α) : Prop :=
  ∃ before item after, items = before ++ item :: after ∧ holds before item

def Everywhere (holds : List α → α → Prop) (items : List α) : Prop :=
  ∀ before item after, items = before ++ item :: after → holds before item

section

variable (holds : List α → α → Prop)

@[simp] theorem somewhere_nil : ¬Somewhere holds [] := by
  rintro ⟨before, item, after, hs, -⟩
  simp at hs

theorem somewhere_concat (items : List α) (last : α) :
    Somewhere holds (items ++ [last]) ↔ Somewhere holds items ∨ holds items last := by
  constructor
  · rintro ⟨before, item, after, hs, hitem⟩
    rcases eq_nil_or_concat after with rfl | ⟨init, final, rfl⟩
    · obtain ⟨rfl, hl⟩ := append_inj' hs rfl
      cases hl
      exact .inr hitem
    · rw [concat_eq_append, ← cons_append, ← append_assoc] at hs
      obtain ⟨rfl, -⟩ := append_inj' hs rfl
      exact .inl ⟨before, item, init, rfl, hitem⟩
  · rintro (⟨before, item, after, rfl, hitem⟩ | hl)
    · exact ⟨before, item, after ++ [last], by simp, hitem⟩
    · exact ⟨items, last, [], rfl, hl⟩

theorem everywhere_cons (head : α) (rest : List α) :
    Everywhere holds (head :: rest) ↔
      holds [] head ∧ Everywhere (fun before => holds (head :: before)) rest := by
  constructor
  · intro hall
    refine ⟨hall [] head rest rfl, ?_⟩
    rintro before item after rfl
    exact hall (head :: before) item after rfl
  · rintro ⟨hh, hr⟩ before item after hs
    cases before with
    | nil =>
      cases hs
      exact hh
    | cons first before =>
      cases hs
      exact hr before item after rfl

@[simp] theorem everywhere_nil : Everywhere holds [] := by
  intro before item after hs
  simp at hs

@[simp] theorem everywhere_singleton (item : α) : Everywhere holds [item] ↔ holds [] item := by
  simp [everywhere_cons]

theorem everywhere_append (front back : List α) :
    Everywhere holds (front ++ back) ↔
      Everywhere holds front ∧ Everywhere (fun before => holds (front ++ before)) back := by
  induction front generalizing holds with
  | nil => simp
  | cons head rest ih => simp only [cons_append, everywhere_cons, ih, and_assoc]

end

theorem Everywhere.mono {holds weaker : List α → α → Prop} {items : List α}
    (hall : Everywhere holds items) (hw : ∀ before item, holds before item → weaker before item) :
    Everywhere weaker items :=
  fun before item after hs => hw before item (hall before item after hs)

theorem eq_of_prefix_of_suffix {α : Type} {items part : List α} (hn : items.Nodup)
    (hp : part ≠ []) (hs : part <+: items) (he : part <:+ items) : part = items := by
  obtain ⟨head, rest, rfl⟩ := exists_cons_of_ne_nil hp
  obtain ⟨later, rfl⟩ := hs
  obtain ⟨front, hf⟩ := he
  cases front with
  | nil => exact hf
  | cons first front =>
    rw [cons_append, cons_append, List.cons.injEq] at hf
    obtain ⟨rfl, ht⟩ := hf
    have htwice : first ∈ rest ++ later := by
      rw [← ht]
      exact mem_append_right _ mem_cons_self
    exact absurd htwice (nodup_cons.1 hn).1

theorem map_eq_range_concat {α : Type} {number : α → Nat} {items : List α} {item : α}
    (hitems : items.map number = List.range items.length) (hi : number item = items.length) :
    (items ++ [item]).map number = List.range (items ++ [item]).length := by
  rw [map_append, hitems, length_append, length_singleton, range_succ, map_singleton, hi]

theorem mapM_eq_filterMap (read : α → Option β) (items : List α)
    (hr : ∀ item ∈ items, read item ≠ none) : items.mapM read = some (items.filterMap read) := by
  induction items with
  | nil => rfl
  | cons item rest ih =>
    have hrest := ih fun other hmem => hr other (mem_cons_of_mem item hmem)
    cases hitem : read item with
    | none => exact absurd hitem (hr item mem_cons_self)
    | some value => simp [mapM_cons, hitem, hrest]

theorem ne_none_of_mapM {read : α → Option β} {items : List α} {values : List β}
    (hr : items.mapM read = some values) : ∀ item ∈ items, read item ≠ none := by
  induction items generalizing values with
  | nil => simp
  | cons item rest ih =>
    rw [mapM_cons] at hr
    obtain ⟨first, hf, hrest⟩ := Option.bind_eq_some_iff.1 hr
    obtain ⟨others, ho, _⟩ := Option.bind_eq_some_iff.1 hrest
    intro other hmem
    rcases mem_cons.1 hmem with rfl | hl
    · simp [hf]
    · exact ih ho other hl

theorem exists_of_mem_mapM {read : α → Option β} {items : List α} {values : List β}
    (hr : items.mapM read = some values) {value : β} (hmem : value ∈ values) :
    ∃ item ∈ items, read item = some value := by
  induction items generalizing values with
  | nil =>
    cases Option.some.inj hr
    simp at hmem
  | cons item rest ih =>
    rw [mapM_cons] at hr
    obtain ⟨first, hf, hrest⟩ := Option.bind_eq_some_iff.1 hr
    obtain ⟨others, ho, hv⟩ := Option.bind_eq_some_iff.1 hrest
    rw [← Option.some.inj hv] at hmem
    rcases mem_cons.1 hmem with rfl | hl
    · exact ⟨item, mem_cons_self, hf⟩
    · obtain ⟨other, hother, hvalue⟩ := ih ho hl
      exact ⟨other, mem_cons_of_mem item hother, hvalue⟩

theorem bind_ok_iff {ε : Type} {first : Except ε α} {next : α → Except ε β} {value : β} :
    first >>= next = .ok value ↔ ∃ between, first = .ok between ∧ next between = .ok value := by
  cases first with
  | error error => exact iff_of_false (fun hbind => nomatch hbind) (by simp)
  | ok between =>
    refine ⟨fun hnext => ⟨between, rfl, hnext⟩, ?_⟩
    rintro ⟨_, ⟨⟩, hnext⟩
    exact hnext

theorem mapM_ok_iff {ε : Type} {read : α → Except ε β} {good : α → Prop} {value : α → β}
    (hread : ∀ item result, read item = .ok result ↔ good item ∧ result = value item)
    {items : List α} {results : List β} :
    items.mapM read = .ok results ↔ (∀ item ∈ items, good item) ∧ results = items.map value := by
  induction items generalizing results with
  | nil => exact ⟨fun hnil => ⟨by simp, (Except.ok.inj hnil).symm⟩, fun hnil => hnil.2 ▸ rfl⟩
  | cons item rest ih =>
    rw [mapM_cons, bind_ok_iff, forall_mem_cons, map_cons]
    simp only [hread, bind_ok_iff, ih]
    constructor
    · rintro ⟨_, ⟨hitem, rfl⟩, _, ⟨hrest, rfl⟩, hcons⟩
      exact ⟨⟨hitem, hrest⟩, (Except.ok.inj hcons).symm⟩
    · rintro ⟨⟨hitem, hrest⟩, rfl⟩
      exact ⟨_, ⟨hitem, rfl⟩, _, ⟨hrest, rfl⟩, rfl⟩

def addNew [DecidableEq α] (items : List α) (item : α) : List α :=
  if item ∈ items then items else items ++ [item]

theorem nodup_addNew [DecidableEq α] {items : List α} (hitems : items.Nodup) (item : α) :
    (addNew items item).Nodup := by
  unfold addNew
  split
  · exact hitems
  · rename_i hmem
    refine nodup_append.2 ⟨hitems, by simp, fun other ho new hnew hs => hmem ?_⟩
    rwa [← mem_singleton.1 hnew, ← hs]

theorem mem_addNew [DecidableEq α] {items : List α} {item other : α} :
    other ∈ addNew items item ↔ other ∈ items ∨ item = other := by
  unfold addNew
  split
  · rename_i hmem
    exact ⟨.inl, fun ho => ho.elim id fun hs => hs ▸ hmem⟩
  · simp [eq_comm]

theorem addNew_cons [DecidableEq α] {first item : α} (hne : first ≠ item) (rest : List α) :
    addNew (first :: rest) item = first :: addNew rest item := by
  unfold addNew
  by_cases hmem : item ∈ rest <;> simp [hmem, hne.symm]

theorem split_cases {before after before' after' : List α} {item item' : α}
    (hs : before ++ item :: after = before' ++ item' :: after') :
    (before = before' ∧ item = item' ∧ after = after') ∨
      (∃ between, before' = before ++ item :: between) ∨
      ∃ between, before = before' ++ item' :: between := by
  induction before generalizing before' with
  | nil =>
    cases before' with
    | nil =>
      cases hs
      exact .inl ⟨rfl, rfl, rfl⟩
    | cons first rest =>
      cases hs
      exact .inr (.inl ⟨rest, rfl⟩)
  | cons first before ih =>
    cases before' with
    | nil =>
      cases hs
      exact .inr (.inr ⟨before, rfl⟩)
    | cons first' before' =>
      rw [cons_append, cons_append, List.cons.injEq] at hs
      obtain ⟨rfl, hr⟩ := hs
      rcases ih hr with ⟨rfl, hitem, ha⟩ | ⟨between, rfl⟩ | ⟨between, rfl⟩
      · exact .inl ⟨rfl, hitem, ha⟩
      · exact .inr (.inl ⟨between, rfl⟩)
      · exact .inr (.inr ⟨between, rfl⟩)

theorem exists_mem_concat (items : List α) (item : α) (holds : α → Prop) :
    (∃ other ∈ items ++ [item], holds other) ↔ (∃ other ∈ items, holds other) ∨ holds item := by
  simp [or_and_right, exists_or]

end FastapiTurbo.Lib
