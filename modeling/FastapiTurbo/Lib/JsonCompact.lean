import FastapiTurbo.Lib.JsonText

/-! The compact text of a JSON value, which has no space in it, read back. -/
namespace FastapiTurbo.Lib.Json

open List

/-- A string in quotation marks that is read back in front of anything. -/
def Quotes (quote : String → List Char) : Prop :=
  ∀ text, ∃ body, quote text = '"' :: body ∧
    ∀ rest fuel, body.length ≤ fuel → readChars fuel (body ++ rest) = some (text.toList, rest)

def Stops (rest : List Char) : Prop :=
  ∀ char, rest.head? = some char → char = ',' ∨ char = ']' ∨ char = '}'

theorem stops_nil : Stops [] := by
  intro char hc
  cases hc

theorem stops_cons {char : Char} (hc : char = ',' ∨ char = ']' ∨ char = '}')
    (rest : List Char) : Stops (char :: rest) := by
  intro other ho
  cases ho
  exact hc

inductive Readable : Json → Prop where
  | null : Readable .null
  | bool (value : Bool) : Readable (.bool value)
  | number {literal : String} {char : Char} {body : List Char}
      (hliteral : literal.toList = char :: body) (hchar : char = '-' ∨ char.isDigit = true)
      (hread : ∀ rest, Stops rest →
        readNumber (literal.toList ++ rest) = some (literal.toList, rest)) :
      Readable (.number literal)
  | string (text : String) : Readable (.string text)
  | array {items : List Json} (hitems : ∀ item ∈ items, Readable item) :
      Readable (.array items)
  | object {entries : List (String × Json)} (hentries : ∀ entry ∈ entries, Readable entry.2) :
      Readable (.object entries)

theorem skipSpace_cons {char : Char} (hc : isSpace char = false) (rest : List Char) :
    skipSpace (char :: rest) = char :: rest := by
  rw [skipSpace, List.dropWhile_cons, hc]
  rfl

theorem length_le_commas {part : List Char} {parts : List (List Char)} (hmem : part ∈ parts) :
    part.length ≤ (commas parts).length := by
  induction parts with
  | nil => cases hmem
  | cons head rest ih =>
    cases rest with
    | nil => simp [List.mem_singleton.1 hmem, commas]
    | cons next rest =>
      rw [commas, List.length_append, List.length_cons]
      · rcases List.mem_cons.1 hmem with rfl | hr
        · omega
        · have := ih hr
          omega
      · exact List.cons_ne_nil _ _

theorem count_le_commas {parts : List (List Char)} (hp : ∀ part ∈ parts, part ≠ []) :
    parts.length ≤ (commas parts).length := by
  induction parts with
  | nil => simp
  | cons head rest ih =>
    have hh : 0 < head.length :=
      List.length_pos_iff.2 (hp head List.mem_cons_self)
    have hr := ih fun part hmem => hp part (List.mem_cons_of_mem head hmem)
    cases rest with
    | nil => exact hh
    | cons next rest =>
      simp only [commas, List.length_append, List.length_cons] at hr ⊢
      omega

variable {α : Type}

theorem readItems_commas {item : List Char → Option (α × List Char)} {spell : α → List Char}
    {close : Char} (hc : close = ']' ∨ close = '}') (rest : List Char) (first : α)
    (items : List α) {fuel : Nat} (hf : items.length < fuel)
    (hs : ∀ value ∈ first :: items, ∀ behind,
      skipSpace (spell value ++ behind) = spell value ++ behind)
    (hitem : ∀ value ∈ first :: items, ∀ behind, Stops behind →
      item (spell value ++ behind) = some (value, behind)) :
    readItems item close fuel (commas ((first :: items).map spell) ++ close :: rest) =
      some (first :: items, rest) := by
  induction items generalizing first fuel with
  | nil =>
    obtain ⟨fuel, rfl⟩ : ∃ less, fuel = less + 1 := ⟨fuel - 1, by simp at hf; omega⟩
    have hspace : isSpace close = false := by rcases hc with rfl | rfl <;> rfl
    have hcomma : close ≠ ',' := by rcases hc with rfl | rfl <;> decide
    have hfirst := hitem first List.mem_cons_self (close :: rest) (stops_cons (.inr hc) rest)
    simp only [List.map_cons, List.map_nil, commas, readItems,
      hs first List.mem_cons_self, hfirst, skipSpace_cons hspace, if_neg hcomma, if_pos]
  | cons second items ih =>
    obtain ⟨fuel, rfl⟩ : ∃ less, fuel = less + 1 := ⟨fuel - 1, by simp at hf; omega⟩
    have hm := @ih second fuel (by simpa using hf)
      (fun value hmem => hs value (List.mem_cons_of_mem first hmem))
      (fun value hmem => hitem value (List.mem_cons_of_mem first hmem))
    have hfirst := hitem first List.mem_cons_self
      (',' :: (commas ((second :: items).map spell) ++ close :: rest))
      (stops_cons (.inl rfl) _)
    rw [List.map_cons, commas, List.append_assoc, List.cons_append, readItems,
      hs first List.mem_cons_self, hfirst]
    · simp only [skipSpace_cons (show isSpace ',' = false from rfl), if_pos, hm,
        Option.map_some]
    · simp

theorem readSequence_commas {item : List Char → Option (α × List Char)}
    {spell : α → List Char} {close : Char} (hc : close = ']' ∨ close = '}')
    (rest : List Char) (items : List α) {fuel : Nat} (hf : items.length ≤ fuel)
    (hstart : ∀ value ∈ items, ∃ char body, spell value = char :: body ∧
      isSpace char = false ∧ char ≠ ']' ∧ char ≠ '}')
    (hitem : ∀ value ∈ items, ∀ behind, Stops behind →
      item (spell value ++ behind) = some (value, behind)) :
    readSequence item close fuel (commas (items.map spell) ++ close :: rest) =
      some (items, rest) := by
  have hskip : ∀ value ∈ items, ∀ behind,
      skipSpace (spell value ++ behind) = spell value ++ behind := by
    intro value hmem behind
    obtain ⟨char, body, hspell, hs, -⟩ := hstart value hmem
    rw [hspell, List.cons_append, skipSpace_cons hs]
  cases items with
  | nil =>
    have hs : isSpace close = false := by rcases hc with rfl | rfl <;> rfl
    simp [readSequence, commas, skipSpace_cons hs]
  | cons first items =>
    obtain ⟨char, body, hspell, hs, hbracket, hbrace⟩ := hstart first List.mem_cons_self
    have hne : char ≠ close := by rcases hc with rfl | rfl <;> assumption
    obtain ⟨behind, hb⟩ :
        ∃ behind, commas ((first :: items).map spell) ++ close :: rest = char :: behind := by
      cases items with
      | nil | cons second items => simp [commas, hspell]
    have hr := readItems_commas hc rest first items hf hskip hitem
    rw [readSequence, hb, skipSpace_cons hs, List.head?_cons, if_neg (by simpa using hne), ← hb, hr]

theorem renderItems_eq_map (quote : String → List Char) (items : List Json) :
    renderItems quote items = items.map (render quote) := by
  induction items with
  | nil => rfl
  | cons item rest ih => rw [renderItems, ih, List.map_cons]

def renderEntry (quote : String → List Char) (entry : String × Json) : List Char :=
  quote entry.1 ++ ':' :: render quote entry.2

theorem renderEntries_eq_map (quote : String → List Char) (entries : List (String × Json)) :
    renderEntries quote entries = entries.map (renderEntry quote) := by
  induction entries with
  | nil => rfl
  | cons entry rest ih => rw [renderEntries, ih, List.map_cons, renderEntry]

theorem starts_number {char : Char} (hc : char = '-' ∨ char.isDigit = true) :
    ∀ other ∈ [' ', '\t', '\n', '\r', '"', '[', ']', '{', '}', 'n', 't', 'f'],
      char ≠ other := by
  intro other ho hs
  subst hs
  rcases hc with rfl | hd
  · revert ho
    decide
  · simp only [mem_cons, not_mem_nil, or_false] at ho
    rcases ho with rfl | rfl | rfl | rfl | rfl | rfl | rfl | rfl | rfl | rfl | rfl | rfl <;>
      exact absurd hd (by decide)

theorem readWord_of_number {char : Char} (hc : char = '-' ∨ char.isDigit = true)
    (rest : List Char) : readWord (char :: rest) = none := by
  have ho := starts_number hc
  simp only [mem_cons, not_mem_nil, or_false, forall_eq_or_imp, forall_eq] at ho
  simp [readWord, Ne.symm ho.2.2.2.2.2.2.2.2.2.1, Ne.symm ho.2.2.2.2.2.2.2.2.2.2.1,
    Ne.symm ho.2.2.2.2.2.2.2.2.2.2.2]

section Render

variable {quote : String → List Char} (hquote : Quotes quote)

include hquote

theorem render_starts {json : Json} (hj : Readable json) :
    ∃ char body, render quote json = char :: body ∧
      isSpace char = false ∧ char ≠ ']' ∧ char ≠ '}' := by
  cases hj with
  | null => exact ⟨'n', _, rfl, by decide⟩
  | bool value => cases value <;> exact ⟨_, _, rfl, by decide⟩
  | number hl hc _ =>
    have ho := starts_number hc
    refine ⟨_, _, hl, ?_, ho _ (by simp), ho _ (by simp)⟩
    simp [isSpace, ho]
  | string text =>
    obtain ⟨body, hb, -⟩ := hquote text
    exact ⟨'"', body, hb, by decide⟩
  | array _ => exact ⟨'[', _, rfl, by decide⟩
  | object _ => exact ⟨'{', _, rfl, by decide⟩

theorem render_ne_nil {json : Json} (hj : Readable json) : render quote json ≠ [] := by
  obtain ⟨char, body, hb, -⟩ := render_starts hquote hj
  simp [hb]

theorem readMember_renderEntry {value : List Char → Option (Json × List Char)}
    {entry : String × Json}
    (he : Readable entry.2) (behind : List Char)
    (hv : value (render quote entry.2 ++ behind) = some (entry.2, behind)) :
    readMember value (renderEntry quote entry ++ behind) = some (entry, behind) := by
  obtain ⟨name, json⟩ := entry
  obtain ⟨body, hb, hr⟩ := hquote name
  obtain ⟨char, more, hm, hs, -⟩ := render_starts hquote he
  have hskip : skipSpace (render quote json ++ behind) = render quote json ++ behind := by
    rw [show render quote json = char :: more from hm, List.cons_append, skipSpace_cons hs]
  have hn := hr (':' :: (render quote json ++ behind))
    ('"' :: (body ++ ':' :: (render quote json ++ behind))).length (by simp; omega)
  simp only [renderEntry, hb, cons_append, append_assoc, readMember,
    head?_cons, if_pos, tail_cons, hn,
    skipSpace_cons (show isSpace ':' = false from rfl), hskip, hv, Option.map_some,
    String.ofList_toList]

theorem readValue_render {fuel : Nat} {json : Json} (hj : Readable json) {rest : List Char}
    (hrest : Stops rest) (hf : (render quote json).length ≤ fuel) :
    readValue fuel (render quote json ++ rest) = some (json, rest) := by
  -- Every item of a value has a shorter text, which leaves it the fuel of its reader.
  induction fuel generalizing json rest with
  | zero =>
    have hempty := eq_nil_of_length_eq_zero (Nat.le_zero.1 hf)
    exact absurd hempty (render_ne_nil hquote hj)
  | succ fuel ih =>
    cases hj with
    | null => simp [render, readValue, readWord]
    | bool value => cases value <;> simp [render, readValue, readWord]
    | @number literal hread body hl hchar hr =>
      have ho := starts_number hchar
      have hw := readWord_of_number hchar (body ++ rest)
      have hn := hr rest hrest
      rw [hl, cons_append] at hn
      rw [render, hl, cons_append, readValue, if_neg (ho _ (by simp)),
        if_neg (ho _ (by simp)), if_neg (ho _ (by simp)), hw, hn, ← hl]
      simp
    | string text =>
      obtain ⟨body, hb, hr⟩ := hquote text
      have hchars := hr rest ('"' :: (body ++ rest)).length (by simp; omega)
      simp only [render, hb, List.cons_append, readValue, if_pos, hchars, Option.map_some,
        String.ofList_toList]
    | @array items hitems =>
      simp only [render, renderItems_eq_map, List.cons_append, List.append_assoc,
        List.nil_append, List.length_cons, List.length_append,
        List.length_nil] at hf ⊢
      have hc : (items.map (render quote)).length ≤
          (commas (items.map (render quote))).length := by
        apply count_le_commas
        intro part hp
        obtain ⟨item, hmem, rfl⟩ := List.mem_map.1 hp
        exact render_ne_nil hquote (hitems item hmem)
      have hr : readSequence (readValue fuel) ']' fuel
          (commas (items.map (render quote)) ++ ']' :: rest) = some (items, rest) := by
        apply readSequence_commas (.inl rfl) rest items
        · rw [List.length_map] at hc
          omega
        · exact fun item hmem => render_starts hquote (hitems item hmem)
        · intro item hmem behind hbehind
          have hlength := length_le_commas (List.mem_map_of_mem (f := render quote) hmem)
          exact ih (hitems item hmem) hbehind (by omega)
      simp [readValue, hr]
    | @object entries he =>
      simp only [render, renderEntries_eq_map, List.cons_append, List.append_assoc,
        List.nil_append, List.length_cons, List.length_append, List.length_nil] at hf ⊢
      have hc : (entries.map (renderEntry quote)).length ≤
          (commas (entries.map (renderEntry quote))).length := by
        apply count_le_commas
        intro part hp
        obtain ⟨entry, -, rfl⟩ := List.mem_map.1 hp
        simp [renderEntry]
      have hr : readSequence (readMember (readValue fuel)) '}' fuel
          (commas (entries.map (renderEntry quote)) ++ '}' :: rest) = some (entries, rest) := by
        apply readSequence_commas (.inr rfl) rest entries
        · rw [List.length_map] at hc
          omega
        · intro entry hmem
          obtain ⟨body, hb, -⟩ := hquote entry.1
          exact ⟨'"', _, by rw [renderEntry, hb, cons_append], by decide⟩
        · intro entry hmem behind hbehind
          have hlength := length_le_commas (mem_map_of_mem (f := renderEntry quote) hmem)
          have hv : (render quote entry.2).length ≤ (renderEntry quote entry).length := by
            rw [renderEntry, length_append, length_cons]
            omega
          exact readMember_renderEntry hquote (he entry hmem) behind
            (ih (he entry hmem) hbehind (by omega))
      simp [readValue, hr]

theorem parse_render {json : Json} (hj : Readable json) :
    parse (render quote json) = some json := by
  obtain ⟨char, body, hb, hs, -⟩ := render_starts hquote hj
  have hr := readValue_render hquote hj stops_nil
    (Nat.le_succ (render quote json).length)
  rw [append_nil] at hr
  have hskip : skipSpace (render quote json) = render quote json := by
    rw [hb, skipSpace_cons hs]
  rw [parse, hskip, hr]
  rfl

end Render

section Integers

def IsDigits (text : List Char) : Prop :=
  text ≠ [] ∧ text.all Char.isDigit = true

def IsWhole (text : List Char) : Prop :=
  IsDigits text ∧ (text.head? = some '0' → text = ['0'])

theorem readDigits_append {digits rest : List Char} (hd : IsDigits digits)
    (hr : Stops rest) : readDigits (digits ++ rest) = some (digits, rest) := by
  have hs : rest.takeWhile Char.isDigit = [] ∧ rest.dropWhile Char.isDigit = rest := by
    cases rest with
    | nil => exact ⟨rfl, rfl⟩
    | cons char more =>
      have hc : char.isDigit = false := by
        rcases hr char rfl with rfl | rfl | rfl <;> rfl
      simp [hc]
  have hall : ∀ digit ∈ digits, digit.isDigit = true := all_eq_true.1 hd.2
  rw [readDigits, takeWhile_append_of_pos hall, dropWhile_append_of_pos hall, hs.1,
    hs.2, append_nil, if_neg hd.1]

theorem digitChar_ne_zero : ∀ digit < 10, 0 < digit → Nat.digitChar digit ≠ '0' := by
  decide

theorem head_toDigits_ne {number : Nat} (hpos : 0 < number) :
    (Nat.toDigits 10 number).head? ≠ some '0' := by
  induction number using Nat.strongRecOn with
  | ind number ih =>
    by_cases hs : number < 10
    · rw [Nat.toDigits_of_lt_base hs]
      simpa using digitChar_ne_zero number hs hpos
    · have hf := ih (number / 10) (by omega) (by omega)
      obtain ⟨first, more, hm⟩ := exists_cons_of_ne_nil
        (Nat.toDigits_ne_nil (b := 10) (n := number / 10))
      rw [Nat.toDigits_of_base_le (by decide) (by omega)]
      rw [hm] at hf ⊢
      simpa using hf

theorem isWhole_toDigits (number : Nat) : IsWhole (Nat.toDigits 10 number) := by
  have hd : (Nat.toDigits 10 number).all Char.isDigit = true :=
    all_eq_true.2 fun _ => Nat.isDigit_of_mem_toDigits (by decide) (by decide)
  refine ⟨⟨Nat.toDigits_ne_nil, hd⟩, ?_⟩
  intro hz
  rcases Nat.eq_zero_or_pos number with rfl | hpos
  · rfl
  · exact absurd hz (head_toDigits_ne hpos)

theorem splitMinus_append {minus digits : List Char} (hm : minus = [] ∨ minus = ['-'])
    (hd : IsDigits digits) (rest : List Char) :
    splitMinus (minus ++ digits ++ rest) = (minus, digits ++ rest) := by
  rcases hm with rfl | rfl
  · obtain ⟨digit, more, rfl⟩ := exists_cons_of_ne_nil hd.1
    have hdigit : digit ≠ '-' := by
      rintro rfl
      exact absurd hd.2 (by simp)
    simp [splitMinus, hdigit]
  · rfl

theorem IsDigits.starts {minus ds : List Char} (hm : minus = [] ∨ minus = ['-'])
    (hd : IsDigits ds) :
    ∃ char body, minus ++ ds = char :: body ∧ (char = '-' ∨ char.isDigit = true) := by
  rcases hm with rfl | rfl
  · obtain ⟨d, more, rfl⟩ := exists_cons_of_ne_nil hd.1
    exact ⟨d, more, rfl, .inr (all_eq_true.1 hd.2 d mem_cons_self)⟩
  · exact ⟨'-', ds, rfl, .inl rfl⟩

theorem readNumber_whole {minus digits rest : List Char} (hm : minus = [] ∨ minus = ['-'])
    (hd : IsWhole digits) (hr : Stops rest) :
    readNumber (minus ++ digits ++ rest) = some (minus ++ digits, rest) := by
  have hw : readWhole (digits ++ rest) = some (digits, rest) := by
    rw [readWhole, readDigits_append hd.1 hr]
    exact if_neg fun hz => hz.2 (hd.2 hz.1)
  have hf : readFraction rest = some ([], rest) := by
    refine if_neg fun hp => ?_
    rcases hr '.' hp with hc | hc | hc <;> cases hc
  have he : readExponent rest = some ([], rest) := by
    cases rest with
    | nil => rfl
    | cons char more =>
      refine if_neg fun hl => ?_
      rcases hr char rfl with rfl | rfl | rfl <;> revert hl <;> decide
  rw [readNumber, splitMinus_append hm hd.1]
  simp only [hw, hf, he, Option.map_some, append_nil]

end Integers

end FastapiTurbo.Lib.Json
