import FastapiTurbo.Coercion
import FastapiTurbo.Lib.Intervals
import FastapiTurbo.Lib.Search
import FastapiTurbo.ResponseHeaders

/-! `parse_byte_ranges` (`responses.rs`): the `Range` header of a file response. -/
namespace FastapiTurbo.ByteRanges

open Lib Lib.Intervals ResponseHeaders List
open Coercion (trim isAsciiDigit digitsValue splitChars)

def number (digits : List Char) : Option Nat :=
  if digits.isEmpty || !digits.all isAsciiDigit then none else some (digitsValue digits)

def parseU64 (chars : List Char) : Option Nat :=
  (number (if chars.head? = some '+' then chars.tail else chars)).filter
    (· < 18446744073709551616)

def readSubRange (totalLen : Nat) (part : List Char) : Option (Int × Nat) :=
  let part := trim part
  if part.isEmpty || part = ['-'] then none
  else
    match cutAt ['-'] part with
    | none => none
    | some (first, last) =>
      let a := trim first
      let b := trim last
      let start : Option Int :=
        if a.isEmpty then (parseU64 b).map fun count => (totalLen : Int) - (count : Int)
        else (parseU64 a).map Int.ofNat
      let finish : Option Nat :=
        if !a.isEmpty && !b.isEmpty then
          (parseU64 b).map fun last => if last < totalLen then last + 1 else totalLen
        else some totalLen
      match start, finish with
      | some start, some finish => some (start, finish)
      | _, _ => none

def outcomeOf : List (Nat × Nat) → RangeOutcome
  | [(start, finish)] => .single start finish
  | ranges => .multi ranges

def inclusive (range : Nat × Nat) : Nat × Nat :=
  (range.1, range.2 - 1)

def resolve (totalLen : Nat) (raw : List (Int × Nat)) : RangeOutcome :=
  if raw.isEmpty then .malformed "Range header: range must be requested"
  else if raw.any fun range => range.1 < 0 || (totalLen : Int) ≤ range.1 then .unsatisfiable
  else
    let ranges := raw.map fun range => (range.1.toNat, range.2)
    if ranges.any fun range => range.2 < range.1 then
      .malformed "Range header: start must be less than end"
    else outcomeOf ((coalesce ranges).map inclusive)

def parseByteRanges (header : String) (totalLen : Nat) : RangeOutcome :=
  match cutAt ['='] (trim header.toList) with
  | none => .malformed "Malformed range header."
  | some (unit, rest) =>
    if (trim unit).map Char.toLower ≠ "bytes".toList then
      .malformed "Only support bytes range"
    else if totalLen = 0 then .unsatisfiable
    else resolve totalLen ((splitChars ',' (trim rest)).filterMap (readSubRange totalLen))

inductive SubRange where
  | absolute (first : Nat) (last : Option Nat)
  | suffix (length : Nat)
  deriving DecidableEq

def wellFormed (part : List Char) : Option SubRange :=
  match cutAt ['-'] (trim part) with
  | none => none
  | some (first, last) =>
    if (trim first).isEmpty then (number (trim last)).map .suffix
    else if (trim last).isEmpty then (number (trim first)).map (.absolute · none)
    else
      match number (trim first), number (trim last) with
      | some first, some last => some (.absolute first (some last))
      | _, _ => none

namespace SubRange

/-- The first position is inside the file. -/
def Inside (totalLen : Nat) : SubRange → Prop
  | .absolute first _ => first < totalLen
  | .suffix length => 0 < length ∧ length ≤ totalLen

/-- The last position is `gap` or more before the first one. -/
def ReversedBy (gap : Nat) : SubRange → Prop
  | .absolute first (some last) => last + gap ≤ first
  | _ => False

def Requests (totalLen point : Nat) : SubRange → Prop
  | .absolute first none => first ≤ point ∧ point < totalLen
  | .absolute first (some last) => first ≤ point ∧ point ≤ last ∧ point < totalLen
  | .suffix length => totalLen - length ≤ point ∧ point < totalLen

def raw (totalLen : Nat) : SubRange → Int × Nat
  | .absolute first none => (first, totalLen)
  | .absolute first (some last) => (first, if last < totalLen then last + 1 else totalLen)
  | .suffix length => ((totalLen : Int) - (length : Int), totalLen)

end SubRange

def subRanges (header : String) : List (List Char) :=
  match cutAt ['='] (trim header.toList) with
  | none => []
  | some (_, rest) => splitChars ',' (trim rest)

def unitOf (header : String) : Option (List Char) :=
  (cutAt ['='] (trim header.toList)).map fun parts => (trim parts.1).map Char.toLower

/-- No plus sign in front, and no number that does not fit a `u64`. -/
def fits (piece : List Char) : Bool :=
  piece.head? != some '+' && (number piece).all (· < 18446744073709551616)

def plainPart (part : List Char) : Bool :=
  (cutAt ['-'] (trim part)).all fun pieces => fits (trim pieces.1) && fits (trim pieces.2)

private theorem parseU64_of_fits {piece : List Char} (hf : fits piece = true) :
    parseU64 piece = number piece := by
  simp only [fits, Bool.and_eq_true, bne_iff_ne] at hf
  rw [parseU64, if_neg hf.1]
  cases hn : number piece with
  | none => rfl
  | some value =>
    have hv := hf.2
    rw [hn] at hv
    exact if_pos hv

/-- A sub-range without a plus sign and within `u64` is read if it is well formed. -/
theorem readSubRange_of_plain (totalLen : Nat) {part : List Char}
    (hp : plainPart part = true) :
    readSubRange totalLen part = (wellFormed part).map (SubRange.raw totalLen) := by
  unfold readSubRange wellFormed
  unfold plainPart at hp
  generalize trim part = part at *
  dsimp only
  split
  · next hs =>
    -- Nothing, or a dash alone, which is no number.
    simp only [Bool.or_eq_true, List.isEmpty_iff, decide_eq_true_eq] at hs
    rcases hs with rfl | rfl <;> rfl
  · cases hcut : cutAt ['-'] part with
    | none => rfl
    | some pieces =>
      obtain ⟨first, last⟩ := pieces
      simp only [hcut, Option.all_some, Bool.and_eq_true] at hp
      simp only [parseU64_of_fits hp.1, parseU64_of_fits hp.2]
      cases hf : (trim first).isEmpty with
      | true => cases number (trim last) <;> rfl
      | false =>
        cases hl : (trim last).isEmpty with
        | true => cases number (trim first) <;> rfl
        | false => cases number (trim first) <;> cases number (trim last) <;> rfl

namespace SubRange

variable {total : Nat} {range : SubRange}

theorem inside_iff : range.Inside total ↔
    0 ≤ (range.raw total).1 ∧ (range.raw total).1 < total := by
  cases range with
  | absolute first last => cases last <;> simp only [Inside, raw] <;> omega
  | suffix length =>
    simp only [Inside, raw]
    omega

theorem raw_reversed_iff (hinside : range.Inside total) :
    (range.raw total).2 < (range.raw total).1.toNat ↔ range.ReversedBy 2 := by
  cases range with
  | absolute first last =>
    cases last with
    | none =>
      simp only [Inside, raw, ReversedBy, iff_false] at *
      omega
    | some last =>
      simp only [Inside, raw, ReversedBy] at *
      split <;> omega
  | suffix length =>
    simp only [raw, ReversedBy, iff_false] at *
    omega

theorem raw_nonempty_iff (hinside : range.Inside total) :
    (range.raw total).1.toNat < (range.raw total).2 ↔ ¬range.ReversedBy 1 := by
  cases range with
  | absolute first last =>
    cases last with
    | none =>
      simp only [Inside, raw, ReversedBy, not_false_eq_true, iff_true] at *
      omega
    | some last =>
      simp only [Inside, raw, ReversedBy] at *
      split <;> omega
  | suffix length =>
    simp only [Inside, raw, ReversedBy, not_false_eq_true, iff_true] at *
    omega

theorem raw_le (range : SubRange) : (range.raw total).2 ≤ total := by
  cases range with
  | absolute first last =>
    cases last with
    | none => exact Nat.le_refl _
    | some last =>
      simp only [raw]
      split <;> omega
  | suffix length => exact Nat.le_refl _

theorem requests_iff (hinside : range.Inside total) (point : Nat) :
    range.Requests total point ↔
      (range.raw total).1.toNat ≤ point ∧ point < (range.raw total).2 := by
  cases range with
  | absolute first last =>
    cases last with
    | none => simp [Requests, raw]
    | some last =>
      simp only [Requests, raw]
      split <;> omega
  | suffix length =>
    simp only [Requests, raw]
    omega

end SubRange

def servedRanges : RangeOutcome → Option (List (Nat × Nat))
  | .single start finish => some [(start, finish)]
  | .multi ranges => some ranges
  | .unsatisfiable | .malformed _ => none

theorem outcomeOf_cases (ranges : List (Nat × Nat)) :
    (∃ range, ranges = [range] ∧ outcomeOf ranges = .single range.1 range.2) ∨
      (ranges.length ≠ 1 ∧ outcomeOf ranges = .multi ranges) := by
  match ranges with
  | [] => exact .inr ⟨by decide, rfl⟩
  | [range] => exact .inl ⟨range, rfl, rfl⟩
  | _ :: _ :: rest => exact .inr ⟨by simp, rfl⟩

theorem servedRanges_outcomeOf (ranges : List (Nat × Nat)) :
    servedRanges (outcomeOf ranges) = some ranges := by
  rcases outcomeOf_cases ranges with ⟨range, rfl, ho⟩ | ⟨-, ho⟩ <;>
    rw [ho, servedRanges]

section Resolve

variable {total : Nat} {requested : List SubRange}

def halfOpen (totalLen : Nat) (requested : List SubRange) : List (Nat × Nat) :=
  requested.map fun range => ((range.raw totalLen).1.toNat, (range.raw totalLen).2)

theorem resolve_of_outside {outside : SubRange} (hmem : outside ∈ requested)
    (ho : ¬outside.Inside total) :
    resolve total (requested.map (SubRange.raw total)) = .unsatisfiable := by
  rw [resolve, if_neg, if_pos]
  · rw [any_map, any_eq_true]
    refine ⟨outside, hmem, ?_⟩
    rw [SubRange.inside_iff] at ho
    simp only [Function.comp, Bool.or_eq_true, decide_eq_true_eq]
    omega
  · simpa using ne_nil_of_mem hmem

theorem resolve_of_inside (hs : requested ≠ [])
    (hinside : ∀ range ∈ requested, range.Inside total) :
    resolve total (requested.map (SubRange.raw total)) =
      if (halfOpen total requested).any fun range => range.2 < range.1 then
        .malformed "Range header: start must be less than end"
      else outcomeOf ((coalesce (halfOpen total requested)).map inclusive) := by
  have hn : (requested.map (SubRange.raw total)).any (fun range =>
      range.1 < 0 || (total : Int) ≤ range.1) = false := by
    rw [any_map, any_eq_false]
    intro range hmem
    have hr := SubRange.inside_iff.1 (hinside range hmem)
    simp only [Function.comp, Bool.or_eq_true, decide_eq_true_eq]
    omega
  rw [resolve, if_neg (by simpa using hs), hn]
  simp only [map_map]
  rfl

variable (hi : ∀ range ∈ requested, range.Inside total)
include hi

theorem reversed_any_iff :
    ((halfOpen total requested).any fun range => range.2 < range.1) = true ↔
      ∃ range ∈ requested, range.ReversedBy 2 := by
  rw [halfOpen, any_map, any_eq_true]
  refine exists_congr fun range => and_congr_right fun hmem => ?_
  simp only [Function.comp, decide_eq_true_eq]
  exact SubRange.raw_reversed_iff (hi range hmem)

private theorem covered_halfOpen_iff (point : Nat) :
    Covered (halfOpen total requested) point ↔
      ∃ range ∈ requested, range.Requests total point := by
  simp only [Covered, halfOpen, mem_map, exists_exists_and_eq_and]
  exact exists_congr fun range => and_congr_right fun hmem =>
    (SubRange.requests_iff (hi range hmem) point).symm

theorem coalesce_halfOpen (ho : ∀ range ∈ requested, ¬range.ReversedBy 1) :
    Apart total (coalesce (halfOpen total requested)) ∧
      ∀ point, Covered (coalesce (halfOpen total requested)) point ↔
        ∃ range ∈ requested, range.Requests total point := by
  have hintervals : ∀ interval ∈ halfOpen total requested,
      interval.1 < interval.2 ∧ interval.2 ≤ total := by
    intro interval hmem
    obtain ⟨range, hr, rfl⟩ := mem_map.1 hmem
    exact ⟨(SubRange.raw_nonempty_iff (hi range hr)).2 (ho range hr), range.raw_le⟩
  obtain ⟨ha, hc⟩ := coalesce_spec hintervals
  exact ⟨ha, fun point => (hc point).trans (covered_halfOpen_iff hi point)⟩

end Resolve

def requestedRanges (header : String) : List SubRange :=
  (subRanges header).filterMap wellFormed

/-- What a `Range` header and a file of `totalLen` bytes are answered with: a sub-range that
ends before it starts is refused, and the ranges that are served are in order within the
file, apart from each other, and what was requested. -/
structure Answered (header : String) (totalLen : Nat) : Prop where
  rejects : (∃ range ∈ requestedRanges header, range.ReversedBy 1) →
    (∀ range ∈ requestedRanges header, range.Inside totalLen) →
    ∃ reason, parseByteRanges header totalLen = .malformed reason
  bounds : ∀ ranges, servedRanges (parseByteRanges header totalLen) = some ranges →
    ∀ range ∈ ranges, range.1 ≤ range.2 ∧ range.2 < totalLen
  several : ∀ ranges, parseByteRanges header totalLen = .multi ranges →
    2 ≤ ranges.length ∧ ranges.Pairwise fun first second => first.2 + 1 < second.1
  union : ∀ ranges, servedRanges (parseByteRanges header totalLen) = some ranges →
    ∀ point, (∃ range ∈ ranges, range.1 ≤ point ∧ point ≤ range.2) ↔
      ∃ range ∈ requestedRanges header, range.Requests totalLen point
  lengths : ∀ ranges, servedRanges (parseByteRanges header totalLen) = some ranges →
    ∀ range ∈ ranges, rangeLength range.1 range.2 = range.2 - range.1 + 1

section Header

variable {header : String} {totalLen : Nat}

theorem parseByteRanges_eq (hu : unitOf header = some "bytes".toList)
    (hp : (subRanges header).all plainPart = true) (ht : 0 < totalLen) :
    parseByteRanges header totalLen =
      resolve totalLen ((requestedRanges header).map (SubRange.raw totalLen)) := by
  obtain ⟨⟨unit, rest⟩, hcut, hb⟩ := Option.map_eq_some_iff.1 hu
  have hparts : subRanges header = splitChars ',' (trim rest) := by rw [subRanges, hcut]
  rw [requestedRanges, hparts, map_filterMap]
  rw [hparts, all_eq_true] at hp
  rw [parseByteRanges, hcut]
  dsimp only
  rw [if_neg (not_not.2 hb), if_neg (Nat.ne_of_gt ht)]
  congr 1
  exact filterMap_congr fun part hmem => readSubRange_of_plain totalLen (hp part hmem)

theorem answered_of_not_served (hs : servedRanges (parseByteRanges header totalLen) = none)
    (hr : (∃ range ∈ requestedRanges header, range.ReversedBy 1) →
      (∀ range ∈ requestedRanges header, range.Inside totalLen) →
      ∃ reason, parseByteRanges header totalLen = .malformed reason) :
    Answered header totalLen where
  rejects := hr
  bounds := by simp [hs]
  several ranges hm := by simp [hm, servedRanges] at hs
  union := by simp [hs]
  lengths := by simp [hs]

private theorem rangeLength_eq {range : Nat × Nat} (hle : range.1 ≤ range.2)
    (hlt : range.2 < 18446744073709551615) :
    rangeLength range.1 range.2 = range.2 - range.1 + 1 := by
  unfold rangeLength
  omega

private theorem answered_of_ordered (ht : totalLen < 18446744073709551616)
    (hsome : requestedRanges header ≠ []) (hp : parseByteRanges header totalLen =
      outcomeOf ((coalesce (halfOpen totalLen (requestedRanges header))).map inclusive))
    (hinside : ∀ range ∈ requestedRanges header, range.Inside totalLen)
    (ho : ∀ range ∈ requestedRanges header, ¬range.ReversedBy 1) : Answered header totalLen := by
  obtain ⟨⟨hn, hw, hg⟩, hc⟩ := coalesce_halfOpen hinside ho
  generalize coalesce (halfOpen totalLen (requestedRanges header)) = merged at *
  have hs : servedRanges (parseByteRanges header totalLen) = some (merged.map inclusive) := by
    rw [hp, servedRanges_outcomeOf]
  have hb : ∀ range ∈ merged.map inclusive, range.1 ≤ range.2 ∧ range.2 < totalLen := by
    intro range hmem
    obtain ⟨interval, hinterval, rfl⟩ := mem_map.1 hmem
    have hlt := hn interval hinterval
    have hle := hw interval hinterval
    simp only [inclusive]
    omega
  constructor
  case rejects =>
    rintro ⟨range, hmem, hreversed⟩
    exact absurd hreversed (ho range hmem)
  case bounds =>
    intro ranges hr
    cases hs.symm.trans hr
    exact hb
  case several =>
    intro ranges hm
    have hr : merged.map inclusive = ranges := by
      rw [hm] at hs
      exact (Option.some.inj hs).symm
    subst hr
    rcases outcomeOf_cases (merged.map inclusive) with ⟨range, -, hsingle⟩ | ⟨hl, -⟩
    · rw [hp, hsingle] at hm
      cases hm
    · constructor
      · -- The first sub-range requests a byte, so something is served.
        have he : merged ≠ [] := by
          rintro rfl
          obtain ⟨range, hmem⟩ := exists_mem_of_ne_nil _ hsome
          have hlt := (SubRange.raw_nonempty_iff (hinside range hmem)).2 (ho range hmem)
          have hpoint := (hc _).2 ⟨range, hmem,
            (SubRange.requests_iff (hinside range hmem) _).2 ⟨Nat.le_refl _, hlt⟩⟩
          simp [Covered] at hpoint
        have hpos := length_pos_iff.2 he
        rw [length_map] at hl ⊢
        omega
      · rw [pairwise_map]
        refine hg.imp_of_mem fun hf _ hgap => ?_
        have hlt := hn _ hf
        simp only [inclusive]
        omega
  case union =>
    intro ranges hr point
    cases hs.symm.trans hr
    rw [← hc point]
    simp only [mem_map, exists_exists_and_eq_and, inclusive]
    refine exists_congr fun interval => and_congr_right fun hinterval => ?_
    have hlt := hn interval hinterval
    omega
  case lengths =>
    intro ranges hr range hmem
    cases hs.symm.trans hr
    have hrange := hb range hmem
    exact rangeLength_eq hrange.1 (by omega)

/-- For sub-ranges without a plus sign and within `u64` the answer is right exactly if none
of them ends right before it starts, or the request is refused for another one. -/
theorem answered_iff (hunit : unitOf header = some "bytes".toList)
    (hplain : (subRanges header).all plainPart = true) (hpos : 0 < totalLen)
    (htotal : totalLen < 18446744073709551616) :
    Answered header totalLen ↔
      (∀ range ∈ requestedRanges header, range.ReversedBy 1 → range.ReversedBy 2) ∨
        (∃ range ∈ requestedRanges header, ¬range.Inside totalLen) ∨
        ∃ range ∈ requestedRanges header, range.ReversedBy 2 := by
  have hp := parseByteRanges_eq hunit hplain hpos
  by_cases ho : ∃ range ∈ requestedRanges header, ¬range.Inside totalLen
  · obtain ⟨range, hmem, hrange⟩ := ho
    rw [resolve_of_outside hmem hrange] at hp
    refine iff_of_true (answered_of_not_served (by rw [hp, servedRanges]) ?_)
      (.inr (.inl ⟨range, hmem, hrange⟩))
    exact fun _ hinside => absurd (hinside range hmem) hrange
  · have hinside : ∀ range ∈ requestedRanges header, range.Inside totalLen := by
      simpa using ho
    by_cases hs : requestedRanges header = []
    · rw [hs] at hp
      refine iff_of_true (answered_of_not_served (by rw [hp]; rfl) ?_) (.inl (by simp [hs]))
      exact fun _ _ => ⟨_, hp⟩
    · rw [resolve_of_inside hs hinside] at hp
      by_cases hr : ∃ range ∈ requestedRanges header, range.ReversedBy 2
      · rw [if_pos ((reversed_any_iff hinside).2 hr)] at hp
        refine iff_of_true (answered_of_not_served (by rw [hp, servedRanges]) ?_)
          (.inr (.inr hr))
        exact fun _ _ => ⟨_, hp⟩
      · rw [if_neg fun hany => hr ((reversed_any_iff hinside).1 hany)] at hp
        constructor
        · intro ha
          refine .inl fun range hmem hone => ?_
          obtain ⟨reason, hreason⟩ := ha.rejects ⟨range, hmem, hone⟩ hinside
          have hserved := servedRanges_outcomeOf
            ((coalesce (halfOpen totalLen (requestedRanges header))).map inclusive)
          rw [← hp, hreason] at hserved
          cases hserved
        · rintro (hordered | hother | htwo)
          · exact answered_of_ordered htotal hs hp hinside fun range hmem hone =>
              hr ⟨range, hmem, hordered range hmem hone⟩
          · exact absurd hother ho
          · exact absurd htwo hr

end Header

theorem four_ranges_answered : Answered "bytes=0-1,4-5, 3-4,-1" 10 := by
  have hr : requestedRanges "bytes=0-1,4-5, 3-4,-1" =
      [.absolute 0 (some 1), .absolute 4 (some 5), .absolute 3 (some 4), .suffix 1] := by
    decide
  refine (answered_iff (by decide) (by decide) (by decide) (by decide)).2 (.inl ?_)
  rw [hr]
  simp [SubRange.ReversedBy]

/-- A sub-range that ends right before it starts is served, with a length that wraps around
to nothing; a number beyond `u64` is dropped with its sub-range; and a plus sign is taken. -/
theorem reversed_by_one_served :
    parseByteRanges "bytes=5-4" 10 = .single 5 4 ∧ rangeLength 5 4 = 0 ∧
      parseByteRanges "bytes=0-1,5-18446744073709551616" 10 = .single 0 1 ∧
      parseByteRanges "bytes=0-1,+5-6" 10 = .multi [(0, 1), (5, 6)] ∧
      requestedRanges "bytes=0-1,+5-6" = [.absolute 0 (some 1)] := by
  decide

end FastapiTurbo.ByteRanges
