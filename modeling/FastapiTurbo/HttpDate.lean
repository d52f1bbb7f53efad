import Mathlib.Tactic.IntervalCases
import Mathlib.Logic.Function.Iterate
import FastapiTurbo.Lib.Codec

/-! The date in a `Last-Modified` header (`format_http_date` and `days_to_ymd`,
`responses.rs`) against the proleptic Gregorian calendar. -/
namespace FastapiTurbo.HttpDate

open Lib Option

section Calendar

structure Date where
  year : Int
  month : Nat
  day : Nat
  deriving DecidableEq

def leapDay (year : Int) : Nat :=
  if year % 4 = 0 ∧ (year % 100 ≠ 0 ∨ year % 400 = 0) then 1 else 0

def monthLength (year : Int) : Nat → Nat
  | 0 => 0
  | 2 => 28 + leapDay year
  | 4 | 6 | 9 | 11 => 30
  | _ => 31

structure Date.Valid (date : Date) : Prop where
  month_pos : 1 ≤ date.month
  month_le : date.month ≤ 12
  day_pos : 1 ≤ date.day
  day_le : date.day ≤ monthLength date.year date.month

def Date.next (date : Date) : Date :=
  if date.day < monthLength date.year date.month then { date with day := date.day + 1 }
  else if date.month < 12 then ⟨date.year, date.month + 1, 1⟩
  else ⟨date.year + 1, 1, 1⟩

def epoch : Date := ⟨1970, 1, 1⟩

def daysBeforeYear (year : Int) : Int :=
  365 * (year - 1) + (year - 1) / 4 - (year - 1) / 100 + (year - 1) / 400

def daysBeforeMonth (year : Int) : Nat → Nat
  | 0 => 0
  | month + 1 => daysBeforeMonth year month + monthLength year month

def Date.dayNumber (date : Date) : Int :=
  daysBeforeYear date.year - daysBeforeYear 1970 + daysBeforeMonth date.year date.month +
    date.day - 1

inductive Weekday where
  | sun
  | mon
  | tue
  | wed
  | thu
  | fri
  | sat

def Weekday.next : Weekday → Weekday
  | .sun => .mon
  | .mon => .tue
  | .tue => .wed
  | .wed => .thu
  | .thu => .fri
  | .fri => .sat
  | .sat => .sun

def Weekday.name : Weekday → List Char
  | .sun => "Sun".toList
  | .mon => "Mon".toList
  | .tue => "Tue".toList
  | .wed => "Wed".toList
  | .thu => "Thu".toList
  | .fri => "Fri".toList
  | .sat => "Sat".toList

theorem daysBeforeYear_succ (year : Int) :
    daysBeforeYear (year + 1) = daysBeforeYear year + 365 + leapDay year := by
  unfold daysBeforeYear leapDay
  split <;> omega

theorem daysBeforeMonth_thirteen (year : Int) : daysBeforeMonth year 13 = 365 + leapDay year := by
  simp [daysBeforeMonth, monthLength]
  omega

theorem daysBeforeMonth_le (year : Int) {month later : Nat} (hl : month < later) :
    daysBeforeMonth year month + monthLength year month ≤ daysBeforeMonth year later := by
  induction later with
  | zero => omega
  | succ later ih =>
    rcases Nat.lt_succ_iff_lt_or_eq.1 hl with hlt | rfl
    · exact (ih hlt).trans (Nat.le_add_right _ _)
    · exact le_rfl

theorem daysBeforeYear_mono {year later : Int} (hle : year ≤ later) :
    daysBeforeYear year ≤ daysBeforeYear later := by
  unfold daysBeforeYear
  omega

theorem Date.dayNumber_next {date : Date} (hv : date.Valid) :
    date.next.dayNumber = date.dayNumber + 1 := by
  obtain ⟨year, month, day⟩ := date
  obtain ⟨hpos, hle, hday, hl⟩ := hv
  unfold Date.next
  split
  · simp only [Date.dayNumber]
    omega
  next hla =>
    split
    next hm =>
      simp only [Date.dayNumber, daysBeforeMonth] at *
      omega
    next hm =>
      obtain rfl : month = 12 := by simp only at *; omega
      have hy := daysBeforeMonth_thirteen year
      simp only [Date.dayNumber, daysBeforeYear_succ, daysBeforeMonth, monthLength] at *
      omega

private theorem monthLength_pos (year : Int) {month : Nat} (hm : 1 ≤ month) :
    1 ≤ monthLength year month := by
  unfold monthLength
  split <;> omega

theorem Date.Valid.next {date : Date} (hv : date.Valid) : date.next.Valid := by
  unfold Date.next
  split
  next hl => exact ⟨hv.month_pos, hv.month_le, by simp, hl⟩
  next hl =>
    split
    next hm => exact ⟨by simp, hm, le_rfl, monthLength_pos _ (by simp)⟩
    next => exact ⟨le_rfl, by simp, le_rfl, monthLength_pos _ le_rfl⟩

theorem Date.Valid.within {date : Date} (hv : date.Valid) :
    daysBeforeMonth date.year date.month + date.day ≤ 365 + leapDay date.year := by
  have hy := daysBeforeMonth_le date.year (Nat.lt_succ_of_le hv.month_le)
  have hday := hv.day_le
  rw [daysBeforeMonth_thirteen] at hy
  omega

theorem Date.Valid.year_le {date other : Date} (hv : date.Valid) (ho : other.Valid)
    (hs : date.dayNumber = other.dayNumber) : date.year ≤ other.year := by
  by_contra hlt
  have hm := daysBeforeYear_mono (Int.add_one_le_of_lt (not_le.1 hlt))
  have hw := ho.within
  have hday := hv.day_pos
  rw [daysBeforeYear_succ] at hm
  unfold Date.dayNumber at hs
  omega

theorem Date.Valid.month_le_of_same {date other : Date} (ho : other.Valid) (hv : date.Valid)
    (hy : date.year = other.year) (hs : date.dayNumber = other.dayNumber) :
    date.month ≤ other.month := by
  by_contra hlt
  have hm := daysBeforeMonth_le other.year (not_le.1 hlt)
  have hday := hv.day_pos
  have hl := ho.day_le
  unfold Date.dayNumber at hs
  rw [hy] at hs
  omega

/-- A valid date is known by its distance. -/
theorem Date.Valid.eq_of_dayNumber {date other : Date} (hv : date.Valid) (ho : other.Valid)
    (hs : date.dayNumber = other.dayNumber) : date = other := by
  have hy := le_antisymm (hv.year_le ho hs) (ho.year_le hv hs.symm)
  have hm := le_antisymm (ho.month_le_of_same hv hy hs)
    (hv.month_le_of_same ho hy.symm hs.symm)
  obtain ⟨year, month, day⟩ := date
  obtain ⟨year', month', day'⟩ := other
  obtain rfl : year = year' := hy
  obtain rfl : month = month' := hm
  simp only [Date.dayNumber] at hs
  congr
  omega

theorem dateAt (n : Nat) : (Date.next^[n] epoch).Valid ∧ (Date.next^[n] epoch).dayNumber = n := by
  induction n with
  | zero => exact ⟨⟨by decide, by decide, by decide, by decide⟩, by decide⟩
  | succ n ih =>
    rw [Function.iterate_succ_apply']
    refine ⟨ih.1.next, ?_⟩
    rw [Date.dayNumber_next ih.1, ih.2]
    rfl

end Calendar

section Algorithm

/-- A value of the type `i64`; arithmetic that leaves the type has no value. -/
def i64 (value : Int) : Option Int :=
  if -9223372036854775808 ≤ value ∧ value < 9223372036854775808 then some value else none

def u64 (value : Int) : Option Int :=
  if 0 ≤ value ∧ value < 18446744073709551616 then some value else none

def u32 (value : Int) : Option Int :=
  if 0 ≤ value ∧ value < 4294967296 then some value else none

def daysToYmd (days : Int) : Option (Int × Nat × Nat) := do
  let z ← i64 (days + 719468)
  let era ← (if z ≥ 0 then i64 (z / 146097) else (i64 (z - 146096)).map (Int.tdiv · 146097))
  let doe ← (i64 (era * 146097)).bind fun past => i64 (z - past)
  -- The casts between the types keep what the types have in common.
  let doe := doe % 18446744073709551616
  let yoe ← (u64 (doe - doe / 1460)).bind fun whole =>
    (u64 (whole + doe / 36524)).bind fun whole => u64 (whole - doe / 146096)
  let yoe := yoe / 365
  let y ← (i64 (era * 400)).bind fun past => i64 (yoe + past)
  let before ← (u64 (365 * yoe)).bind fun whole =>
    (u64 (whole + yoe / 4)).bind fun whole => u64 (whole - yoe / 100)
  let doy ← u64 (doe - before)
  let mp ← (u64 (5 * doy)).bind fun whole => (u64 (whole + 2)).map (· / 153)
  let first ← (u64 (153 * mp)).bind fun whole => (u64 (whole + 2)).map (· / 5)
  let d ← (u64 (doy - first)).bind fun whole => u64 (whole + 1)
  let m ← (if mp < 10 then u64 (mp + 3) else u64 (mp - 9))
  let y ← (if m % 4294967296 ≤ 2 then i64 (y + 1) else some y)
  return (y, (m % 4294967296).toNat, (d % 4294967296).toNat)

theorem i64_eq {value : Int} (hlow : -9223372036854775808 ≤ value)
    (hh : value < 9223372036854775808) : i64 value = some value :=
  if_pos ⟨hlow, hh⟩

theorem u64_eq {value : Int} (hlow : 0 ≤ value) (hh : value < 18446744073709551616) :
    u64 value = some value :=
  if_pos ⟨hlow, hh⟩

/-- The century of a year of the era is that of the day. -/
theorem century_eq {doe yoe : Int} (hlow : 0 ≤ doe) (hh : doe < 146097)
    (hyoe : yoe = (doe - doe / 1460 + doe / 36524 - doe / 146096) / 365) :
    yoe / 100 = doe / 36524 - doe / 146096 := by
  obtain ⟨hl, hm⟩ : 0 ≤ doe / 36524 ∧ doe / 36524 ≤ 4 := by omega
  generalize hc : doe / 36524 = century at *
  interval_cases century <;> omega

/-- The years of an era begin in March; the leap day is the last of its year. -/
structure YearOfEra (doe yoe doy : Int) : Prop where
  year_nonneg : 0 ≤ yoe
  year_lt : yoe < 400
  day_eq : doy = doe - (365 * yoe + yoe / 4 - yoe / 100)
  day_nonneg : 0 ≤ doy
  day_le : doy ≤ 365
  leap : doy = 365 → (yoe + 1) % 4 = 0 ∧ ((yoe + 1) % 100 ≠ 0 ∨ yoe + 1 = 400)

theorem yearOfEra {doe yoe : Int} (hlow : 0 ≤ doe) (hh : doe < 146097)
    (hyoe : yoe = (doe - doe / 1460 + doe / 36524 - doe / 146096) / 365) :
    YearOfEra doe yoe (doe - (365 * yoe + yoe / 4 - yoe / 100)) := by
  have hc := century_eq hlow hh hyoe
  have hs : yoe = (doe - doe / 1460 + yoe / 100) / 365 := by omega
  have hn : 0 ≤ yoe := by omega
  have hlt : yoe < 400 := by omega
  obtain hq | hq | hq | hq : yoe / 100 = 0 ∨ yoe / 100 = 1 ∨ yoe / 100 = 2 ∨ yoe / 100 = 3 := by
    omega
  all_goals
    refine ⟨hn, hlt, by rw [hq], by omega, by omega, fun hl => ?_⟩
    obtain hr | hr | hr | hr : yoe % 4 = 0 ∨ yoe % 4 = 1 ∨ yoe % 4 = 2 ∨ yoe % 4 = 3 := by omega
    all_goals omega

/-- The month and the day, from the day of a year that begins in March. -/
theorem month_of_doy {year doy : Int} (hn : 0 ≤ doy) (hle : doy ≤ 365)
    (hl : doy = 365 → leapDay (year + 1) = 1) :
    ∃ date : Date, date.Valid ∧
      date.year = (if (5 * doy + 2) / 153 < 10 then year else year + 1) ∧
      (date.month : Int) = (if (5 * doy + 2) / 153 < 10 then (5 * doy + 2) / 153 + 3
        else (5 * doy + 2) / 153 - 9) ∧
      (date.day : Int) = doy - (153 * ((5 * doy + 2) / 153) + 2) / 5 + 1 ∧
      date.dayNumber = daysBeforeYear year - daysBeforeYear 1970 + 59 + leapDay year + doy := by
  have hs := daysBeforeYear_succ year
  generalize hmp : (5 * doy + 2) / 153 = mp
  obtain ⟨hlea, hm⟩ : 0 ≤ mp ∧ mp ≤ 11 := by omega
  refine ⟨⟨if mp < 10 then year else year + 1, (if mp < 10 then mp + 3 else mp - 9).toNat,
    (doy - (153 * mp + 2) / 5 + 1).toNat⟩, ?_⟩
  interval_cases mp
  all_goals
    refine ⟨⟨?_, ?_, ?_, ?_⟩, rfl, ?_, ?_, ?_⟩
    all_goals simp [Date.dayNumber, daysBeforeMonth, monthLength] <;> omega

theorem era_eq {z : Int} (hlow : -9223372036854629712 ≤ z) (hh : z < 9223372036854775808) :
    (if z ≥ 0 then i64 (z / 146097) else (i64 (z - 146096)).map (Int.tdiv · 146097)) =
      some (z / 146097) := by
  split
  next hn => exact i64_eq (by omega) (by omega)
  next hneg =>
    have hq : (z - 146096).tdiv 146097 = z / 146097 := by
      rw [← Int.neg_neg (z - 146096), Int.neg_tdiv, Int.tdiv_eq_ediv_of_nonneg (by omega)]
      omega
    rw [i64_eq (by omega) (by omega), map_some, hq]

theorem dayNumber_of_march {era yoe doy z : Int} (hy : YearOfEra (z - era * 146097) yoe doy) :
    daysBeforeYear (yoe + era * 400) - daysBeforeYear 1970 + 59 + leapDay (yoe + era * 400) + doy =
      z - 719468 := by
  obtain ⟨hn, hlt, hday, -, -, -⟩ := hy
  unfold daysBeforeYear leapDay
  split <;> omega

theorem bind_of_eq {α β : Type} {value : Option α} {a : α} {f : α → Option β}
    (hv : value = some a) : (value >>= f) = f a := by
  rw [hv]
  rfl

/-- No operation overflows, and the result is the valid date at the distance. -/
theorem daysToYmd_spec {days : Int} (hlow : -9223372036854775808 ≤ days)
    (hh : days < 9223372036854056340) :
    ∃ date : Date, date.Valid ∧ date.dayNumber = days ∧
      daysToYmd days = some (date.year, date.month, date.day) := by
  obtain ⟨z, hz⟩ : ∃ z, z = days + 719468 := ⟨_, rfl⟩
  obtain ⟨era, hera⟩ : ∃ era, era = z / 146097 := ⟨_, rfl⟩
  obtain ⟨doe, hdoe⟩ : ∃ doe, doe = z - era * 146097 := ⟨_, rfl⟩
  obtain ⟨yoe, hyoe⟩ : ∃ yoe, yoe = (doe - doe / 1460 + doe / 36524 - doe / 146096) / 365 :=
    ⟨_, rfl⟩
  have hy := yearOfEra (by omega) (by omega) hyoe
  obtain ⟨doy, hdoy⟩ : ∃ doy, doy = doe - (365 * yoe + yoe / 4 - yoe / 100) := ⟨_, rfl⟩
  rw [← hdoy] at hy
  have hle : doy = 365 → leapDay (yoe + era * 400 + 1) = 1 := by
    intro hl
    have hl := hy.leap hl
    exact if_pos (by omega)
  obtain ⟨date, hv, hyo, hm, hday, hn⟩ :=
    month_of_doy hy.day_nonneg hy.day_le hle
  rw [dayNumber_of_march (z := z) (by rwa [← hdoe])] at hn
  refine ⟨date, hv, by omega, ?_⟩
  obtain ⟨hyoe0, hyoe4, -, hdo, hdoy3, -⟩ := hy
  have he : -922337203685477580 ≤ era * 400 ∧ era * 400 < 922337203685477580 := by omega
  have hmod : doe % 18446744073709551616 = doe := by omega
  have hdp := hv.day_pos
  have hmp : 0 ≤ (5 * doy + 2) / 153 ∧ (5 * doy + 2) / 153 ≤ 11 := by omega
  refine (bind_of_eq (i64_eq (by omega) (by omega))).trans ?_
  rw [← hz]
  refine (bind_of_eq (era_eq (z := z) (by omega) (by omega))).trans ?_
  rw [← hera]
  refine (bind_of_eq (a := doe) ?_).trans ?_
  · rw [i64_eq (by omega) (by omega), bind_some, ← hdoe, i64_eq (by omega) (by omega)]
  rw [hmod]
  refine (bind_of_eq (a := doe - doe / 1460 + doe / 36524 - doe / 146096) ?_).trans ?_
  · rw [u64_eq (by omega) (by omega), bind_some, u64_eq (by omega) (by omega),
      bind_some, u64_eq (by omega) (by omega)]
  rw [← hyoe]
  refine (bind_of_eq (a := yoe + era * 400) ?_).trans ?_
  · rw [i64_eq (by omega) (by omega), bind_some, i64_eq (by omega) (by omega)]
  refine (bind_of_eq (a := 365 * yoe + yoe / 4 - yoe / 100) ?_).trans ?_
  · rw [u64_eq (by omega) (by omega), bind_some, u64_eq (by omega) (by omega),
      bind_some, u64_eq (by omega) (by omega)]
  refine (bind_of_eq (a := doy) ?_).trans ?_
  · rw [← hdoy, u64_eq (by omega) (by omega)]
  refine (bind_of_eq (a := (5 * doy + 2) / 153) ?_).trans ?_
  · rw [u64_eq (by omega) (by omega), bind_some, u64_eq (by omega) (by omega), map_some]
  generalize (5 * doy + 2) / 153 = mp at *
  refine (bind_of_eq (a := (153 * mp + 2) / 5) ?_).trans ?_
  · rw [u64_eq (by omega) (by omega), bind_some, u64_eq (by omega) (by omega), map_some]
  refine (bind_of_eq (a := (date.day : Int)) ?_).trans ?_
  · rw [u64_eq (by omega) (by omega), bind_some, u64_eq (by omega) (by omega), hday]
  refine (bind_of_eq (a := (date.month : Int)) ?_).trans ?_
  · rw [hm]
    split <;> exact u64_eq (by omega) (by omega)
  have hmo : (date.month : Int) % 4294967296 = date.month := by
    split at hm <;> omega
  refine (bind_of_eq (a := date.year) ?_).trans ?_
  · rw [hmo, hm, hyo]
    by_cases hten : mp < 10
    · rw [if_pos hten, if_pos hten, if_neg (by omega)]
    · rw [if_neg hten, if_neg hten, if_pos (by omega), i64_eq (by omega) (by omega)]
  have hd : (date.day : Int) % 4294967296 = date.day := by omega
  rw [hmo, hd]
  rfl

end Algorithm

section Text

def weekdayNames : List (List Char) :=
  [Weekday.sun, .mon, .tue, .wed, .thu, .fri, .sat].map Weekday.name

def monthNames : List (List Char) :=
  ["Jan".toList, "Feb".toList, "Mar".toList, "Apr".toList, "May".toList, "Jun".toList,
    "Jul".toList, "Aug".toList, "Sep".toList, "Oct".toList, "Nov".toList, "Dec".toList]

def padded (width number : Nat) : List Char :=
  let digits := Codec.decimal.encode number
  List.replicate (width - digits.length) '0' ++ digits

def paddedInt (width : Nat) (number : Int) : List Char :=
  if number < 0 then '-' :: padded (width - 1) number.natAbs else padded width number.natAbs

structure TimeOfDay where
  hour : Nat
  minute : Nat
  second : Nat

def TimeOfDay.text (time : TimeOfDay) : List Char :=
  padded 2 time.hour ++ ":".toList ++ padded 2 time.minute ++ ":".toList ++ padded 2 time.second

def dateText (dow : List Char) (day : Nat) (monthName : List Char) (year : Int)
    (time : TimeOfDay) : List Char :=
  dow ++ ", ".toList ++ padded 2 day ++ " ".toList ++ monthName ++ " ".toList ++
    paddedInt 4 year ++ " ".toList ++ time.text ++ " GMT".toList

def asI64 (value : Nat) : Int :=
  if value < 9223372036854775808 then value else value - 18446744073709551616

def formatHttpDate (secs : Nat) : Option (List Char) := do
  let days := secs / 86400
  let rem := secs % 86400
  let dowIdx ← u64 (days + 4)
  let dow ← weekdayNames[(dowIdx % 7).toNat]?
  let (year, month, day) ← daysToYmd (asI64 days)
  let monthIdx ← u32 (month - 1)
  let monthName ← monthNames[monthIdx.toNat]?
  return dateText dow day monthName year ⟨rem / 3600, rem % 3600 / 60, rem % 60⟩

structure Instant where
  date : Date
  weekday : Weekday
  time : TimeOfDay

def Instant.text (instant : Instant) : List Char :=
  dateText instant.weekday.name instant.date.day (monthNames.getD (instant.date.month - 1) [])
    instant.date.year instant.time

/-- The instant of a number of seconds since the epoch, which was a Thursday. -/
structure Instant.At (instant : Instant) (secs : Nat) : Prop where
  valid : instant.date.Valid
  distance : instant.date.dayNumber = (secs / 86400 : Nat)
  weekday : instant.weekday = Weekday.next^[secs / 86400] .thu
  minute : instant.time.minute < 60
  second : instant.time.second < 60
  time : 3600 * instant.time.hour + 60 * instant.time.minute + instant.time.second = secs % 86400

def Weekday.number : Weekday → Nat
  | .sun => 0
  | .mon => 1
  | .tue => 2
  | .wed => 3
  | .thu => 4
  | .fri => 5
  | .sat => 6

theorem number_iterate (days : Nat) : (Weekday.next^[days] .thu).number = (days + 4) % 7 := by
  induction days with
  | zero => rfl
  | succ days ih =>
    have hn (day : Weekday) : day.next.number = (day.number + 1) % 7 := by
      cases day <;> rfl
    rw [Function.iterate_succ_apply', hn]
    omega

theorem getElem?_weekdayNames (days : Nat) :
    weekdayNames[(days + 4) % 7]? = some (Weekday.next^[days] .thu).name := by
  rw [← number_iterate]
  cases Weekday.next^[days] .thu <;> rfl

theorem getElem?_monthNames {date : Date} (hv : date.Valid) :
    monthNames[date.month - 1]? = some (monthNames.getD (date.month - 1) []) := by
  have hlt : date.month - 1 < monthNames.length := by
    have hle := hv.month_le
    simp only [monthNames, List.length_cons]
    omega
  simp [List.getElem?_eq_getElem hlt]

theorem Instant.At.unique {secs : Nat} {instant other : Instant} (hat : instant.At secs)
    (ho : other.At secs) : other = instant := by
  obtain ⟨date, weekday, ⟨hour, minute, second⟩⟩ := instant
  obtain ⟨date', weekday', ⟨hour', minute', snd'⟩⟩ := other
  obtain rfl : date' = date :=
    ho.valid.eq_of_dayNumber hat.valid (ho.distance.trans hat.distance.symm)
  obtain rfl : weekday' = weekday := ho.weekday.trans hat.weekday.symm
  obtain ⟨-, -, -, hm, hs, ht⟩ := hat
  obtain ⟨-, -, -, hm', hs', ht'⟩ := ho
  simp only at hm hs ht hm' hs' ht'
  congr 2 <;> omega

/-- For every number of seconds the header has the text of the one instant at that
distance from the epoch; its date is what counting day by day from the epoch gives. -/
theorem http_date_correct {secs : Nat} (hsecs : secs < 18446744073709551616) :
    ∃ instant : Instant, instant.At secs ∧ (∀ other : Instant, other.At secs → other = instant) ∧
      instant.date = Date.next^[secs / 86400] epoch ∧
      daysToYmd (secs / 86400 : Nat) =
        some (instant.date.year, instant.date.month, instant.date.day) ∧
      formatHttpDate secs = some instant.text := by
  obtain ⟨date, hv, hn, hymd⟩ :=
    @daysToYmd_spec (secs / 86400 : Nat) (by omega) (by omega)
  have hat : Instant.At ⟨date, Weekday.next^[secs / 86400] .thu, secs % 86400 / 3600,
      secs % 86400 % 3600 / 60, secs % 86400 % 60⟩ secs :=
    ⟨hv, hn, rfl, by simp only; omega, by simp only; omega, by simp only; omega⟩
  refine ⟨_, hat, fun _ => hat.unique, ?_, hymd, ?_⟩
  · obtain ⟨hc, hd⟩ := dateAt (secs / 86400)
    exact hv.eq_of_dayNumber hc (hn.trans hd.symm)
  · have hm : u32 ((date.month : Int) - 1) = some ((date.month : Int) - 1) := by
      have hle := hv.month_le
      have hpos := hv.month_pos
      exact if_pos (by omega)
    have hin : ((date.month : Int) - 1).toNat = date.month - 1 := by omega
    have hi64 : asI64 (secs / 86400) = (secs / 86400 : Nat) := if_pos (by omega)
    have hdow : (((secs / 86400 : Nat) + 4 : Int) % 7).toNat = (secs / 86400 + 4) % 7 := by omega
    refine (bind_of_eq (u64_eq (by omega) (by omega))).trans ?_
    refine (bind_of_eq (hdow ▸ getElem?_weekdayNames _)).trans ?_
    refine (bind_of_eq (hi64 ▸ hymd)).trans ?_
    refine (bind_of_eq hm).trans ?_
    rw [hin]
    exact bind_of_eq (getElem?_monthNames hv)

/-- The date of the example in the comment of the source. -/
theorem sunday_header :
    formatHttpDate 784111777 = some "Sun, 06 Nov 1994 08:49:37 GMT".toList ∧
      ∃ instant : Instant, instant.At 784111777 ∧ formatHttpDate 784111777 = some instant.text := by
  obtain ⟨instant, hat, -, -, -, ht⟩ := @http_date_correct 784111777 (by decide)
  exact ⟨by decide +kernel, instant, hat, ht⟩

end Text

end FastapiTurbo.HttpDate
