import Mathlib.Data.List.Basic
import Mathlib.Tactic.NormNum

/- Date.prototype.toISOString on valid dates: days, years and months as ECMAScript computes
   them from the epoch, and the text made of them. Different dates have different texts. -/
namespace AstraPort

/-- The last digits of a number in decimal, as many as asked for. -/
def fixedDigits : (width n : Nat) → List Char
  | 0, _ => []
  | width + 1, n => fixedDigits width (n / 10) ++ [Nat.digitChar (n % 10)]

@[simp] theorem fixedDigits_length (width n : Nat) : (fixedDigits width n).length = width := by
  induction width generalizing n with
  | zero => rfl
  | succ width ih => simp [fixedDigits, ih]

theorem digitChar_inj {a b : Nat} (ha : a < 10) (hb : b < 10)
    (same : Nat.digitChar a = Nat.digitChar b) : a = b := by
  have back := congrArg Char.toNat same
  rw [Nat.toNat_digitChar_of_lt_ten ha, Nat.toNat_digitChar_of_lt_ten hb] at back
  omega

theorem fixedDigits_inj {width a b : Nat} (ha : a < 10 ^ width) (hb : b < 10 ^ width)
    (same : fixedDigits width a = fixedDigits width b) : a = b := by
  induction width generalizing a b with
  | zero => omega
  | succ width ih =>
    obtain ⟨front, last⟩ := List.append_inj' same rfl
    rw [Nat.pow_succ] at ha hb
    have tens : a / 10 = b / 10 :=
      ih (Nat.div_lt_of_lt_mul (by omega)) (Nat.div_lt_of_lt_mul (by omega)) front
    have units : a % 10 = b % 10 :=
      digitChar_inj (Nat.mod_lt _ (by omega)) (Nat.mod_lt _ (by omega)) (List.cons.inj last).1
    omega

namespace Calendar

def msPerDay : Int := 86400000

/-- Day number of the first day of a year. -/
def dayFromYear (year : Int) : Int :=
  365 * (year - 1970) + (year - 1969) / 4 - (year - 1901) / 100 + (year - 1601) / 400

/-- The last year that does not begin after the day; the mean length of a year misses it by
    one at most. -/
def yearFromDay (day : Int) : Int :=
  let guess := 1970 + day * 400 / 146097
  if day < dayFromYear guess then guess - 1
  else if dayFromYear (guess + 1) ≤ day then guess + 1
  else guess

def daysInYear (year : Int) : Int := dayFromYear (year + 1) - dayFromYear year

/-- Days of a year before each of its months. -/
def monthStarts (leap : Bool) : List Nat :=
  let extra := if leap then 1 else 0
  [0, 31, 59 + extra, 90 + extra, 120 + extra, 151 + extra, 181 + extra, 212 + extra, 243 + extra,
   273 + extra, 304 + extra, 334 + extra]

def isLeap (year : Int) : Bool := decide (daysInYear year = 366)

/-- Month and day of the month, both counted from one. -/
def monthAndDate (leap : Bool) (dayInYear : Nat) : Nat × Nat :=
  let month := (monthStarts leap).countP (· ≤ dayInYear)
  (month, dayInYear + 1 - (monthStarts leap).getD (month - 1) 0)

theorem dayFromYear_bounds (year : Int) :
    146097 * (year - 1970) - 506 ≤ 400 * dayFromYear year ∧
      400 * dayFromYear year ≤ 146097 * (year - 1970) + 589 := by
  unfold dayFromYear
  omega

theorem yearFromDay_bounds (day : Int) :
    dayFromYear (yearFromDay day) ≤ day ∧ day < dayFromYear (yearFromDay day + 1) := by
  unfold yearFromDay
  dsimp only
  generalize at_guess : 1970 + day * 400 / 146097 = guess
  have before := dayFromYear_bounds (guess - 1)
  have after := dayFromYear_bounds (guess + 1 + 1)
  split
  · rw [sub_add_cancel]
    omega
  · split <;> omega

theorem daysInYear_cases (year : Int) : daysInYear year = 365 ∨ daysInYear year = 366 := by
  unfold daysInYear dayFromYear
  omega

/- A day of a year is the start of its month and its date. -/
theorem monthAndDate_spec (leap : Bool) {dayInYear : Nat} (within : dayInYear < 366) :
    let split := monthAndDate leap dayInYear
    split.1 < 100 ∧ split.2 < 100 ∧
      dayInYear + 1 = (monthStarts leap).getD (split.1 - 1) 0 + split.2 := by
  have all : ∀ leap : Bool, ∀ day ∈ List.range 366, (monthAndDate leap day).1 < 100 ∧
      (monthAndDate leap day).2 < 100 ∧ day + 1 =
        (monthStarts leap).getD ((monthAndDate leap day).1 - 1) 0 + (monthAndDate leap day).2 := by
    decide +kernel
  exact all leap dayInYear (List.mem_range.mpr within)

end Calendar

open Calendar

/-- Years outside four digits are written with a sign and six. -/
def isoYear (year : Int) : List Char :=
  if 0 ≤ year ∧ year ≤ 9999 then fixedDigits 4 year.toNat
  else (if year < 0 then '-' else '+') :: fixedDigits 6 year.natAbs

def isoDay (day : Int) : List Char :=
  let year := yearFromDay day
  let split := monthAndDate (isLeap year) (day - dayFromYear year).toNat
  isoYear year ++ '-' :: fixedDigits 2 split.1 ++ '-' :: fixedDigits 2 split.2

/-- Time of day, in milliseconds since midnight. -/
def isoClock (time : Nat) : List Char :=
  fixedDigits 2 (time / 3600000) ++ ':' :: fixedDigits 2 (time / 60000 % 60) ++
    ':' :: fixedDigits 2 (time / 1000 % 60) ++ '.' :: fixedDigits 3 (time % 1000)

/-- toISOString of the date so many milliseconds from the epoch. -/
def isoChars (time : Int) : List Char :=
  isoDay (time / msPerDay) ++ 'T' :: isoClock (time % msPerDay).toNat ++ ['Z']

def isoText (time : Int) : String := String.ofList (isoChars time)

section Injectivity

theorem isoYear_inj {a b : Int} (ha : a.natAbs < 10 ^ 6) (hb : b.natAbs < 10 ^ 6)
    (same : isoYear a = isoYear b) : a = b := by
  unfold isoYear at same
  by_cases short : 0 ≤ a ∧ a ≤ 9999 <;> by_cases short' : 0 ≤ b ∧ b ≤ 9999
  · rw [if_pos short, if_pos short'] at same
    have digits := fixedDigits_inj (by omega) (by omega) same
    omega
  · rw [if_pos short, if_neg short'] at same
    have lengths := congrArg List.length same
    simp at lengths
  · rw [if_neg short, if_pos short'] at same
    have lengths := congrArg List.length same
    simp at lengths
  · rw [if_neg short, if_neg short'] at same
    obtain ⟨sign, digits⟩ := List.cons.inj same
    have size := fixedDigits_inj ha hb digits
    by_cases negative : a < 0 <;> by_cases negative' : b < 0 <;> simp [negative, negative'] at sign
    all_goals omega

theorem yearFromDay_range {day : Int} (low : -100000000 ≤ day) (high : day ≤ 100000000) :
    (yearFromDay day).natAbs < 10 ^ 6 := by
  obtain ⟨begun, open_still⟩ := yearFromDay_bounds day
  have first := dayFromYear_bounds (yearFromDay day)
  have next := dayFromYear_bounds (yearFromDay day + 1)
  omega

/-- Days since the first of January. -/
theorem dayInYear_lt (day : Int) : (day - dayFromYear (yearFromDay day)).toNat < 366 := by
  obtain ⟨begun, open_still⟩ := yearFromDay_bounds day
  have length := daysInYear_cases (yearFromDay day)
  unfold daysInYear at length
  omega

theorem isoDay_inj {a b : Int} (ha : -100000000 ≤ a ∧ a ≤ 100000000)
    (hb : -100000000 ≤ b ∧ b ≤ 100000000) (same : isoDay a = isoDay b) : a = b := by
  unfold isoDay at same
  obtain ⟨front, dates⟩ := List.append_inj' same (by simp)
  obtain ⟨years, months⟩ := List.append_inj' front (by simp)
  have year := isoYear_inj (yearFromDay_range ha.1 ha.2) (yearFromDay_range hb.1 hb.2) years
  have specA := monthAndDate_spec (isLeap (yearFromDay a)) (dayInYear_lt a)
  have specB := monthAndDate_spec (isLeap (yearFromDay b)) (dayInYear_lt b)
  have month := fixedDigits_inj specA.1 specB.1 (List.cons.inj months).2
  have date := fixedDigits_inj specA.2.1 specB.2.1 (List.cons.inj dates).2
  have days := specA.2.2
  rw [month, date, year, ← specB.2.2, ← year] at days
  have begunA := (yearFromDay_bounds a).1
  have begunB := (yearFromDay_bounds b).1
  rw [year] at begunA days
  omega

theorem isoClock_inj {a b : Nat} (ha : a < 86400000) (hb : b < 86400000)
    (same : isoClock a = isoClock b) : a = b := by
  unfold isoClock at same
  obtain ⟨front, millis⟩ := List.append_inj' same (by simp)
  obtain ⟨front, seconds⟩ := List.append_inj' front (by simp)
  obtain ⟨hours, minutes⟩ := List.append_inj' front (by simp)
  have hour := fixedDigits_inj (by omega) (by omega) hours
  have minute := fixedDigits_inj (by omega) (by omega) (List.cons.inj minutes).2
  have second := fixedDigits_inj (by omega) (by omega) (List.cons.inj seconds).2
  have milli := fixedDigits_inj (by omega) (by omega) (List.cons.inj millis).2
  omega

theorem isoClock_length (time : Nat) : (isoClock time).length = 12 := by simp [isoClock]

theorem isoChars_inj {a b : Int} (ha : -8640000000000000 ≤ a ∧ a ≤ 8640000000000000)
    (hb : -8640000000000000 ≤ b ∧ b ≤ 8640000000000000) (same : isoChars a = isoChars b) :
    a = b := by
  unfold isoChars msPerDay at same
  obtain ⟨front, _⟩ := List.append_inj' same rfl
  obtain ⟨days, clocks⟩ := List.append_inj' front (by simp [isoClock_length])
  have day := isoDay_inj (by omega) (by omega) days
  have clock := isoClock_inj (by omega) (by omega) (List.cons.inj clocks).2
  omega

end Injectivity

/-- A Date whose time value is not NaN. -/
structure Date where
  time : Int
  valid : -8640000000000000 ≤ time ∧ time ≤ 8640000000000000
  deriving DecidableEq

namespace Date

def epoch : Date := ⟨0, by decide⟩

def toISOString (date : Date) : String := isoText date.time

def weekdays : List String := ["Sun", "Mon", "Tue", "Wed", "Thu", "Fri", "Sat"]

def months : List String :=
  ["Jan", "Feb", "Mar", "Apr", "May", "Jun", "Jul", "Aug", "Sep", "Oct", "Nov", "Dec"]

/-- toUTCString: years are written with four digits at least. -/
def toUTCString (date : Date) : String :=
  let day := date.time / msPerDay
  let clock := (date.time % msPerDay).toNat
  let year := yearFromDay day
  let split := monthAndDate (isLeap year) (day - dayFromYear year).toNat
  let digits := if year.natAbs < 10000 then fixedDigits 4 year.natAbs else Nat.toDigits 10 year.natAbs
  weekdays.getD ((day + 4) % 7).toNat "" ++ ", " ++ String.ofList (fixedDigits 2 split.2) ++ " " ++
    months.getD (split.1 - 1) "" ++ " " ++ (if year < 0 then "-" else "") ++ String.ofList digits ++
    " " ++ String.ofList (fixedDigits 2 (clock / 3600000) ++ ':' ::
      fixedDigits 2 (clock / 60000 % 60) ++ ':' :: fixedDigits 2 (clock / 1000 % 60)) ++ " GMT"

theorem toISOString_inj {a b : Date} : a.toISOString = b.toISOString ↔ a = b := by
  constructor
  · intro same
    have times := isoChars_inj a.valid b.valid (String.ofList_injective same)
    cases a
    cases b
    simpa using times
  · rintro rfl
    rfl

end Date

example : isoText 1700000000123 = "2023-11-14T22:13:20.123Z" := by decide +kernel

example : (Date.mk 1700000000123 (by decide)).toUTCString = "Tue, 14 Nov 2023 22:13:20 GMT" := by
  decide +kernel

end AstraPort
