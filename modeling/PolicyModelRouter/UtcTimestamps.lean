import PolicyModelRouter.DigitStrings
import Mathlib.Data.String.Basic
import Mathlib.Order.Basic

/-!
# UTC timestamps

Instants of the proleptic Gregorian calendar in microseconds, in the range a
`datetime` can hold: the years 1 to 9999. Adding a duration leaves the range or
stays in it. The ISO text of an instant determines it.
-/

namespace UtcTimestamps
open DigitStrings

def microsPerSecond : ℕ := 1000000

def microsPerDay : ℕ := 86400 * microsPerSecond

/-- The number of days from the first of January of the year 1 to the end of the year 9999. -/
def calendarDays : ℕ := 3652059

/-- An instant, in microseconds since the first of January of the year 1. -/
structure Datetime where
  micros : ℕ
  inRange : micros < calendarDays * microsPerDay
  deriving DecidableEq

namespace Datetime

instance : LT Datetime := ⟨fun a b => a.micros < b.micros⟩
instance : LE Datetime := ⟨fun a b => a.micros ≤ b.micros⟩
instance : DecidableLT Datetime := fun a b => inferInstanceAs (Decidable (a.micros < b.micros))
instance : DecidableLE Datetime := fun a b => inferInstanceAs (Decidable (a.micros ≤ b.micros))

theorem lt_def {a b : Datetime} : a < b ↔ a.micros < b.micros := Iff.rfl

theorem le_def {a b : Datetime} : a ≤ b ↔ a.micros ≤ b.micros := Iff.rfl

theorem ext_micros {a b : Datetime} (h : a.micros = b.micros) : a = b := by
  cases a
  cases b
  cases h
  rfl

def plusSeconds (d : Datetime) (seconds : ℕ) : Option Datetime :=
  if h : d.micros + seconds * microsPerSecond < calendarDays * microsPerDay then
    some ⟨d.micros + seconds * microsPerSecond, h⟩
  else none

def minusSeconds (d : Datetime) (seconds : ℕ) : Option Datetime :=
  if seconds * microsPerSecond ≤ d.micros then
    some ⟨d.micros - seconds * microsPerSecond, lt_of_le_of_lt (Nat.sub_le _ _) d.inRange⟩
  else none

theorem plusSeconds_eq_some {d e : Datetime} {seconds : ℕ} :
    d.plusSeconds seconds = some e ↔ e.micros = d.micros + seconds * microsPerSecond := by
  unfold plusSeconds
  split
  · rw [Option.some.injEq]
    constructor
    · rintro rfl
      rfl
    · intro h
      exact ext_micros h.symm
  · rename_i hrange
    constructor
    · simp
    · intro h
      exact absurd (h ▸ e.inRange) hrange

theorem minusSeconds_eq_some {d e : Datetime} {seconds : ℕ} :
    d.minusSeconds seconds = some e ↔ d.micros = e.micros + seconds * microsPerSecond := by
  unfold minusSeconds
  split
  · rw [Option.some.injEq]
    constructor
    · rintro rfl
      simp only
      omega
    · intro h
      exact ext_micros (by simp only; omega)
  · rename_i hrange
    constructor
    · simp
    · intro h
      omega

end Datetime

/-- The year of a day of the calendar, and the day's place in that year from zero. The
quotients are capped because the last day of a cycle would count as a year of its own. -/
def yearAndDay (n : ℕ) : ℕ × ℕ :=
  let n400 := n / 146097
  let r400 := n % 146097
  let n100 := min (r400 / 36524) 3
  let r100 := r400 - n100 * 36524
  let n4 := r100 / 1461
  let r4 := r100 % 1461
  let n1 := min (r4 / 365) 3
  (400 * n400 + 100 * n100 + 4 * n4 + n1 + 1, r4 - n1 * 365)

def daysBeforeYear (year : ℕ) : ℕ :=
  let y := year - 1
  y * 365 + y / 4 - y / 100 + y / 400

def isLeap (year : ℕ) : Bool := year % 4 = 0 ∧ (year % 100 ≠ 0 ∨ year % 400 = 0)

def monthLengths (year : ℕ) : List ℕ :=
  [31, if isLeap year then 29 else 28, 31, 30, 31, 30, 31, 31, 30, 31, 30, 31]

/-- The month and the day of the month, by walking over the months from `month` on. -/
def monthAndDay : List ℕ → ℕ → ℕ → ℕ × ℕ
  | [], month, n => (month, n + 1)
  | length :: rest, month, n =>
    if n < length then (month, n + 1) else monthAndDay rest (month + 1) (n - length)

/-- How a day falls into cycles of 400, 100, 4 and 1 years. A place outside the shorter
cycle is the last day of a leap cycle. -/
theorem yearAndDay_cycles (n : ℕ) :
    ∃ c400 c100 c4 c1 day, c100 ≤ 3 ∧ c4 ≤ 24 ∧ c1 ≤ 3 ∧
      yearAndDay n = (400 * c400 + 100 * c100 + 4 * c4 + c1 + 1, day) ∧
      n = 146097 * c400 + 36524 * c100 + 1461 * c4 + 365 * c1 + day ∧
      (day < 365 ∨ day = 365 ∧ c1 = 3 ∧ (c4 < 24 ∨ c100 = 3)) := by
  refine ⟨_, _, _, _, _, ?_, ?_, ?_, rfl, ?_, ?_⟩ <;> omega

theorem daysBeforeYear_cycles {c400 c100 c4 c1 : ℕ} (h100 : c100 ≤ 3) (h4 : c4 ≤ 24) (h1 : c1 ≤ 3) :
    daysBeforeYear (400 * c400 + 100 * c100 + 4 * c4 + c1 + 1) =
      146097 * c400 + 36524 * c100 + 1461 * c4 + 365 * c1 := by
  have h4 : (400 * c400 + 100 * c100 + 4 * c4 + c1) / 4 = 100 * c400 + 25 * c100 + c4 := by omega
  have h100 : (400 * c400 + 100 * c100 + 4 * c4 + c1) / 100 = 4 * c400 + c100 := by omega
  have h400 : (400 * c400 + 100 * c100 + 4 * c4 + c1) / 400 = c400 := by omega
  simp only [daysBeforeYear, Nat.add_sub_cancel, h4, h100, h400]
  omega

theorem daysBeforeYear_add (n : ℕ) : daysBeforeYear (yearAndDay n).1 + (yearAndDay n).2 = n := by
  obtain ⟨c400, c100, c4, c1, day, h100, h4, h1, hn, hdays, -⟩ := yearAndDay_cycles n
  rw [hn, daysBeforeYear_cycles h100 h4 h1]
  exact hdays.symm

theorem year_lt {n : ℕ} (h : n < calendarDays) : (yearAndDay n).1 < 10000 := by
  obtain ⟨c400, c100, c4, c1, day, h100, h4, h1, hn, hdays, -⟩ := yearAndDay_cycles n
  rw [hn]
  simp only [calendarDays] at *
  omega

theorem sum_monthLengths (year : ℕ) :
    (monthLengths year).sum = if isLeap year then 366 else 365 := by
  cases h : isLeap year <;> simp [monthLengths, h]

theorem day_lt (n : ℕ) : (yearAndDay n).2 < (monthLengths (yearAndDay n).1).sum := by
  obtain ⟨c400, c100, c4, c1, day, h100, h4, h1, hn, -, hday⟩ := yearAndDay_cycles n
  rw [sum_monthLengths, hn]
  rcases hday with hday | ⟨rfl, rfl, hleap⟩
  · simp only
    split <;> omega
  · have : isLeap (400 * c400 + 100 * c100 + 4 * c4 + 3 + 1) = true := by
      simp only [isLeap, decide_eq_true_eq]
      omega
    simp [this]

theorem month_le_monthAndDay (lengths : List ℕ) (month n : ℕ) :
    month ≤ (monthAndDay lengths month n).1 := by
  induction lengths generalizing month n with
  | nil => exact le_refl _
  | cons length rest ih =>
    rw [monthAndDay]
    split
    · exact le_refl _
    · exact (Nat.le_succ month).trans (ih (month + 1) (n - length))

/-- A day of the year falls into one of its months. -/
theorem monthAndDay_lt {lengths : List ℕ} (hlengths : ∀ l ∈ lengths, l ≤ 31) {month n : ℕ}
    (h : n < lengths.sum) :
    (monthAndDay lengths month n).1 < month + lengths.length ∧
      (monthAndDay lengths month n).2 ≤ 31 := by
  induction lengths generalizing month n with
  | nil => simp at h
  | cons length rest ih =>
    rw [monthAndDay]
    split
    · have hlength := hlengths length List.mem_cons_self
      simp only [List.length_cons]
      omega
    · have hsum : n - length < rest.sum := by
        rw [List.sum_cons] at h
        omega
      have hrest := @ih (fun l hl => hlengths l (List.mem_cons_of_mem _ hl)) (month + 1) _ hsum
      rw [List.length_cons]
      omega

/-- Within one year the month and its day determine the day of the year. -/
theorem monthAndDay_inj {lengths : List ℕ} {month a b : ℕ}
    (h : monthAndDay lengths month a = monthAndDay lengths month b) : a = b := by
  induction lengths generalizing month a b with
  | nil => simpa [monthAndDay] using h
  | cons length rest ih =>
    rw [monthAndDay, monthAndDay] at h
    split at h <;> split at h
    · simpa using h
    · have hle := month_le_monthAndDay rest (month + 1) (b - length)
      rw [← h] at hle
      simp only at hle
      omega
    · have hle := month_le_monthAndDay rest (month + 1) (a - length)
      rw [h] at hle
      simp only at hle
      omega
    · have hsub := ih h
      omega

def dateText (day : ℕ) : List Char :=
  let date := yearAndDay day
  let monthDay := monthAndDay (monthLengths date.1) 1 date.2
  padded 10 4 date.1 ++ '-' :: (padded 10 2 monthDay.1 ++ '-' :: padded 10 2 monthDay.2)

/-- Hour, minute, second and, when there are any, microseconds of a time of the day. -/
def clockText (micros : ℕ) : List Char :=
  let seconds := micros / microsPerSecond
  let fraction := micros % microsPerSecond
  padded 10 2 (seconds / 3600) ++ ':' :: (padded 10 2 (seconds / 60 % 60) ++
    ':' :: (padded 10 2 (seconds % 60) ++
      if fraction = 0 then ['Z'] else '.' :: (padded 10 6 fraction ++ ['Z'])))

/-- The ISO 8601 text of an instant. -/
def isoformat (d : Datetime) : String :=
  String.ofList (dateText (d.micros / microsPerDay) ++ 'T' :: clockText (d.micros % microsPerDay))

theorem dateText_inj {a b : ℕ} (ha : a < calendarDays) (hb : b < calendarDays)
    (h : dateText a = dateText b) : a = b := by
  have monthsBounded : ∀ year, ∀ l ∈ monthLengths year, l ≤ 31 := by
    intro year
    cases hleap : isLeap year <;> simp [monthLengths, hleap]
  have monthsTwelve : ∀ year, (monthLengths year).length = 12 := fun _ => rfl
  have hA := @monthAndDay_lt _ (monthsBounded _) 1 _ (day_lt a)
  have hB := @monthAndDay_lt _ (monthsBounded _) 1 _ (day_lt b)
  rw [monthsTwelve] at hA hB
  obtain ⟨hyear, h⟩ := padded_append_inj (by decide) (by decide) (year_lt ha) (year_lt hb) h
  obtain ⟨hmonth, h⟩ := padded_append_inj (by decide) (by decide) (by omega) (by omega)
    (List.cons.inj h).2
  have hday := padded_inj (by decide) (by decide) (by omega) (by omega) (List.cons.inj h).2
  have hdays : (yearAndDay a).2 = (yearAndDay b).2 := by
    rw [hyear] at hmonth hday
    exact monthAndDay_inj (Prod.ext hmonth hday)
  rw [← daysBeforeYear_add a, ← daysBeforeYear_add b, hyear, hdays]

private theorem fractionText_inj {a b : ℕ} (ha : a < microsPerSecond) (hb : b < microsPerSecond)
    (h : (if a = 0 then ['Z'] else '.' :: (padded 10 6 a ++ ['Z'])) =
      if b = 0 then ['Z'] else '.' :: (padded 10 6 b ++ ['Z'])) : a = b := by
  split at h <;> split at h
  · omega
  · exact absurd (List.cons.inj h).1 (by decide)
  · exact absurd (List.cons.inj h).1 (by decide)
  · exact (padded_append_inj (by decide) (by decide) ha hb (List.cons.inj h).2).1

theorem clockText_inj {a b : ℕ} (ha : a < microsPerDay) (hb : b < microsPerDay)
    (h : clockText a = clockText b) : a = b := by
  simp only [clockText, microsPerDay, microsPerSecond] at *
  obtain ⟨hhour, h⟩ := padded_append_inj (by decide) (by decide) (by omega) (by omega) h
  obtain ⟨hminute, h⟩ := padded_append_inj (by decide) (by decide) (by omega) (by omega)
    (List.cons.inj h).2
  obtain ⟨hsecond, h⟩ := padded_append_inj (by decide) (by decide) (by omega) (by omega)
    (List.cons.inj h).2
  have hfraction : a % 1000000 = b % 1000000 :=
    fractionText_inj (Nat.mod_lt _ (by decide)) (Nat.mod_lt _ (by decide)) h
  omega

/-- The text determines the instant. -/
theorem isoformat_inj {a b : Datetime} (h : isoformat a = isoformat b) : a = b := by
  have length_dateText : ∀ n, (dateText n).length = 10 := by
    intro n
    simp [dateText]
  obtain ⟨hdate, hclock⟩ := List.append_inj (String.ofList_inj.mp h)
    (by rw [length_dateText, length_dateText])
  have days_lt : ∀ d : Datetime, d.micros / microsPerDay < calendarDays := by
    intro d
    apply Nat.div_lt_of_lt_mul
    rw [Nat.mul_comm]
    exact d.inRange
  have hdays := dateText_inj (days_lt a) (days_lt b) hdate
  have htime := clockText_inj (Nat.mod_lt _ (by decide)) (Nat.mod_lt _ (by decide))
    (List.cons.inj hclock).2
  apply Datetime.ext_micros
  rw [← Nat.div_add_mod a.micros microsPerDay, ← Nat.div_add_mod b.micros microsPerDay, hdays, htime]

example : isoformat ⟨63902822400000000, by decide⟩ = "2026-01-01T00:00:00Z" := by decide
example : isoformat ⟨63871286399000012, by decide⟩ = "2024-12-31T23:59:59.000012Z" := by decide

end UtcTimestamps
