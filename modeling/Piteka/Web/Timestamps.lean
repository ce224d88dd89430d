import Piteka.Calendar.Gregorian

/-!
# The text of a Unix time

`format_timestamp` splits the seconds into days and a second of the day, and the days
into eras of 400 years that begin in March. Every operation is one on `i64`: it has no
result when it overflows. The texts are of the values, padded with zeros.
-/
namespace Piteka.Web

set_option autoImplicit false

open Piteka.Calendar

/-- The result of an `i64` operation, unless it overflows. -/
def i64 (n : Int) : Option Int := if -2 ^ 63 ≤ n ∧ n < 2 ^ 63 then some n else none

/-- `i64::try_from(unix_secs).unwrap_or(i64::MAX)` -/
def clampedSeconds (unixSecs : UInt64) : Int :=
  if unixSecs.toNat < 2 ^ 63 then unixSecs.toNat else 2 ^ 63 - 1

/-- The date of a day number, with every operation checked. -/
def civilFromDays (days : Int) : Option Date := do
  let z ← i64 (days + 719468)
  let shifted ← if 0 ≤ z then some z else i64 (z - 146096)
  let era := shifted / 146097
  let eraDays ← i64 (era * 146097)
  let dayOfEra ← i64 (z - eraDays)
  let withoutLeapDays ← i64 (dayOfEra - dayOfEra.tdiv 1460)
  let withCenturies ← i64 (withoutLeapDays + dayOfEra.tdiv 36524)
  let yearDays ← i64 (withCenturies - dayOfEra.tdiv 146096)
  let yearOfEra := yearDays.tdiv 365
  let eraYears ← i64 (era * 400)
  let year ← i64 (yearOfEra + eraYears)
  let commonDays ← i64 (365 * yearOfEra)
  let julianDays ← i64 (commonDays + yearOfEra.tdiv 4)
  let daysBefore ← i64 (julianDays - yearOfEra.tdiv 100)
  let dayOfYear ← i64 (dayOfEra - daysBefore)
  let fiveDays ← i64 (5 * dayOfYear)
  let fiveDays ← i64 (fiveDays + 2)
  let monthPrime := fiveDays.tdiv 153
  let monthDays ← i64 (153 * monthPrime)
  let monthDays ← i64 (monthDays + 2)
  let day ← i64 (dayOfYear - monthDays.tdiv 5)
  let day ← i64 (day + 1)
  let month ← i64 (monthPrime + if monthPrime < 10 then 3 else -9)
  let year ← i64 (year + if month ≤ 2 then 1 else 0)
  return ⟨year, month, day⟩

def civil (unixSecs : UInt64) : Option DateTime := do
  let seconds := clampedSeconds unixSecs
  let days := seconds / 86400
  let daySeconds := seconds % 86400
  let date ← civilFromDays days
  return ⟨date, daySeconds.tdiv 3600, (daySeconds.tmod 3600).tdiv 60, daySeconds.tmod 60⟩

/-- `{n:0width}` -/
def padded (width : Nat) (n : Int) : String :=
  if 0 ≤ n then
    String.ofList (List.replicate (width - (Nat.repr n.toNat).length) '0') ++ Nat.repr n.toNat
  else
    "-" ++ String.ofList (List.replicate (width - 1 - (Nat.repr n.natAbs).length) '0') ++
      Nat.repr n.natAbs

def isoText (t : DateTime) : String :=
  padded 4 t.date.year ++ "-" ++ padded 2 t.date.month ++ "-" ++ padded 2 t.date.day ++ "T" ++
    padded 2 t.hour ++ ":" ++ padded 2 t.minute ++ ":" ++ padded 2 t.second ++ "Z"

/-- The text is shown as the human one and as the machine-readable one. -/
def formatTimestamp (unixSecs : UInt64) : Option (String × String) := do
  let t ← civil unixSecs
  return (isoText t, isoText t)

/-! ## The years of an era -/

/-- Within a century of the era the quotient is the year. -/
theorem year_in_century {c e q y : Int} (hc0 : 0 ≤ c) (hc : c < 4) (he0 : 0 ≤ e)
    (he : e < 36524) (hq : q = (24 * c + e) / 1460) (hy : y = (e - q) / 365) :
    0 ≤ y ∧ y < 100 ∧ 365 * y + y / 4 ≤ e ∧ e < 365 * (y + 1) + (y + 1) / 4 := by
  have hbound : 0 ≤ y ∧ y < 100 := by omega
  have hlow : y / 4 ≤ q := by omega
  have hup : 4 * q ≤ y + 1 := by omega
  exact ⟨hbound.1, hbound.2, by omega, by omega⟩

/-- A year of a century is a year of the era; the last one takes what is left of the century. -/
theorem century_in_era {c r d : Int} (hc0 : 0 ≤ c) (hc : c < 4) (hr0 : 0 ≤ r) (hr : r < 100)
    (hfrom : 365 * r + r / 4 ≤ d - 36524 * c)
    (hto : d - 36524 * c < 365 * (r + 1) + (r + 1) / 4) (hend : d < 36524 * (c + 1)) :
    365 * (100 * c + r) + (100 * c + r) / 4 - (100 * c + r) / 100 ≤ d ∧
      d < 365 * (100 * c + r + 1) + (100 * c + r + 1) / 4 - (100 * c + r + 1) / 100 +
        (100 * c + r + 1) / 400 := by
  have hquads : (100 * c + r) / 4 = 25 * c + r / 4 := by omega
  have hcenturies : (100 * c + r) / 100 = c := by omega
  have hnext : (100 * c + r + 1) / 4 = 25 * c + (r + 1) / 4 := by omega
  have heras : 0 ≤ (100 * c + r + 1) / 400 := by omega
  rw [hquads, hcenturies, hnext]
  refine ⟨by omega, ?_⟩
  rcases lt_or_eq_of_le (Int.le_of_lt_add_one hr : r ≤ 99) with hlt | rfl
  · have hsame : (100 * c + r + 1) / 100 = c := by omega
    rw [hsame]
    omega
  · have hlast : (100 * c + 99 + 1) / 100 = c + 1 := by omega
    rw [hlast]
    omega

/-- The day lies in the year of the era that the division finds. -/
theorem year_of_era {d y : Int} (h0 : 0 ≤ d) (h : d < 146097)
    (hy : y = (d - d / 1460 + d / 36524 - d / 146096) / 365) :
    0 ≤ y ∧ y < 400 ∧ 365 * y + y / 4 - y / 100 ≤ d ∧
      d < 365 * (y + 1) + (y + 1) / 4 - (y + 1) / 100 + (y + 1) / 400 := by
  by_cases hlast : d = 146096
  · subst hlast
    subst hy
    decide
  · obtain ⟨hge, hlt, hfrom, hto⟩ := year_in_century (c := d / 36524) (e := d % 36524)
      (by omega) (by omega) (by omega) (by omega) rfl rfl
    have hsplit : y = 100 * (d / 36524) +
        (d % 36524 - (24 * (d / 36524) + d % 36524) / 1460) / 365 := by
      have hlast : d / 146096 = 0 := by omega
      have hdays : d / 1460 = 25 * (d / 36524) + (24 * (d / 36524) + d % 36524) / 1460 := by
        omega
      rw [hy, hlast, hdays]
      omega
    rw [hsplit]
    exact ⟨by omega, by omega,
      century_in_era (by omega) (by omega) hge hlt (by omega) (by omega) (by omega)⟩

/-! ## No operation overflows -/

theorem i64_eq {n : Int} (hlow : -2 ^ 63 ≤ n) (hhigh : n < 2 ^ 63) : i64 n = some n :=
  if_pos ⟨hlow, hhigh⟩

theorem i64_bind {α : Type} {n : Int} (hlow : -2 ^ 63 ≤ n) (hhigh : n < 2 ^ 63)
    (f : Int → Option α) : (i64 n).bind f = f n := by
  rw [i64_eq hlow hhigh, Option.bind_some]

theorem civilFromDays_eq {days : Int} (h0 : 0 ≤ days) (h : days < 2 ^ 47) :
    ∃ y mp n, civilFromDays days = some (Date.ofMarch y mp n) ∧ 0 ≤ n ∧
      n < daysInYear (y + 1) ∧ mp = (5 * n + 2) / 153 ∧ 0 ≤ mp ∧ mp ≤ 11 ∧
      days = 365 * y + y / 4 - y / 100 + y / 400 + n - 719468 := by
  unfold civilFromDays
  rw [Option.bind_eq_bind, i64_bind (by omega) (by omega)]
  generalize hz : days + 719468 = z
  rw [if_pos (show 0 ≤ z by omega), Option.bind_some]
  dsimp only
  generalize hera : z / 146097 = era
  rw [i64_bind (by omega) (by omega), i64_bind (by omega) (by omega)]
  generalize hdoe : z - era * 146097 = doe
  have hdoe0 : 0 ≤ doe := by omega
  have hdoe1 : doe < 146097 := by omega
  rw [Int.tdiv_eq_ediv_of_nonneg hdoe0, Int.tdiv_eq_ediv_of_nonneg hdoe0,
    Int.tdiv_eq_ediv_of_nonneg hdoe0, i64_bind (by omega) (by omega),
    i64_bind (by omega) (by omega), i64_bind (by omega) (by omega),
    Int.tdiv_eq_ediv_of_nonneg (by omega)]
  generalize hyoe : (doe - doe / 1460 + doe / 36524 - doe / 146096) / 365 = yoe
  obtain ⟨hyoe0, hyoe1, hfrom, hto⟩ := year_of_era hdoe0 hdoe1 hyoe.symm
  rw [Int.tdiv_eq_ediv_of_nonneg hyoe0, Int.tdiv_eq_ediv_of_nonneg hyoe0,
    i64_bind (by omega) (by omega), i64_bind (by omega) (by omega),
    i64_bind (by omega) (by omega), i64_bind (by omega) (by omega),
    i64_bind (by omega) (by omega), i64_bind (by omega) (by omega)]
  generalize hdoy : doe - (365 * yoe + yoe / 4 - yoe / 100) = doy
  have hdoy0 : 0 ≤ doy := by omega
  have hdoy1 : doy ≤ 365 := by omega
  rw [i64_bind (by omega) (by omega), i64_bind (by omega) (by omega),
    Int.tdiv_eq_ediv_of_nonneg (by omega)]
  generalize hmp : (5 * doy + 2) / 153 = mp
  have hmp0 : 0 ≤ mp := by omega
  have hmp1 : mp ≤ 11 := by omega
  rw [i64_bind (by omega) (by omega), i64_bind (by omega) (by omega),
    Int.tdiv_eq_ediv_of_nonneg (by omega), i64_bind (by omega) (by omega),
    i64_bind (by omega) (by omega), i64_bind (by split <;> omega) (by split <;> omega),
    i64_bind (by split <;> omega) (by split <;> omega)]
  refine ⟨yoe + era * 400, mp, doy, ?_, hdoy0, ?_, hmp.symm, hmp0, hmp1, ?_⟩
  · by_cases hmonth : mp < 10
    · simp only [Date.ofMarch, hmonth, if_true]
      rw [if_neg (by omega), Int.add_zero]
      rfl
    · simp only [Date.ofMarch, hmonth, if_false]
      rw [if_pos (by omega)]
      rfl
  · have hsucc := daysBeforeYear_succ (yoe + 1)
    rw [show yoe + era * 400 + 1 = yoe + 1 + era * 400 by omega, daysInYear_add]
    rw [daysBeforeYear, daysBeforeYear, Int.add_sub_cancel, Int.add_sub_cancel] at hsucc
    omega
  · have hquads : (yoe + era * 400) / 4 = yoe / 4 + 100 * era := by omega
    have hcenturies : (yoe + era * 400) / 100 = yoe / 100 + 4 * era := by omega
    have heras : (yoe + era * 400) / 400 = era := by omega
    rw [hquads, hcenturies, heras]
    omega

/-- Every operation has its result, and the date is the one with the number. -/
theorem civilFromDays_spec {days : Int} (h0 : 0 ≤ days) (h : days < 2 ^ 47) :
    ∃ d, civilFromDays days = some d ∧ d.Valid ∧ d.dayNumber = days := by
  obtain ⟨y, mp, n, hcivil, hn0, hn, hmp, hmp0, hmp11, hdays⟩ := civilFromDays_eq h0 h
  refine ⟨_, hcivil, Date.ofMarch_valid hn0 hn hmp, ?_⟩
  rw [Date.ofMarch_dayNumber hmp0 hmp11, hdays]

theorem clampedSeconds_bounds (t : UInt64) : 0 ≤ clampedSeconds t ∧ clampedSeconds t < 2 ^ 63 := by
  unfold clampedSeconds
  split <;> omega

theorem civil_spec (t : UInt64) :
    ∃ c, civil t = some c ∧ c.Valid ∧ c.instant = clampedSeconds t ∧
      c.date.dayNumber = clampedSeconds t / 86400 := by
  obtain ⟨h0, h⟩ := clampedSeconds_bounds t
  generalize hs : clampedSeconds t = s at *
  have hdays0 : 0 ≤ s / 86400 := by omega
  have hdays : s / 86400 < 2 ^ 47 := by omega
  obtain ⟨d, hd, hvalid, hnumber⟩ := civilFromDays_spec hdays0 hdays
  have hrem : 0 ≤ s % 86400 := by omega
  have hmod : (s % 86400).tmod 3600 = s % 86400 % 3600 := Int.tmod_eq_emod_of_nonneg hrem
  refine ⟨⟨d, s % 86400 / 3600, s % 86400 % 3600 / 60, s % 86400 % 60⟩, ?_, ?_, ?_, hnumber⟩
  · simp only [civil, hs, hd, Option.bind_eq_bind, Option.bind_some, Option.pure_def, hmod,
      Int.tdiv_eq_ediv_of_nonneg hrem, Int.tmod_eq_emod_of_nonneg hrem,
      Int.tdiv_eq_ediv_of_nonneg (show 0 ≤ s % 86400 % 3600 by omega)]
  · constructor
    · exact hvalid
    all_goals
      dsimp only
      omega
  · simp only [DateTime.instant, DateTime.secondOfDay, hnumber]
    omega

end Piteka.Web
