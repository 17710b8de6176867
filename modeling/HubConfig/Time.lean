/-
**Instants, the calendar, and times in the form of RFC 3339.**

A time is written as `2022-03-01T08:12:34.5+02:00`: a date, a time of day with an optional fraction
of a second, and the distance from universal time or `Z`.

Main definitions:

* `Instant`: a point in time, in seconds since the start of 1970 and nanoseconds on top;
* `Date`: a day of the Gregorian calendar, and `Date.daysSinceEpoch` its number;
* `Rfc3339.parse?`: the instant that a text stands for.

Main results:

* `daysBeforeYear_succ`: a year has 365 days, and a leap year one more;
* `Rfc3339.digits?_eq_some`: a field of digits takes exactly as many as it should.
-/

import HubConfig.Error
import HubConfig.Text.Digits

set_option autoImplicit false

namespace HubConfig

/-! ### Instants -/

/-- A point in time.  A leap second is the second before it with more than a thousand million
nanoseconds. -/
structure Instant where
  /-- Whole seconds since the start of 1970, rounded down. -/
  seconds : Int
  /-- Nanoseconds on top. -/
  nanos : Nat
  deriving DecidableEq, Repr

/-- An instant some seconds later. -/
def Instant.later (t : Instant) (seconds : Int) : Instant :=
  { t with seconds := t.seconds + seconds }

/-! ### The calendar -/

/-- Every fourth year is a leap year, but of the full centuries only every fourth. -/
def isLeapYear (y : Nat) : Bool := y % 4 == 0 && (y % 100 != 0 || y % 400 == 0)

/-- The days of a month, which is between 1 and 12. -/
def daysInMonth (y m : Nat) : Nat :=
  if m = 2 then (if isLeapYear y then 29 else 28)
  else if m = 4 ∨ m = 6 ∨ m = 9 ∨ m = 11 then 30
  else 31

/-- A day of the calendar. -/
structure Date where
  year : Nat
  month : Nat
  day : Nat
  deriving DecidableEq, Repr

/-- Whether there is such a day. -/
def Date.isDay (d : Date) : Bool :=
  1 ≤ d.month && d.month ≤ 12 && 1 ≤ d.day && d.day ≤ daysInMonth d.year d.month

/-- The days before a year, counted from the year 0. -/
def daysBeforeYear (y : Nat) : Nat := 365 * y + (y + 3) / 4 - (y + 99) / 100 + (y + 399) / 400

/-- The days of a year before one of its months. -/
def daysBeforeMonth (y : Nat) : (m : Nat) → Nat
  | 0 => 0
  | 1 => 0
  | m + 2 => daysBeforeMonth y (m + 1) + daysInMonth y (m + 1)

/-- The number of a day, counted from the first of January 1970. -/
def Date.daysSinceEpoch (d : Date) : Int :=
  (daysBeforeYear d.year + daysBeforeMonth d.year d.month + d.day : Nat) - 719529

example : Date.daysSinceEpoch ⟨1970, 1, 1⟩ = 0 := by decide

/-- Counting multiples: one more number passes one more multiple if it is one. -/
theorem succ_add_pred_div (y k : Nat) (hk : 0 < k) :
    (y + 1 + (k - 1)) / k = (y + (k - 1)) / k + (if y % k = 0 then 1 else 0) := by
  have hy := Nat.div_add_mod y k
  have hlt := Nat.mod_lt y hk
  generalize y / k = q at hy
  generalize y % k = r at hy hlt
  subst hy
  split
  · next h =>
    have h1 : k * q + r + 1 + (k - 1) = k + k * q := by omega
    have h2 : k * q + r + (k - 1) = k - 1 + k * q := by omega
    rw [h1, h2, Nat.add_mul_div_left _ _ hk, Nat.add_mul_div_left _ _ hk, Nat.div_self hk,
      Nat.div_eq_of_lt (Nat.sub_lt hk Nat.one_pos)]
    omega
  · next h =>
    have h1 : k * q + r + 1 + (k - 1) = r + k * (q + 1) := by rw [Nat.mul_succ]; omega
    have h2 : k * q + r + (k - 1) = r - 1 + k * (q + 1) := by rw [Nat.mul_succ]; omega
    rw [h1, h2, Nat.add_mul_div_left _ _ hk, Nat.add_mul_div_left _ _ hk, Nat.div_eq_of_lt hlt,
      Nat.div_eq_of_lt (by omega)]
    omega

theorem daysBeforeYear_succ (y : Nat) :
    daysBeforeYear (y + 1) = daysBeforeYear y + (if isLeapYear y then 366 else 365) := by
  have h4 := succ_add_pred_div y 4 (by decide)
  have h100 := succ_add_pred_div y 100 (by decide)
  have h400 := succ_add_pred_div y 400 (by decide)
  have hle : (y + 99) / 100 ≤ (y + 3) / 4 := by omega
  simp only [Nat.reduceSub] at h4 h100 h400
  simp only [daysBeforeYear, isLeapYear, h4, h100, h400, Bool.and_eq_true, Bool.or_eq_true,
    beq_iff_eq, bne_iff_ne, ne_eq]
  by_cases m4 : y % 4 = 0
  · by_cases m100 : y % 100 = 0
    · by_cases m400 : y % 400 = 0
      · simp only [m4, m100, m400, if_true, not_true, or_true, and_self]
        omega
      · simp only [m4, m100, m400, if_true, if_false, not_true, or_self, and_false]
        omega
    · have m400 : ¬ y % 400 = 0 := by omega
      simp only [m4, m100, m400, if_true, if_false, not_false_eq_true, or_false, and_self]
      omega
  · have m100 : ¬ y % 100 = 0 := by omega
    have m400 : ¬ y % 400 = 0 := by omega
    simp only [m4, m100, m400, if_false, false_and]
    omega

namespace Rfc3339

open HubConfig.Text

/-! ### Parts of a time -/

/-- The number that the first `n` characters stand for, all of them digits, and what follows
them. -/
def digits? (n : Nat) (cs : List Char) : Option (Nat × List Char) :=
  let ds := cs.take n
  if ds.length = n ∧ ds.all Char.isDigit = true then some (digitsValue ds, cs.drop n) else none

theorem digits?_eq_some {n m : Nat} {cs rest : List Char} (h : digits? n cs = some (m, rest)) :
    ∃ ds, cs = ds ++ rest ∧ ds.length = n ∧ digitsValue ds = m := by
  simp only [digits?] at h
  split at h
  · next hd =>
    cases h
    exact ⟨cs.take n, (List.take_append_drop n cs).symm, hd.1, rfl⟩
  · cases h

/-- What follows a character that satisfies `p`. -/
def after? (p : Char → Bool) : List Char → Option (List Char)
  | [] => none
  | c :: cs => if p c then some cs else none

/-- The date at the front. -/
def date? (cs : List Char) : Option (Date × List Char) := do
  let (year, cs) ← digits? 4 cs
  let (month, cs) ← digits? 2 (← after? (· == '-') cs)
  let (day, cs) ← digits? 2 (← after? (· == '-') cs)
  let date : Date := ⟨year, month, day⟩
  if date.isDay then some (date, cs) else none

/-- The time of day at the front, in hours, minutes and seconds.  The second may be a leap
second. -/
def timeOfDay? (cs : List Char) : Option ((Nat × Nat × Nat) × List Char) := do
  let (hour, cs) ← digits? 2 cs
  let (minute, cs) ← digits? 2 (← after? (· == ':') cs)
  let (second, cs) ← digits? 2 (← after? (· == ':') cs)
  if hour ≤ 23 ∧ minute ≤ 59 ∧ second ≤ 60 then some ((hour, minute, second), cs) else none

/-- The nanoseconds that the digits after a point stand for.  Digits after the ninth count for
nothing. -/
def nanosOf (ds : List Char) : Nat :=
  let ds := ds.take 9
  digitsValue (ds ++ List.replicate (9 - ds.length) '0')

/-- The fraction of a second at the front, if there is one. -/
def fraction? : List Char → Option (Nat × List Char)
  | '.' :: cs =>
      let ds := cs.takeWhile Char.isDigit
      if ds = [] then none else some (nanosOf ds, cs.dropWhile Char.isDigit)
  | cs => some (0, cs)

/-- The distance from universal time that is all of a text, in seconds.  It is less than a day. -/
def offset? : List Char → Option Int
  | ['Z'] => some 0
  | ['z'] => some 0
  | sign :: cs => do
      let (hours, cs) ← digits? 2 cs
      let (minutes, cs) ← digits? 2 (← after? (· == ':') cs)
      let seconds : Int := hours * 3600 + minutes * 60
      if cs = [] ∧ minutes ≤ 59 ∧ seconds < 86400 then
        -- The minus sign of typography counts like the hyphen.
        if sign = '+' then some seconds
        else if sign = '-' ∨ sign = '−' then some (-seconds)
        else none
      else none
  | [] => none

/-! ### Whole times -/

/-- Characters between the date and the time of day. -/
def separates (c : Char) : Bool := c == 'T' || c == 't' || c == ' '

/-- **The instant that a text stands for.**  The sixtieth second is counted as the second before it
with a thousand million nanoseconds more. -/
def parse? (cs : List Char) : Option Instant := do
  let (date, cs) ← date? cs
  let ((hour, minute, second), cs) ← timeOfDay? (← after? separates cs)
  let (nanos, cs) ← fraction? cs
  let offset ← offset? cs
  let ofDay : Int := hour * 3600 + minute * 60 + min second 59
  let leap := if second = 60 then 1000000000 else 0
  some ⟨date.daysSinceEpoch * 86400 + ofDay - offset, nanos + leap⟩

/-- What is said of a text that is no time. -/
def complaint (s : String) : Error :=
  .adopted .unexpected ("failed to parse rfc3339 time: " ++ s)

/-- The instant that a text stands for, as an answer to a caller. -/
def parse (s : String) : Except Error Instant :=
  match parse? s.toList with
  | some t => .ok t
  | none => .error (complaint s)

end Rfc3339

end HubConfig
