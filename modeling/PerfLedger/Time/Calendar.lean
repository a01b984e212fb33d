/-!
# The calendar

Dates of the Gregorian calendar, extended to all years from 1 to 9999, and their number: the count
of days since the first of January of year 1, from zero.
-/

namespace PerfLedger.Time

/-- A leap year has 366 days. -/
def isLeap (year : Nat) : Bool :=
  year % 4 == 0 && (year % 100 != 0 || year % 400 == 0)

/-- The lengths of the twelve months of a year. -/
def monthLengths (year : Nat) : List Nat :=
  [31, if isLeap year then 29 else 28, 31, 30, 31, 30, 31, 31, 30, 31, 30, 31]

/-- The length of a month; zero for a number that is no month. -/
def daysInMonth (year month : Nat) : Nat :=
  match month with
  | 0 => 0
  | m + 1 => (monthLengths year)[m]?.getD 0

/-- The days of a year before a month. -/
def daysBeforeMonth (year month : Nat) : Nat :=
  ((monthLengths year).take (month - 1)).foldr (· + ·) 0

/-- The days before a year. -/
def daysBeforeYear (year : Nat) : Nat :=
  let y := year - 1
  y * 365 + y / 4 - y / 100 + y / 400

/-- The number of a date. -/
def dayNumber (year month day : Nat) : Nat :=
  daysBeforeYear year + daysBeforeMonth year month + (day - 1)

/-- The first day after year 9999. -/
def dayLimit : Nat := 3652059

/-- The month and day that lie `n` days after the first day of a month, given the lengths of that
month and the later ones. -/
def monthAndDay (month n : Nat) : List Nat → Nat × Nat
  | [] => (month, n + 1)
  | k :: ks => if n < k then (month, n + 1) else monthAndDay (month + 1) (n - k) ks

/-- The year of a day number, and the days of that year before it. In a cycle of 400 years, and in
one of four, the last part has one day more than the others. -/
def yearAndDay (n : Nat) : Nat × Nat :=
  let c400 := n / 146097
  let n := n % 146097
  let c100 := min (n / 36524) 3
  let n := n - c100 * 36524
  let c4 := n / 1461
  let n := n % 1461
  let c1 := min (n / 365) 3
  (400 * c400 + 100 * c100 + 4 * c4 + c1 + 1, n - c1 * 365)

/-- The date with a given number. -/
def dateOfNumber (n : Nat) : Nat × Nat × Nat :=
  let (year, k) := yearAndDay n
  let (month, day) := monthAndDay 1 k (monthLengths year)
  (year, month, day)

end PerfLedger.Time
