import HttpSession.Time.Instant

/-!
# The Gregorian calendar

Days are counted from 1970-01-01. Years are counted from March, so that a leap day ends its year, and
in cycles of 400, each of which has the same number of days.
-/

namespace HttpSession

structure Day where
  year : Nat
  month : Nat
  day : Nat
  deriving DecidableEq, Repr

namespace Day

/-- Days from 0000-03-01 to 1970-01-01. -/
def shift : Nat := 719468

def cycle : Nat := 146097

/-- Days since 1970-01-01, for a day that is not before it. -/
def number (d : Day) : Nat :=
  let year := if d.month ≤ 2 then d.year - 1 else d.year
  let month := if d.month ≤ 2 then d.month + 9 else d.month - 3
  let ofCycle := year % 400
  let ofYear := (153 * month + 2) / 5 + d.day - 1
  year / 400 * cycle + (ofCycle * 365 + ofCycle / 4 - ofCycle / 100 + ofYear) - shift

def ofNumber (number : Nat) : Day :=
  let count := number + shift
  let inCycle := count % cycle
  let ofCycle := (inCycle - inCycle / 1460 + inCycle / 36524 - inCycle / 146096) / 365
  let ofYear := inCycle - (365 * ofCycle + ofCycle / 4 - ofCycle / 100)
  let month := (5 * ofYear + 2) / 153
  let day := ofYear - (153 * month + 2) / 5 + 1
  let year := count / cycle * 400 + ofCycle
  if month < 10 then ⟨year, month + 3, day⟩ else ⟨year + 1, month - 9, day⟩

end Day

/-- The day of the week, Sunday being 0, of a numbered day: 1970-01-01 was a Thursday. -/
def weekdayOf (number : Nat) : Nat := (number + 4) % 7

structure Moment where
  date : Day
  hour : Nat
  minute : Nat
  second : Nat
  deriving DecidableEq, Repr

namespace Moment

def ofSeconds (seconds : Nat) : Moment :=
  let rest := seconds % 86400
  ⟨Day.ofNumber (seconds / 86400), rest / 3600, rest / 60 % 60, rest % 60⟩

def seconds (m : Moment) : Nat := m.date.number * 86400 + m.hour * 3600 + m.minute * 60 + m.second

end Moment

end HttpSession
