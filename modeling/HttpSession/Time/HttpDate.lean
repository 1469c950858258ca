import HttpSession.Time.Calendar

/-!
# HTTP dates

The three formats of RFC 7231: `Sun, 06 Nov 1994 08:49:37 GMT`, the older one with dashes,
`Sunday, 06-Nov-94 08:49:37 GMT`, whose years below 70 belong to 2000, and `Sun Nov  6 08:49:37 1994`.
Reading is strict: names are case-sensitive, the day must exist and fall on the weekday named, and years run
from 1970 to 9999. Only the first format is written.
-/

namespace HttpSession.HttpDate

def dayNames : List Text := ["Sun", "Mon", "Tue", "Wed", "Thu", "Fri", "Sat"]

def longDayNames : List Text :=
  ["Sunday", "Monday", "Tuesday", "Wednesday", "Thursday", "Friday", "Saturday"]

def monthNames : List Text :=
  ["Jan", "Feb", "Mar", "Apr", "May", "Jun", "Jul", "Aug", "Sep", "Oct", "Nov", "Dec"]

def limit : Nat := 253402300800

def write (m : Moment) (weekday : Nat) : Text :=
  let two (n : Nat) : Text := Text.padded 2 (Text.ofNat n)
  dayNames.getD weekday [] ++ ", " ++ two m.date.day ++ " " ++
    monthNames.getD (m.date.month - 1) [] ++ " " ++ Text.padded 4 (Text.ofNat m.date.year) ++ " " ++
    two m.hour ++ ":" ++ two m.minute ++ ":" ++ two m.second ++ " GMT"

/-- The date of an instant; there is none before 1970 or past the year 9999. -/
def format? (t : Instant) : Option Text :=
  if 0 ≤ t.seconds ∧ t.seconds < limit then
    let seconds := t.seconds.toNat
    some (write (Moment.ofSeconds seconds) (weekdayOf (seconds / 86400)))
  else none

/-- What a date says before it is checked; the weekday counts from Sunday. -/
structure Reading where
  moment : Moment
  weekday : Nat
  deriving DecidableEq, Repr

def Reading.instant? (r : Reading) : Option Instant :=
  let m := r.moment
  let seconds := m.seconds
  if m.second < 60 ∧ m.minute < 60 ∧ m.hour < 24 ∧ 1970 ≤ m.date.year ∧ m.date.year ≤ 9999 ∧
      1 ≤ m.date.month ∧ m.date.month ≤ 12 ∧ 1 ≤ m.date.day ∧ m.date.day ≤ 31 ∧
      Day.ofNumber m.date.number = m.date ∧ weekdayOf m.date.number = r.weekday then
    some ⟨seconds, 0⟩
  else none

def field (t : Text) (start count : Nat) : Text := (t.drop start).take count

def number? (t : Text) : Option Nat :=
  if t.all Char.isDigit then some (t.foldl (fun n c => n * 10 + (c.toNat - '0'.toNat)) 0) else none

def nameIn? (names : List Text) (name : Text) : Option Nat := names.findIdx? (· = name)

/-- Reads `Sun, 06 Nov 1994 08:49:37 GMT`. -/
def readFixed? (t : Text) : Option Reading := do
  if t.length ≠ 29 ∨ field t 25 4 ≠ " GMT".toList ∨ field t 16 1 ≠ [' '] ∨ field t 19 1 ≠ [':'] ∨
      field t 22 1 ≠ [':'] ∨ field t 3 2 ≠ ", ".toList ∨ field t 7 1 ≠ [' '] ∨
      field t 11 1 ≠ [' '] then
    none
  else
    let second ← number? (field t 23 2)
    let minute ← number? (field t 20 2)
    let hour ← number? (field t 17 2)
    let day ← number? (field t 5 2)
    let month ← nameIn? monthNames (field t 8 3)
    let year ← number? (field t 12 4)
    let weekday ← nameIn? dayNames (field t 0 3)
    some ⟨⟨⟨year, month + 1, day⟩, hour, minute, second⟩, weekday⟩

/-- Reads what follows the comma and the blank of `Sunday, 06-Nov-94 08:49:37 GMT`. -/
def readDashed? (weekday : Nat) (t : Text) : Option Reading := do
  if t.length ≠ 22 ∨ field t 18 4 ≠ " GMT".toList ∨ field t 12 1 ≠ [':'] ∨ field t 15 1 ≠ [':'] ∨
      field t 2 1 ≠ ['-'] ∨ field t 6 1 ≠ ['-'] then
    none
  else
    let short ← number? (field t 7 2)
    let second ← number? (field t 16 2)
    let minute ← number? (field t 13 2)
    let hour ← number? (field t 10 2)
    let day ← number? (field t 0 2)
    let month ← nameIn? monthNames (field t 3 3)
    let year := if short < 70 then 2000 + short else 1900 + short
    some ⟨⟨⟨year, month + 1, day⟩, hour, minute, second⟩, weekday⟩

def readLong? (t : Text) : Option Reading := do
  let (name, rest) ← t.cut? (· = ',')
  let weekday ← nameIn? longDayNames name
  let rest ← rest.after? [' ']
  readDashed? weekday rest

/-- Reads `Sun Nov  6 08:49:37 1994`. -/
def readPlain? (t : Text) : Option Reading := do
  if t.length ≠ 24 ∨ field t 10 1 ≠ [' '] ∨ field t 13 1 ≠ [':'] ∨ field t 16 1 ≠ [':'] ∨
      field t 19 1 ≠ [' '] ∨ field t 3 1 ≠ [' '] ∨ field t 7 1 ≠ [' '] then
    none
  else
    let second ← number? (field t 17 2)
    let minute ← number? (field t 14 2)
    let hour ← number? (field t 11 2)
    let day ← number? (if field t 8 1 = [' '] then field t 9 1 else field t 8 2)
    let month ← nameIn? monthNames (field t 4 3)
    let year ← number? (field t 20 4)
    let weekday ← nameIn? dayNames (field t 0 3)
    some ⟨⟨⟨year, month + 1, day⟩, hour, minute, second⟩, weekday⟩

/-- Reads a date in any of the three formats; blanks around it do not count. -/
def parse? (t : Text) : Option Instant :=
  if t.all fun c => c.toNat < 128 then
    let t := t.trim
    match readFixed? t <|> readLong? t <|> readPlain? t with
    | some reading => reading.instant?
    | none => none
  else none

end HttpSession.HttpDate
