import HttpSession.Text.Integer
import HttpSession.Text.Quotes
import HttpSession.Time.HttpDate

/-!
# Dates of cookies

Cookies expire at dates of HTTP, or at dates with dashes such as `Wed, 21-Oct-15 07:28:00 GMT`, whose
parts are put in the order and width that HTTP asks for.
-/

namespace HttpSession.Cookie

/-- A year of two digits belongs to 2000 if it is below 70, else to 1900. -/
def year? (t : Text) : Option Nat := do
  let n ← Text.Width.word.readNat? t
  if t.length = 2 then some (if n < 70 then 2000 + n else 1900 + n)
  else if t.length = 4 then some n
  else none

/-- The date of HTTP that has the parts of a date with dashes. -/
def undashed? (t : Text) : Option Text :=
  match Text.words (t.map fun c => if c = '-' then ' ' else c) with
  | [weekday, day, month, year, time, zone] => do
    let weekday : Text := (weekday.reverse.dropWhile (· = ',')).reverse
    let weekday ← if 3 ≤ weekday.length then some (weekday.take 3) else none
    let year ← year? year
    let day ← Text.Width.word.readNat? day
    some (weekday ++ ", " ++ Text.padded 2 (Text.ofNat day) ++ " " ++ month ++ " " ++ Text.ofNat year ++
      " " ++ time ++ " " ++ zone)
  | _ => none

def readDate? (t : Text) : Option Instant :=
  let t := t.trim.unquote
  HttpDate.parse? t <|> (undashed? t).bind HttpDate.parse?

end HttpSession.Cookie
