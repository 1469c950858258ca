import HttpSession.Text.Printable

/-!
# Shown text

Text in quotes for people who read logs: quotes and backslashes are escaped, the usual control
characters have short names, and what is not printable is written as a code point. `Shown` writes
records in the same manner, one field behind the other.
-/

namespace HttpSession.Text

def codePoint (c : Char) : Text := "\\u\x7b" ++ Nat.toDigits 16 c.toNat ++ "\x7d"

def shownChar (c : Char) : Text :=
  match c with
  | '\x00' => "\\0"
  | '\t' => "\\t"
  | '\r' => "\\r"
  | '\n' => "\\n"
  | '"' => "\\\""
  | '\\' => "\\\\"
  | c => if isPrintable c then [c] else codePoint c

def shown (t : Text) : Text := "\"" ++ t.flatMap shownChar ++ "\""

def shownOption (t : Option Text) : Text :=
  match t with
  | some value => "Some(" ++ value ++ ")"
  | none => "None"

def redacted : Text := shown "[REDACTED]"

/-- A record: its name, then its fields in braces; `more` tells that it has others. -/
def shownRecord (name : Text) (fields : List (Text × Text)) (more : Bool) : Text :=
  let written := fields.map fun (field, value) => field ++ ": " ++ value
  let rest : List Text := if more then [".."] else []
  name ++ " \x7b " ++ join ", " (written ++ rest) ++ " \x7d"

end HttpSession.Text
