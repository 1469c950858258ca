import HttpSession.Text.Basic

/-!
# JSON texts

JSON values as they are written for people: each item and each field on a line of its own, two blanks
further in than the brackets around it. Empty brackets stay together.
-/

namespace HttpSession

inductive Json
  | null
  | bool (value : Bool)
  | number (value : Nat)
  | text (value : Text)
  | array (items : List Json)
  | object (fields : List (Text × Json))

namespace Json

def escape (c : Char) : Text :=
  match c with
  | '"' => "\\\""
  | '\\' => "\\\\"
  | '\x08' => "\\b"
  | '\x0c' => "\\f"
  | '\n' => "\\n"
  | '\r' => "\\r"
  | '\t' => "\\t"
  | c => if c.toNat < 32 then "\\u" ++ Text.padded 4 (Nat.toDigits 16 c.toNat) else [c]

def quote (t : Text) : Text := "\"" ++ t.flatMap escape ++ "\""

def newLine (depth : Nat) : Text := '\n' :: List.replicate (2 * depth) ' '

mutual

def writeAt (depth : Nat) : Json → Text
  | .null => "null"
  | .bool true => "true"
  | .bool false => "false"
  | .number value => Text.ofNat value
  | .text value => quote value
  | .array [] => "[]"
  | .array (item :: items) =>
    "[" ++ Text.join "," (writeItems (depth + 1) (item :: items)) ++ newLine depth ++ "]"
  | .object [] => "\x7b\x7d"
  | .object (field :: fields) =>
    "\x7b" ++ Text.join "," (writeFields (depth + 1) (field :: fields)) ++ newLine depth ++ "\x7d"

def writeItems (depth : Nat) : List Json → List Text
  | [] => []
  | item :: items => (newLine depth ++ writeAt depth item) :: writeItems depth items

def writeFields (depth : Nat) : List (Text × Json) → List Text
  | [] => []
  | (name, value) :: fields =>
    (newLine depth ++ quote name ++ ": " ++ writeAt depth value) :: writeFields depth fields

end

def write (j : Json) : Text := j.writeAt 0

end Json

end HttpSession
