import HttpSession.Bytes.Utf8

/-!
# Percent encoding

Characters that a part of a URL cannot hold are written as the bytes of their UTF-8 form, each as a
percent sign and two upper case hexadecimal digits. Every part has its own set of such characters; a
percent sign is in none of them, so what is encoded already stays as it is. The sets are the
percent-encode sets of the URL Standard.
-/

namespace HttpSession.Url

def inControls (c : Char) : Bool := c.toNat < 0x20 || 0x7F ≤ c.toNat

def inFragment (c : Char) : Bool := inControls c || " \"<>`".toList.contains c

def inPath (c : Char) : Bool := inFragment c || "#?\x7b\x7d".toList.contains c

def inUserinfo (c : Char) : Bool := inPath c || "/:;=@[\\]^|".toList.contains c

/-- The set of the query; a special scheme adds the single quote. -/
def inQuery (special : Bool) (c : Char) : Bool :=
  inControls c || " \"#<>".toList.contains c || (special && c = '\'')

def upperHexDigit (n : Nat) : Char := if n < 10 then Char.ofNat (48 + n) else Char.ofNat (55 + n)

def percentByte (b : UInt8) : Text := ['%', upperHexDigit (b.toNat / 16), upperHexDigit (b.toNat % 16)]

def percentEncode (set : Char → Bool) (t : Text) : Text :=
  t.flatMap fun c => if set c then (String.utf8EncodeChar c).flatMap percentByte else [c]

def hexDigit? (c : Char) : Option Nat :=
  if c.isDigit then some (c.toNat - 48)
  else if 'a' ≤ c ∧ c ≤ 'f' then some (c.toNat - 87)
  else if 'A' ≤ c ∧ c ≤ 'F' then some (c.toNat - 55)
  else none

/-- The bytes of a text, with every percent sign before two digits read as the byte they name. -/
def percentDecode : Text → Bytes
  | [] => []
  | '%' :: a :: b :: rest =>
    match hexDigit? a, hexDigit? b with
    | some high, some low => UInt8.ofNat (16 * high + low) :: percentDecode rest
    | _, _ => 37 :: percentDecode (a :: b :: rest)
  | c :: rest => String.utf8EncodeChar c ++ percentDecode rest

end HttpSession.Url
