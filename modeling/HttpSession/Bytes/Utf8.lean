import HttpSession.Bytes.Basic

/-!
# UTF-8

`encode` writes text, `scan` reads bytes from the left: each step takes a character, or a piece that no
character starts with. `decode?` refuses such pieces; `decodeLossy` puts U+FFFD for each.
-/

namespace HttpSession.Utf8

def encode (t : Text) : Bytes := t.flatMap String.utf8EncodeChar

def continues (low high : UInt8) (b : UInt8) : Bool := low ≤ b && b ≤ high

/-- How many bytes follow a first byte, and the bounds of the next one. -/
def following? (b : UInt8) : Option (Nat × UInt8 × UInt8) :=
  if b < 0x80 then some (0, 0x80, 0xBF)
  else if 0xC2 ≤ b && b ≤ 0xDF then some (1, 0x80, 0xBF)
  else if b = 0xE0 then some (2, 0xA0, 0xBF)
  else if b = 0xED then some (2, 0x80, 0x9F)
  else if 0xE1 ≤ b && b ≤ 0xEF then some (2, 0x80, 0xBF)
  else if b = 0xF0 then some (3, 0x90, 0xBF)
  else if 0xF1 ≤ b && b ≤ 0xF3 then some (3, 0x80, 0xBF)
  else if b = 0xF4 then some (3, 0x80, 0x8F)
  else none

def lead (count : Nat) (b : UInt8) : Nat :=
  match count with
  | 0 => b.toNat
  | 1 => b.toNat % 32
  | 2 => b.toNat % 16
  | _ => b.toNat % 8

/-- Reads the bytes that continue a character: `none` at the first that does not. -/
def continuation : Nat → UInt8 → UInt8 → Nat → Bytes → Option Nat × Bytes
  | 0, _, _, value, rest => (some value, rest)
  | _ + 1, _, _, _, [] => (none, [])
  | count + 1, low, high, value, b :: rest =>
    if continues low high b then continuation count 0x80 0xBF (value * 64 + b.toNat % 64) rest
    else (none, b :: rest)

/-- The characters of some bytes, `none` for each piece that is no character; it takes at most
`steps` of them. -/
def scanFor : Nat → Bytes → List (Option Char)
  | 0, _ => []
  | _ + 1, [] => []
  | steps + 1, b :: rest =>
    match following? b with
    | none => none :: scanFor steps rest
    | some (count, low, high) =>
      let (value, others) := continuation count low high (lead count b) rest
      value.map Char.ofNat :: scanFor steps others

def scan (bytes : Bytes) : List (Option Char) := scanFor bytes.length bytes

def decode? (bytes : Bytes) : Option Text := (scan bytes).mapM id

/-- The text that the bytes encode, with U+FFFD for every malformed piece. -/
def decodeLossy (bytes : Bytes) : Text := (scan bytes).map (·.getD '\ufffd')

end HttpSession.Utf8
