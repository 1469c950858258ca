import HttpSession.Bytes.Basic

/-!
# UTF-16

Text as 16-bit units, each written low byte first: a character beyond U+FFFF takes two units.
-/

namespace HttpSession.Utf16

def units (c : Char) : List Nat :=
  if c.toNat < 0x10000 then [c.toNat]
  else [0xD800 + (c.toNat - 0x10000) / 0x400, 0xDC00 + (c.toNat - 0x10000) % 0x400]

/-- Text in units of two bytes, low byte first. -/
def encode (t : Text) : Bytes := (t.flatMap units).flatMap (Bytes.littleEndian 2)

end HttpSession.Utf16
