import HttpSession.Bytes.Basic

/-!
# Hashing in blocks

What RFC 1320, RFC 1321 and FIPS 180-4 have in common: the digests of this library pad a message to blocks
of 64 bytes, with its length in bits at the end, and mix each block of sixteen words into a state of
words.
-/

namespace HttpSession.Hash

/-- A message behind which a one bit, zeros, and its length in bits fill the last block. -/
def fill (writeLength : Nat → Bytes) (message : Bytes) : Bytes :=
  message ++ 0x80 :: List.replicate ((119 - message.length % 64) % 64) 0 ++
    writeLength (8 * message.length)

def words (read : Bytes → Nat) (block : Bytes) : List UInt32 :=
  (block.blocks 4).map fun word => UInt32.ofNat (read word)

def turn (w : UInt32) (by_ : Nat) : UInt32 :=
  (w <<< UInt32.ofNat by_) ||| (w >>> UInt32.ofNat (32 - by_))

structure Quad where
  a : UInt32
  b : UInt32
  c : UInt32
  d : UInt32
  deriving DecidableEq, Repr

namespace Quad

/-- The state that MD4 and MD5 start from. -/
def start : Quad := ⟨0x67452301, 0xefcdab89, 0x98badcfe, 0x10325476⟩

def add (s t : Quad) : Quad := ⟨s.a + t.a, s.b + t.b, s.c + t.c, s.d + t.d⟩

def bytes (s : Quad) : Bytes :=
  [s.a, s.b, s.c, s.d].flatMap fun w => Bytes.littleEndian 4 w.toNat

theorem length_bytes (s : Quad) : s.bytes.length = 16 := by
  simp [bytes]

end Quad

end HttpSession.Hash
