import HttpSession.Hash.Blocks

/-!
# MD5

The digest of RFC 1321.
-/

namespace HttpSession.Hash.Md5

/-- The constants of the 64 steps: the leading 32 bits of the sine of 1, 2, … 64. -/
def constants : List UInt32 := [
  0xd76aa478, 0xe8c7b756, 0x242070db, 0xc1bdceee, 0xf57c0faf, 0x4787c62a, 0xa8304613, 0xfd469501,
  0x698098d8, 0x8b44f7af, 0xffff5bb1, 0x895cd7be, 0x6b901122, 0xfd987193, 0xa679438e, 0x49b40821,
  0xf61e2562, 0xc040b340, 0x265e5a51, 0xe9b6c7aa, 0xd62f105d, 0x02441453, 0xd8a1e681, 0xe7d3fbc8,
  0x21e1cde6, 0xc33707d6, 0xf4d50d87, 0x455a14ed, 0xa9e3e905, 0xfcefa3f8, 0x676f02d9, 0x8d2a4c8a,
  0xfffa3942, 0x8771f681, 0x6d9d6122, 0xfde5380c, 0xa4beea44, 0x4bdecfa9, 0xf6bb4b60, 0xbebfbc70,
  0x289b7ec6, 0xeaa127fa, 0xd4ef3085, 0x04881d05, 0xd9d4d039, 0xe6db99e5, 0x1fa27cf8, 0xc4ac5665,
  0xf4292244, 0x432aff97, 0xab9423a7, 0xfc93a039, 0x655b59c3, 0x8f0ccc92, 0xffeff47d, 0x85845dd1,
  0x6fa87e4f, 0xfe2ce6e0, 0xa3014314, 0x4e0811a1, 0xf7537e82, 0xbd3af235, 0x2ad7d2bb, 0xeb86d391]

def turns (i : Nat) : Nat :=
  let row : List Nat :=
    match i / 16 with
    | 0 => [7, 12, 17, 22]
    | 1 => [5, 9, 14, 20]
    | 2 => [4, 11, 16, 23]
    | _ => [6, 10, 15, 21]
  row.getD (i % 4) 0

def wordAt (i : Nat) : Nat :=
  match i / 16 with
  | 0 => i
  | 1 => (5 * i + 1) % 16
  | 2 => (3 * i + 5) % 16
  | _ => 7 * i % 16

def mix (i : Nat) (x y z : UInt32) : UInt32 :=
  match i / 16 with
  | 0 => (x &&& y) ||| (~~~ x &&& z)
  | 1 => (x &&& z) ||| (y &&& ~~~ z)
  | 2 => x ^^^ y ^^^ z
  | _ => y ^^^ (x ||| ~~~ z)

def step (words : List UInt32) (s : Quad) (i : Nat) : Quad :=
  let sum := s.a + mix i s.b s.c s.d + words.getD (wordAt i) 0 + constants.getD i 0
  ⟨s.d, s.b + turn sum (turns i), s.b, s.c⟩

def compress (s : Quad) (block : Bytes) : Quad :=
  s.add ((List.range 64).foldl (step (words Bytes.ofLittleEndian block)) s)

def digest (message : Bytes) : Bytes :=
  (((fill (Bytes.littleEndian 8) message).blocks 64).foldl compress Quad.start).bytes

theorem length_digest (message : Bytes) : (digest message).length = 16 := Quad.length_bytes _

end HttpSession.Hash.Md5
