import HttpSession.Hash.Blocks

/-!
# MD4

The digest of RFC 1320.
-/

namespace HttpSession.Hash.Md4

/-- One step: the mixing function of the three other words, a word of the message, a constant. -/
structure Step where
  mix : UInt32 → UInt32 → UInt32 → UInt32
  word : Nat
  turns : Nat
  constant : UInt32

def choose (x y z : UInt32) : UInt32 := (x &&& y) ||| (~~~ x &&& z)

def majority (x y z : UInt32) : UInt32 := (x &&& y) ||| (x &&& z) ||| (y &&& z)

def parity (x y z : UInt32) : UInt32 := x ^^^ y ^^^ z

/-- The steps of one round: the order of the words and the turns, which repeat after four steps. -/
def round (mix : UInt32 → UInt32 → UInt32 → UInt32) (constant : UInt32) (turns : List Nat)
    (order : List Nat) : List Step :=
  order.mapIdx fun i word => ⟨mix, word, turns.getD (i % 4) 0, constant⟩

def steps : List Step :=
  round choose 0 [3, 7, 11, 19] [0, 1, 2, 3, 4, 5, 6, 7, 8, 9, 10, 11, 12, 13, 14, 15] ++
  round majority 0x5a827999 [3, 5, 9, 13] [0, 4, 8, 12, 1, 5, 9, 13, 2, 6, 10, 14, 3, 7, 11, 15] ++
  round parity 0x6ed9eba1 [3, 9, 11, 15] [0, 8, 4, 12, 2, 10, 6, 14, 1, 9, 5, 13, 3, 11, 7, 15]

def step (words : List UInt32) (s : Quad) (p : Step) : Quad :=
  let a := turn (s.a + p.mix s.b s.c s.d + words.getD p.word 0 + p.constant) p.turns
  ⟨s.d, a, s.b, s.c⟩

def compress (s : Quad) (block : Bytes) : Quad :=
  s.add (steps.foldl (step (words Bytes.ofLittleEndian block)) s)

def digest (message : Bytes) : Bytes :=
  (((fill (Bytes.littleEndian 8) message).blocks 64).foldl compress Quad.start).bytes

theorem length_digest (message : Bytes) : (digest message).length = 16 := Quad.length_bytes _

end HttpSession.Hash.Md4
