import HttpSession.Bytes.Basic

/-!
# Random draws

Random numbers of eight bytes are drawn from a supply that never runs out: first a list, then always
the same number.
-/

namespace HttpSession.Auth

structure Draws where
  pending : List UInt64
  last : UInt64
  deriving Repr

namespace Draws

def next (d : Draws) : UInt64 × Draws :=
  match d.pending with
  | [] => (d.last, d)
  | first :: rest => (first, { d with pending := rest })

def bytes (n : UInt64) : Bytes := Bytes.bigEndian 8 n.toNat

theorem length_bytes (n : UInt64) : (bytes n).length = 8 := Bytes.length_bigEndian 8 _

end Draws

end HttpSession.Auth
