import HttpSession.Text.Basic

/-!
# Bytes

Byte strings are lists of bytes. Numbers are written with the low byte first (`littleEndian`) or the
high byte first (`bigEndian`), and digests as hexadecimal text.

Main statement: reading a written number gives it back modulo its width (`ofLittleEndian_littleEndian`).
-/

namespace HttpSession

abbrev Bytes := List UInt8

namespace Bytes

/-- A number in `width` bytes, low byte first. -/
def littleEndian : Nat → Nat → Bytes
  | 0, _ => []
  | width + 1, n => UInt8.ofNat n :: littleEndian width (n / 256)

def bigEndian (width n : Nat) : Bytes := (littleEndian width n).reverse

/-- The number that bytes stand for, low byte first. -/
def ofLittleEndian : Bytes → Nat
  | [] => 0
  | b :: rest => b.toNat + 256 * ofLittleEndian rest

def ofBigEndian (bytes : Bytes) : Nat := ofLittleEndian bytes.reverse

@[simp] theorem length_littleEndian (width n : Nat) : (littleEndian width n).length = width := by
  induction width generalizing n with
  | zero => rfl
  | succ width ih => simp [littleEndian, ih]

@[simp] theorem length_bigEndian (width n : Nat) : (bigEndian width n).length = width := by
  simp [bigEndian]

theorem ofLittleEndian_littleEndian (width n : Nat) :
    ofLittleEndian (littleEndian width n) = n % Nat.pow 256 width := by
  induction width generalizing n with
  | zero => simp [littleEndian, ofLittleEndian, Nat.mod_one]
  | succ width ih =>
    have hp : Nat.pow 256 (width + 1) = 256 * Nat.pow 256 width := Nat.mul_comm _ _
    rw [littleEndian, ofLittleEndian, ih, hp, Nat.mod_mul]
    simp

/-- The bytes from `start` on, `count` of them; `none` where they run past the end. -/
def slice? (bytes : Bytes) (start count : Nat) : Option Bytes :=
  if start + count ≤ bytes.length then some ((bytes.drop start).take count) else none

def patch (bytes : Bytes) (start : Nat) (others : Bytes) : Bytes :=
  bytes.take start ++ others ++ bytes.drop (start + others.length)

theorem patch_append {before bytes after others : Bytes} {start : Nat} (hs : start = before.length)
    (hl : others.length = bytes.length) :
    (before ++ bytes ++ after).patch start others = before ++ others ++ after := by
  subst hs
  rw [patch, hl, ← List.length_append, List.drop_left, List.append_assoc before bytes, List.take_left]

def hex (bytes : Bytes) : Text :=
  bytes.flatMap fun b => Text.padded 2 (Nat.toDigits 16 b.toNat)

/-- Blocks of `size` bytes; a rest shorter than that is left out. -/
def blocks (size : Nat) (bytes : Bytes) : List Bytes :=
  (List.range (bytes.length / size)).map fun i => (bytes.drop (size * i)).take size

end Bytes

end HttpSession
