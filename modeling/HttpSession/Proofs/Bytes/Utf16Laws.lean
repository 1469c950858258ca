import Mathlib.Data.List.Basic
import HttpSession.Bytes.Utf16

/-!
# Reading UTF-16

Two bytes are a unit, low byte first. A unit is a character unless it is a surrogate, and two surrogates,
a high one and then a low one, are a character beyond U+FFFF.

Main statement: text written in UTF-16 is read back as it was (`decode?_encode`).
-/

namespace HttpSession.Utf16

def isHigh (u : Nat) : Bool := 0xD800 ≤ u && u < 0xDC00

def isLow (u : Nat) : Bool := 0xDC00 ≤ u && u < 0xE000

def unitsOf? : Bytes → Option (List Nat)
  | [] => some []
  | [_] => none
  | low :: high :: rest => (unitsOf? rest).map (Bytes.ofLittleEndian [low, high] :: ·)

def ofUnits? : List Nat → Option Text
  | [] => some []
  | [u] => if isHigh u || isLow u then none else some [Char.ofNat u]
  | u :: v :: rest =>
    if isHigh u && isLow v then
      (ofUnits? rest).map (Char.ofNat (0x10000 + (u - 0xD800) * 0x400 + (v - 0xDC00)) :: ·)
    else if isHigh u || isLow u then none
    else (ofUnits? (v :: rest)).map (Char.ofNat u :: ·)

/-- The text that some bytes are, if they are UTF-16. -/
def decode? (bytes : Bytes) : Option Text := (unitsOf? bytes).bind ofUnits?

theorem unitsOf?_littleEndian {units : List Nat} (h : ∀ u ∈ units, u < 0x10000) :
    unitsOf? (units.flatMap (Bytes.littleEndian 2)) = some units := by
  induction units with
  | nil => rfl
  | cons u rest ih =>
    have hu : Bytes.ofLittleEndian (Bytes.littleEndian 2 u) = u := by
      rw [Bytes.ofLittleEndian_littleEndian]
      exact Nat.mod_eq_of_lt (h u List.mem_cons_self)
    have hcons : (u :: rest).flatMap (Bytes.littleEndian 2) =
        UInt8.ofNat u :: UInt8.ofNat (u / 256) :: rest.flatMap (Bytes.littleEndian 2) := rfl
    rw [hcons, unitsOf?, ih fun v hv => h v (List.mem_cons_of_mem _ hv)]
    exact congrArg (fun u => some (u :: rest)) hu

/-- Characters are below the surrogates or above them. -/
theorem toNat_valid (c : Char) :
    c.toNat < 0xD800 ∨ (0xDFFF < c.toNat ∧ c.toNat < 0x110000) := c.valid

theorem lt_of_mem_units {c : Char} {u : Nat} (h : u ∈ units c) : u < 0x10000 := by
  have hc := toNat_valid c
  unfold units at h
  split at h
  · rw [List.mem_singleton.mp h]
    assumption
  · simp only [List.mem_cons, List.not_mem_nil, or_false] at h
    omega

theorem ofUnits?_units (c : Char) (rest : List Nat) :
    ofUnits? (units c ++ rest) = (ofUnits? rest).map (c :: ·) := by
  have hc := toNat_valid c
  unfold units
  split
  · have hhigh : isHigh c.toNat = false := by simp [isHigh]; omega
    have hlow : isLow c.toNat = false := by simp [isLow]; omega
    cases rest with
    | nil => simp [ofUnits?, hhigh, hlow]
    | cons v rest => simp [ofUnits?, hhigh, hlow]
  · rename_i hlarge
    have hhigh : isHigh (0xD800 + (c.toNat - 0x10000) / 0x400) = true := by simp [isHigh]; omega
    have hlow : isLow (0xDC00 + (c.toNat - 0x10000) % 0x400) = true := by simp [isLow]; omega
    have hvalue : 0x10000 + (0xD800 + (c.toNat - 0x10000) / 0x400 - 0xD800) * 0x400 +
        (0xDC00 + (c.toNat - 0x10000) % 0x400 - 0xDC00) = c.toNat := by omega
    simp only [List.cons_append, List.nil_append, ofUnits?, hhigh, hlow, Bool.and_self, if_true, hvalue,
      Char.ofNat_toNat]

/-- Text written in UTF-16 is read back as it was. -/
theorem decode?_encode (t : Text) : decode? (encode t) = some t := by
  have hunits : unitsOf? (encode t) = some (t.flatMap units) :=
    unitsOf?_littleEndian fun u hu => by
      obtain ⟨c, -, hc⟩ := List.mem_flatMap.mp hu
      exact lt_of_mem_units hc
  rw [decode?, hunits, Option.bind_some]
  clear hunits
  induction t with
  | nil => rfl
  | cons c rest ih => rw [List.flatMap_cons, ofUnits?_units, ih]; rfl

end HttpSession.Utf16
