import HttpSession.Text.Basic

/-!
# Integers of a width

Reading a decimal integer of so many bits, signed or not: an optional sign, then ASCII digits from the
left. The first digit that leaves the range ends the reading, whatever follows it.
-/

namespace HttpSession.Text

structure Width where
  signed : Bool
  bits : Nat
  deriving DecidableEq, Repr

namespace Width

def greatest (w : Width) : Nat := 1 <<< (if w.signed then w.bits - 1 else w.bits) - 1

def depth (w : Width) : Nat := if w.signed then 1 <<< (w.bits - 1) else 0

def port : Width := ⟨false, 16⟩

def word : Width := ⟨false, 32⟩

def double : Width := ⟨false, 64⟩

def signedDouble : Width := ⟨true, 64⟩

/-- Wide enough for every setting before its range is checked. -/
def signedQuadruple : Width := ⟨true, 128⟩

end Width

inductive IntegerError
  | empty
  | invalidDigit
  | tooLarge
  | tooSmall
  deriving DecidableEq, Repr

def IntegerError.message : IntegerError → Text
  | .empty => "cannot parse integer from empty string"
  | .invalidDigit => "invalid digit found in string"
  | .tooLarge => "number too large to fit in target type"
  | .tooSmall => "number too small to fit in target type"

def digit? (c : Char) : Option Nat := if c.isDigit then some (c.toNat - '0'.toNat) else none

/-- Digits behind a number that is already read; `beyond` is the error past `limit`. -/
def digits (limit : Nat) (beyond : IntegerError) : Nat → Text → Except IntegerError Nat
  | read, [] => .ok read
  | read, c :: rest =>
    match digit? c with
    | none => .error .invalidDigit
    | some d => if read * 10 + d ≤ limit then digits limit beyond (read * 10 + d) rest else .error beyond

def Width.read (w : Width) : Text → Except IntegerError Int
  | [] => .error .empty
  | '+' :: rest =>
    if rest = [] then .error .invalidDigit else (digits w.greatest .tooLarge 0 rest).map Int.ofNat
  | '-' :: rest =>
    if rest = [] ∨ w.signed = false then .error .invalidDigit
    else (digits w.depth .tooSmall 0 rest).map fun n => -(n : Int)
  | t => (digits w.greatest .tooLarge 0 t).map Int.ofNat

def Width.readNat? (w : Width) (t : Text) : Option Nat :=
  match w.read t with
  | .ok n => some n.toNat
  | .error _ => none

end HttpSession.Text
