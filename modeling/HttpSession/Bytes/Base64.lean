import HttpSession.Bytes.Utf8

/-!
# Base64

Base64 of RFC 4648: the standard alphabet with padding. Reading is exact: the padding must fill the last
group, and bits that a last symbol carries beyond the bytes must be zero. Errors name the place of the
first fault.
-/

namespace HttpSession.Base64

inductive Error
  | symbol (offset : Nat) (byte : UInt8)
  | length (symbols : Nat)
  | lastSymbol (offset : Nat) (byte : UInt8)
  | padding
  deriving DecidableEq, Repr

def Error.message : Error → Text
  | .symbol offset byte =>
    "Invalid symbol " ++ Text.ofNat byte.toNat ++ ", offset " ++ Text.ofNat offset ++ "."
  | .length symbols => "Invalid input length: " ++ Text.ofNat symbols
  | .lastSymbol offset byte =>
    "Invalid last symbol " ++ Text.ofNat byte.toNat ++ ", offset " ++ Text.ofNat offset ++ "."
  | .padding => "Invalid padding"

def symbolOf (value : Nat) : Char :=
  if value < 26 then Char.ofNat (65 + value)
  else if value < 52 then Char.ofNat (71 + value)
  else if value < 62 then Char.ofNat (value - 4)
  else if value = 62 then '+' else '/'

def value? (byte : UInt8) : Option Nat :=
  let n := byte.toNat
  if 65 ≤ n && n ≤ 90 then some (n - 65)
  else if 97 ≤ n && n ≤ 122 then some (n - 71)
  else if 48 ≤ n && n ≤ 57 then some (n + 4)
  else if n = 43 then some 62
  else if n = 47 then some 63
  else none

def encode : Bytes → Text
  | [] => []
  | [a] =>
    let n := a.toNat * 16
    [symbolOf (n / 64), symbolOf (n % 64), '=', '=']
  | [a, b] =>
    let n := (a.toNat * 256 + b.toNat) * 4
    [symbolOf (n / 4096), symbolOf (n / 64 % 64), symbolOf (n % 64), '=']
  | a :: b :: c :: rest =>
    let n := (a.toNat * 256 + b.toNat) * 256 + c.toNat
    symbolOf (n / 262144) :: symbolOf (n / 4096 % 64) :: symbolOf (n / 64 % 64) ::
      symbolOf (n % 64) :: encode rest

def pad : UInt8 := 61

def valueAt (offset : Nat) (byte : UInt8) : Except Error Nat :=
  match value? byte with
  | some value => .ok value
  | none => .error (.symbol offset byte)

/-- The values of the symbols of the last group, which begins at `start`; padding stands only behind
two of them, and nothing else behind padding. -/
def lastValues (start : Nat) : Nat → Bytes → Except Error (List Nat × Nat)
  | _, [] => .ok ([], 0)
  | index, byte :: rest =>
    if byte = pad then
      if index < 2 then .error (.symbol (start + index) byte)
      else if rest.all (· = pad) then .ok ([], rest.length + 1)
      else .error (.symbol (start + index) pad)
    else do
      let value ← valueAt (start + index) byte
      let (values, pads) ← lastValues start (index + 1) rest
      .ok (value :: values, pads)

def decodeLast (start : Nat) (group : Bytes) : Except Error Bytes := do
  let (values, pads) ← lastValues start 0 group
  let byteAt (i : Nat) : UInt8 := group.getD i 0
  match values with
  | [] => .ok []
  | [_] => .error (.length (start + 1))
  | [a, b] =>
    if pads ≠ 2 then .error .padding
    else if b % 16 ≠ 0 then .error (.lastSymbol (start + 1) (byteAt 1))
    else .ok [UInt8.ofNat (a * 4 + b / 16)]
  | [a, b, c] =>
    if pads ≠ 1 then .error .padding
    else if c % 4 ≠ 0 then .error (.lastSymbol (start + 2) (byteAt 2))
    else .ok [UInt8.ofNat (a * 4 + b / 16), UInt8.ofNat (b * 16 + c / 4)]
  | a :: b :: c :: d :: _ =>
    .ok [UInt8.ofNat (a * 4 + b / 16), UInt8.ofNat (b * 16 + c / 4), UInt8.ofNat (c * 64 + d)]

def decodeFrom (start : Nat) : Bytes → Except Error Bytes
  | a :: b :: c :: d :: e :: rest => do
    let a ← valueAt start a
    let b ← valueAt (start + 1) b
    let c ← valueAt (start + 2) c
    let d ← valueAt (start + 3) d
    let others ← decodeFrom (start + 4) (e :: rest)
    .ok (UInt8.ofNat (a * 4 + b / 16) :: UInt8.ofNat (b * 16 + c / 4) ::
      UInt8.ofNat (c * 64 + d) :: others)
  | group => decodeLast start group

/-- Reads Base64. A single byte behind the last whole group is looked at first: if it is no symbol,
the error names it. -/
def decode (bytes : Bytes) : Except Error Bytes :=
  match bytes.getLast? with
  | some last =>
    if bytes.length % 4 = 1 ∧ last ≠ pad ∧ value? last = none then
      .error (.symbol (bytes.length - 1) last)
    else decodeFrom 0 bytes
  | none => .ok []

end HttpSession.Base64
