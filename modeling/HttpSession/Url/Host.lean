import HttpSession.Text.Basic
import HttpSession.Url.Encoding

/-!
# Hosts of URLs

A host is a name or an address. Special schemes decode percent signs, read lower case names of ASCII
characters, and take a name whose last label is a number for an IPv4 address in any of its spellings;
other schemes keep a name as it is written. Both know IPv6 addresses in square brackets.

This is the host parser of the URL Standard without its mapping of international names to ASCII. Where the
standard would map a name with other characters, the name is refused (`internationalName`), and a label
that begins with `xn--` is taken as it stands, without looking at what it encodes. No other module looks
into names, so nothing else depends on this.
-/

namespace HttpSession.Url

inductive Error
  | relativeWithoutBase
  | relativeToOtherBase
  | emptyHost
  | port
  | ipv4Address
  | ipv6Address
  | internationalName
  | domainCharacter
  deriving DecidableEq, Repr

def Error.message : Error → Text
  | .relativeWithoutBase => "relative URL without a base"
  | .relativeToOtherBase => "relative URL with a cannot-be-a-base base"
  | .emptyHost => "empty host"
  | .port => "invalid port number"
  | .ipv4Address => "invalid IPv4 address"
  | .ipv6Address => "invalid IPv6 address"
  | .internationalName => "invalid international domain name"
  | .domainCharacter => "invalid domain character"

inductive Host
  | name (text : Text)
  | ipv4 (address : Nat)
  | ipv6 (groups : List Nat)
  deriving DecidableEq, Repr

/-! ## IPv4 addresses -/

def numberOf? (base : Nat) (digits : Text) : Option Nat :=
  digits.foldlM (fun n c => (hexDigit? c).bind fun d => if d < base then some (n * base + d) else none) 0

/-- A part of an IPv4 address: decimal, octal behind a zero, or hexadecimal behind `0x`. -/
def ipv4Part? (part : Text) : Option Nat :=
  match part with
  | [] => none
  | '0' :: 'x' :: digits | '0' :: 'X' :: digits => numberOf? 16 digits
  | '0' :: c :: digits => numberOf? 8 (c :: digits)
  | digits => numberOf? 10 digits

def ipv4Parts (name : Text) : List Text :=
  let parts := name.pieces '.'
  if parts.getLast? = some [] then parts.dropLast else parts

/-- Whether the last part of a name is a number, so that the name has to be an address. -/
def endsInNumber (name : Text) : Bool :=
  match (ipv4Parts name).getLast? with
  | none => false
  | some last => (last ≠ [] && last.all Char.isDigit) || (ipv4Part? last).isSome

/-- Reads an address of at most four parts: every part but the last is one byte, and the last fills
what is left. -/
def ipv4Address? (name : Text) : Option Nat := do
  let parts := ipv4Parts name
  let numbers ← if parts.length ≤ 4 then parts.mapM ipv4Part? else none
  let last ← numbers.getLast?
  let bytes := numbers.dropLast
  let room := 8 * (4 - bytes.length)
  if last < 1 <<< room ∧ bytes.all (· < 256) then
    some ((bytes.foldl (fun address byte => address * 256 + byte) 0) <<< room + last)
  else none

def ipv4Text (address : Nat) : Text :=
  Text.join "." ([3, 2, 1, 0].map fun i => Text.ofNat (address >>> (8 * i) % 256))

/-! ## IPv6 addresses -/

def ipv6Group? (digits : Text) : Option Nat :=
  if digits ≠ [] ∧ digits.length ≤ 4 then numberOf? 16 digits else none

def byteNumeral? (digits : Text) : Option Nat := do
  let n ← if digits ≠ [] ∧ digits.length ≤ 3 then numberOf? 10 digits else none
  if n < 256 ∧ Text.ofNat n = digits then some n else none

def ipv6Tail? (digits : Text) : Option (List Nat) := do
  match ← (digits.pieces '.').mapM byteNumeral? with
  | [a, b, c, d] => some [a * 256 + b, c * 256 + d]
  | _ => none

/-- The groups between colons; the last may be an IPv4 address. -/
def ipv6Groups? : List Text → Option (List Nat)
  | [] => some []
  | [last] => if last.contains '.' then ipv6Tail? last else (ipv6Group? last).map ([·])
  | group :: rest => do
    let first ← ipv6Group? group
    let others ← ipv6Groups? rest
    some (first :: others)

def ipv6Side? (side : Text) : Option (List Nat) :=
  if side = [] then some [] else ipv6Groups? (side.pieces ':')

def cutDoubleColon? : Text → Option (Text × Text)
  | [] => none
  | ':' :: ':' :: rest => some ([], rest)
  | c :: rest => (cutDoubleColon? rest).map fun (before, after) => (c :: before, after)

/-- Reads eight groups; a double colon stands for one or more groups of zero. -/
def ipv6Address? (t : Text) : Option (List Nat) := do
  match cutDoubleColon? t with
  | none =>
    let groups ← ipv6Groups? (t.pieces ':')
    if groups.length = 8 then some groups else none
  | some (before, after) =>
    let first ← if before.contains '.' then none else ipv6Side? before
    let second ← ipv6Side? after
    if first.length + second.length ≤ 7 then
      some (first ++ List.replicate (8 - first.length - second.length) 0 ++ second)
    else none

def leadingZeros (groups : List Nat) : Nat := (groups.takeWhile (· = 0)).length

def longestZeros : Nat → List Nat → Nat × Nat
  | start, [] => (start, 0)
  | start, group :: rest =>
    let here := leadingZeros (group :: rest)
    let later := longestZeros (start + 1) rest
    if later.2 ≤ here then (start, here) else later

/-- Writes the groups, with the longest run of at least two zeros as a double colon. -/
def ipv6Text (groups : List Nat) : Text :=
  let written (part : List Nat) : Text := Text.join ":" (part.map (Nat.toDigits 16))
  let (start, count) := longestZeros 0 groups
  if 2 ≤ count then written (groups.take start) ++ "::" ++ written (groups.drop (start + count))
  else written groups

namespace Host

def text : Host → Text
  | .name text => text
  | .ipv4 address => ipv4Text address
  | .ipv6 groups => "[" ++ ipv6Text groups ++ "]"

def readBracketed (t : Text) : Except Error Host :=
  match t.before? [']'] with
  | none => .error .ipv6Address
  | some inside => ((ipv6Address? inside).map Host.ipv6).elim (.error .ipv6Address) .ok

def denied (c : Char) : Bool :=
  c.toNat ≤ 0x20 || c.toNat = 0x7F || "%#/:<>?@[\\]^|".toList.contains c

def forbidden (c : Char) : Bool := "\x00\t\n\r #/:<>?@[\\]^|".toList.contains c

/-- Reads the host of a special scheme; an international name would have to be mapped to ASCII first, and is
refused. -/
def readSpecial (t : Text) : Except Error Host :=
  match t with
  | '[' :: rest => readBracketed rest
  | _ =>
    let bytes := percentDecode t
    if bytes.any (128 ≤ ·) then .error .internationalName
    else
      let name := Text.lower (bytes.map fun b => Char.ofNat b.toNat)
      if name.any denied then .error .internationalName
      else if name = [] then .error .emptyHost
      else if endsInNumber name then
        ((ipv4Address? name).map Host.ipv4).elim (.error .ipv4Address) .ok
      else .ok (.name name)

def readOther (t : Text) : Except Error Host :=
  match t with
  | '[' :: rest => readBracketed rest
  | _ => if t.any forbidden then .error .domainCharacter else .ok (.name (percentEncode inControls t))

end Host

end HttpSession.Url
