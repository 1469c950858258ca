import HttpSession.Auth.Fault
import HttpSession.Bytes.Utf16
import HttpSession.Hash.Hmac
import HttpSession.Hash.Md4
import HttpSession.Text.Uppercase
import HttpSession.Time.Instant

/-!
# NTLM messages

The messages of MS-NLMP that a client sends, and as much of the one it receives as it needs. A message
is a fixed header and then its fields, one behind the other; for each field the header has a descriptor
with its length, twice, and its place. A writer makes room for the descriptors first and fills them in when
the fields come.
-/

namespace HttpSession.Auth.Ntlm

/-! ## Writing -/

def signature : Bytes := [0x4E, 0x54, 0x4C, 0x4D, 0x53, 0x53, 0x50, 0x00]

/-- How a message begins: the signature, and its place among the messages of a handshake. -/
def kindOf (number : Nat) : Bytes := signature ++ Bytes.littleEndian 4 number

def largestField : Nat := 0xFFFF

def largestPlace : Nat := 0xFFFFFFFF

def flagBytes (flags : UInt32) : Bytes := Bytes.littleEndian 4 flags.toNat

/-- A message that is being written: its header, with room for descriptors that are filled in later, and the
fields so far. How long the header will be is known from the start. -/
structure Writer where
  header : Bytes
  payload : Bytes := []
  headerSize : Nat

namespace Writer

def new (number headerSize : Nat) : Writer := { header := kindOf number, headerSize }

def put (w : Writer) (flags : UInt32) : Writer := { w with header := w.header ++ flagBytes flags }

def reserve (w : Writer) : Nat × Writer :=
  (w.header.length, { w with header := w.header ++ List.replicate 8 0 })

def reserveAll (w : Writer) : Nat → List Nat × Writer
  | 0 => ([], w)
  | count + 1 =>
    let (slot, w) := w.reserve
    let (slots, w) := w.reserveAll count
    (slot :: slots, w)

/-- Appends a field, and fills in its descriptor: the length, twice, and the place in the message. -/
def append (w : Writer) (slot : Nat) (field : Bytes) : Except Fault Writer :=
  let place := w.headerSize + w.payload.length
  if largestField < field.length ∨ largestPlace < place then .error .fieldSize
  else
    let size := Bytes.littleEndian 2 field.length
    let header := (w.header.patch slot size).patch (slot + 2) size
    .ok { w with header := header.patch (slot + 4) (Bytes.littleEndian 4 place),
                 payload := w.payload ++ field }

def appendAll (w : Writer) : List Nat → List Bytes → Except Fault Writer
  | slot :: slots, field :: fields => do (← w.append slot field).appendAll slots fields
  | _, _ => .ok w

/-- The message. A header that is too short is filled up, and one that is too long cut off. -/
def finish (w : Writer) : Bytes :=
  (w.header ++ List.replicate (w.headerSize - w.header.length) 0).take w.headerSize ++ w.payload

end Writer

/-! ## Flags -/

def unicode : UInt32 := 0x00000001
def oem : UInt32 := 0x00000002
def requestTarget : UInt32 := 0x00000004
def ntlm : UInt32 := 0x00000200
def domainSupplied : UInt32 := 0x00001000
def workstationSupplied : UInt32 := 0x00002000
def alwaysSign : UInt32 := 0x00008000
def extendedSecurity : UInt32 := 0x00080000
def targetInfo : UInt32 := 0x00800000
def strong128 : UInt32 := 0x20000000
def strong56 : UInt32 := 0x80000000

/-! ## Type 1 -/

/-- What a client offers: always the same, and that it names its domain and workstation. -/
def offer (domain workstation : Text) : UInt32 :=
  unicode ||| oem ||| requestTarget ||| ntlm ||| alwaysSign ||| extendedSecurity ||| strong128 |||
    strong56 ||| (if domain = [] then 0 else domainSupplied) |||
    (if workstation = [] then 0 else workstationSupplied)

/-- The first message: domain and workstation in upper case, in UTF-8. -/
def type1 (domain workstation : Option Text) : Except Fault Bytes := do
  let domain := (domain.getD []).upperCase
  let workstation := (workstation.getD []).upperCase
  let (slots, w) := ((Writer.new 1 32).put (offer domain workstation)).reserveAll 2
  let w ← w.appendAll slots [Utf8.encode domain, Utf8.encode workstation]
  .ok w.finish

/-! ## Type 2 -/

structure Type2 where
  flags : UInt32
  challenge : Bytes
  info : Bytes
  deriving DecidableEq, Repr

def numberAt? (message : Bytes) (start count : Nat) : Option Nat :=
  (message.slice? start count).map Bytes.ofLittleEndian

def fieldAt? (message : Bytes) (place : Nat) : Option Bytes := do
  let size ← numberAt? message place 2
  let start ← numberAt? message (place + 4) 4
  message.slice? start size

def isType2 (message : Bytes) : Bool :=
  32 ≤ message.length && message.take 8 = signature && numberAt? message 8 4 = some 2

/-- Reads the message of a server; one that is short has no target information. -/
def Type2.read (message : Bytes) : Except Fault Type2 :=
  if ¬ isType2 message then .error .notType2
  else
    let flags := UInt32.ofNat ((numberAt? message 20 4).getD 0)
    let challenge := (message.slice? 24 8).getD []
    if message.length < 48 then .ok ⟨flags, challenge, []⟩
    else
      match fieldAt? message 40 with
      | some info => .ok ⟨flags, challenge, info⟩
      | none => .error .targetInfo

def Type2.decode (token : Text) : Except Fault Type2 :=
  match Base64.decode (Utf8.encode token.trim) with
  | .error error => .error (.encoding error)
  | .ok message => Type2.read message

/-! ## Type 3 -/

def ownerKey (user domain password : Text) : Bytes :=
  Hash.hmacMd5 (Hash.Md4.digest (Utf16.encode password)) (Utf16.encode (user.upperCase ++ domain))

def epochDifference : Nat := 11644473600

/-- Tenths of microseconds since 1601-01-01; times before 1970 count as its beginning. -/
def timestamp (now : Instant) : Nat :=
  if now.seconds < 0 then epochDifference * 10000000
  else (now.seconds.toNat + epochDifference) * 10000000 + now.nanos / 100

/-- What the client adds to the challenge: the time, a number of its own, and what the server told. -/
def blob (number : Bytes) (now : Instant) (info : Bytes) : Bytes :=
  [1, 1, 0, 0, 0, 0, 0, 0] ++ Bytes.littleEndian 8 (timestamp now) ++ number ++ [0, 0, 0, 0] ++ info ++
    [0, 0, 0, 0]

/-- A proof that the key is known, and what it is a proof over besides the challenge. -/
def proof (key challenge rest : Bytes) : Bytes := Hash.hmacMd5 key (challenge ++ rest) ++ rest

def kept : UInt32 :=
  unicode ||| requestTarget ||| ntlm ||| alwaysSign ||| extendedSecurity ||| targetInfo ||| strong128 |||
    strong56

structure Identity where
  user : Text
  password : Text
  domain : Text
  workstation : Text

/-- The fields of the last message: two proofs, who answers, and no session key. -/
def type3Fields (who : Identity) (server : Type2) (number : Bytes) (now : Instant) : List Bytes :=
  let key := ownerKey who.user who.domain who.password
  [proof key server.challenge number, proof key server.challenge (blob number now server.info),
    Utf16.encode who.domain, Utf16.encode who.user, Utf16.encode who.workstation, []]

/-- The last message, in which the flags follow the descriptors. -/
def type3 (who : Identity) (server : Type2) (number : Bytes) (now : Instant) : Except Fault Bytes := do
  let (slots, w) := (Writer.new 3 64).reserveAll 6
  let w ← (w.put ((server.flags &&& kept) ||| unicode)).appendAll slots (type3Fields who server number now)
  .ok w.finish

end HttpSession.Auth.Ntlm
