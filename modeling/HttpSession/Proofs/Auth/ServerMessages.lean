import HttpSession.Proofs.Auth.NtlmMessages

/-!
# Messages of a server

A server sends flags and a challenge, and names a part of its message as information, if the message is long
enough to hold a descriptor. The lengths and places in it are whatever the server wrote, so a client looks
only where the message reaches.

Main statement: what a server writes is what is read; whatever is sent, what is read of it stands in the
message where it should; and no look goes past the end (`decode_exact`).
-/

namespace HttpSession

namespace Bytes

variable {bytes : Bytes} {start count : Nat}

theorem slice?_of_le (h : start + count ≤ bytes.length) :
    bytes.slice? start count = some ((bytes.drop start).take count) := if_pos h

theorem slice?_eq_some_iff {part : Bytes} : bytes.slice? start count = some part ↔
    start + count ≤ bytes.length ∧ part = (bytes.drop start).take count := by
  unfold slice?
  split
  · rename_i h
    exact ⟨fun hpart => ⟨h, (Option.some.inj hpart).symm⟩, fun hpart => congrArg some hpart.2.symm⟩
  · rename_i h
    exact ⟨nofun, fun hpart => absurd hpart.1 h⟩

theorem ofLittleEndian_lt (bytes : Bytes) : ofLittleEndian bytes < 256 ^ bytes.length := by
  induction bytes with
  | nil => exact Nat.one_pos
  | cons b rest ih =>
    have hb := b.toNat_lt
    rw [ofLittleEndian, List.length_cons, Nat.pow_succ]
    omega

end Bytes

namespace Auth.Ntlm

-- ---------------------------------------------------------------------------
-- What is read
-- ---------------------------------------------------------------------------

section
variable {message : Bytes} {start count number place : Nat} {t : Type2}

theorem numberAt?_of_le (h : start + count ≤ message.length) : numberAt? message start count =
    some (Bytes.ofLittleEndian ((message.drop start).take count)) := by
  rw [numberAt?, Bytes.slice?_of_le h]
  rfl

theorem exists_regionAt? (h : place + 8 ≤ message.length) : ∃ r, regionAt? message place = some r := by
  rw [regionAt?, numberAt?_of_le (by omega), numberAt?_of_le (by omega)]
  exact ⟨_, rfl⟩

theorem isType2_iff : isType2 message = true ↔
    32 ≤ message.length ∧ message.take 8 = signature ∧ numberAt? message 8 4 = some 2 := by
  simp [isType2, and_assoc]

def infoOf (message : Bytes) : Except Fault Bytes :=
  if message.length < 48 then .ok []
  else
    match fieldAt? message 40 with
    | some info => .ok info
    | none => .error .targetInfo

theorem Type2.read_of_isType2 (h : isType2 message = true) :
    Type2.read message = (infoOf message).map fun info =>
      ⟨UInt32.ofNat (Bytes.ofLittleEndian ((message.drop 20).take 4)), (message.drop 24).take 8, info⟩ := by
  have hlong := (isType2_iff.mp h).1
  rw [Type2.read, if_neg (not_not.mpr h), numberAt?_of_le (by omega), Bytes.slice?_of_le (by omega), infoOf]
  dsimp only [Option.getD_some]
  split
  · rfl
  · cases fieldAt? message 40 <;> rfl

/-- Where in a message the values stand that are read of it. -/
structure Type2.IsIn (t : Type2) (message : Bytes) : Prop where
  length : 32 ≤ message.length
  lead : message.take 8 = signature
  number : numberAt? message 8 4 = some 2
  flags : numberAt? message 20 4 = some t.flags.toNat
  challenge : message.slice? 24 8 = some t.challenge
  short : message.length < 48 → t.info = []
  long : 48 ≤ message.length → ∃ r, regionAt? message 40 = some r ∧
    r.start + r.size ≤ message.length ∧ t.info = (message.drop r.start).take r.size

theorem Type2.isIn_of_read (h : Type2.read message = .ok t) : t.IsIn message := by
  obtain ⟨hkind, hchallenge, hinfo⟩ := Type2.told_of_read h
  obtain ⟨hlength, hlead, hnumber⟩ := isType2_iff.mp hkind
  rw [Type2.read_of_isType2 hkind, map_ok_iff] at h
  obtain ⟨info, -, rfl⟩ := h
  refine ⟨hlength, hlead, hnumber, ?_, hchallenge, fun hshort => ?_, fun hlong => ?_⟩
  · have hlt := Bytes.ofLittleEndian_lt ((message.drop 20).take 4)
    rw [List.length_take_of_le (by rw [List.length_drop]; omega)] at hlt
    rw [numberAt?_of_le (by omega), UInt32.toNat_ofNat_of_lt' hlt]
  · rwa [if_pos hshort] at hinfo
  · rw [if_neg (Nat.not_lt.mpr hlong), fieldAt?_eq] at hinfo
    obtain ⟨r, hr, hinfo⟩ := Option.bind_eq_some_iff.mp hinfo
    exact ⟨r, hr, Bytes.slice?_eq_some_iff.mp hinfo⟩

-- ---------------------------------------------------------------------------
-- Where it is looked
-- ---------------------------------------------------------------------------

/-- Reading the information in such a way that there is no result where a look goes past the end. -/
def infoWithin? (message : Bytes) : Option (Except Fault Bytes) :=
  if message.length < 48 then some (.ok [])
  else do
    let r ← regionAt? message 40
    if message.length < r.start + r.size then some (.error .targetInfo)
    else (message.slice? r.start r.size).map .ok

def Type2.readWithin? (message : Bytes) : Option (Except Fault Type2) :=
  if message.length < 32 then some (.error .notType2)
  else do
    let lead ← message.slice? 0 8
    let number ← numberAt? message 8 4
    if lead ≠ signature ∨ number ≠ 2 then some (.error .notType2)
    else do
      let flags ← numberAt? message 20 4
      let challenge ← message.slice? 24 8
      let info ← infoWithin? message
      some (info.map fun info => ⟨UInt32.ofNat flags, challenge, info⟩)

theorem infoWithin?_eq (message : Bytes) : infoWithin? message = some (infoOf message) := by
  unfold infoWithin? infoOf
  split
  · rfl
  rename_i hlong
  obtain ⟨r, hr⟩ := exists_regionAt? (Nat.not_lt.mp hlong)
  rw [fieldAt?_eq, hr]
  dsimp only [Option.bind_eq_bind, Option.bind_some]
  by_cases hinside : r.start + r.size ≤ message.length
  · rw [if_neg (Nat.not_lt.mpr hinside), Bytes.slice?_of_le hinside]
    rfl
  · rw [if_pos (Nat.not_le.mp hinside), Bytes.slice?, if_neg hinside]

theorem Type2.readWithin?_eq (message : Bytes) : Type2.readWithin? message = some (Type2.read message) := by
  unfold Type2.readWithin?
  split
  · rename_i hshort
    have hkind : ¬ isType2 message = true := fun h =>
      absurd (isType2_iff.mp h).1 (Nat.not_le.mpr hshort)
    rw [Type2.read, if_pos hkind]
  rename_i hlong
  rw [Bytes.slice?_of_le (by omega), numberAt?_of_le (by omega), numberAt?_of_le (by omega),
    Bytes.slice?_of_le (by omega), infoWithin?_eq]
  simp only [Option.bind_eq_bind, Option.bind_some, List.drop_zero]
  have hkind : isType2 message = true ↔
      message.take 8 = signature ∧ Bytes.ofLittleEndian ((message.drop 8).take 4) = 2 := by
    rw [isType2_iff, numberAt?_of_le (by omega), Option.some.injEq, and_iff_right (Nat.not_lt.mp hlong)]
  split
  · rename_i hother
    have hother : ¬ isType2 message = true := fun h => by
      obtain ⟨hlead, hnumber⟩ := hkind.mp h
      exact hother.elim (· hlead) (· hnumber)
    rw [Type2.read, if_pos hother]
  · rename_i hsame
    obtain ⟨hlead, hnumber⟩ := not_or.mp hsame
    rw [Type2.read_of_isType2 (hkind.mpr ⟨not_not.mp hlead, not_not.mp hnumber⟩)]

end

-- ---------------------------------------------------------------------------
-- What a server writes
-- ---------------------------------------------------------------------------

/-- What stands behind a challenge where a server names information: the descriptor, behind eight bytes that
say nothing, and the payload. The information is any part of the whole message, 48 bytes of which come before
the payload. -/
structure Announcement where
  reserved : Bytes
  info : Region
  repeated : Bytes
  payload : Bytes
  length_reserved : reserved.length = 8
  length_repeated : repeated.length = 2
  start_lt : info.start < 2 ^ 32
  size_lt : info.size < 2 ^ 16
  inside : info.start + info.size ≤ 48 + payload.length

def Announcement.bytes (a : Announcement) : Bytes :=
  a.reserved ++ Bytes.littleEndian 2 a.info.size ++ a.repeated ++ Bytes.littleEndian 4 a.info.start ++
    a.payload

inductive Ending
  | short (bytes : Bytes) (h : bytes.length < 16)
  | announcing (a : Announcement)

def Ending.bytes : Ending → Bytes
  | .short bytes _ => bytes
  | .announcing a => a.bytes

/-- A message of a server. The name of the server, which its own descriptor places in the payload, is not
read. -/
structure ServerMessage where
  name : Bytes
  flags : UInt32
  challenge : Bytes
  ending : Ending
  length_name : name.length = 8
  length_challenge : challenge.length = 8

namespace ServerMessage

variable (s : ServerMessage)

def bytes : Bytes := kindOf 2 ++ s.name ++ flagBytes s.flags ++ s.challenge ++ s.ending.bytes

def told : Type2 :=
  ⟨s.flags, s.challenge,
    match s.ending with
    | .short _ _ => []
    | .announcing a => (s.bytes.drop a.info.start).take a.info.size⟩

theorem length_bytes : s.bytes.length = 32 + s.ending.bytes.length := by
  simp [bytes, kindOf, signature, flagBytes, s.length_name, s.length_challenge]
  omega

theorem isType2_bytes : isType2 s.bytes = true := by
  have hkind : numberAt? s.bytes 8 4 = some 2 := by
    have hbytes : s.bytes = signature ++ Bytes.littleEndian 4 2 ++
        (s.name ++ flagBytes s.flags ++ s.challenge ++ s.ending.bytes) := by
      simp [bytes, kindOf]
    rw [hbytes]
    exact numberAt?_append rfl (by decide)
  have htake : s.bytes.take 8 = signature := by
    simp only [bytes, kindOf, List.append_assoc]
    exact List.take_left' rfl
  simp [isType2, hkind, htake, s.length_bytes]

theorem numberAt?_flags : numberAt? s.bytes 20 4 = some s.flags.toNat := by
  have hbytes : s.bytes = kindOf 2 ++ s.name ++ Bytes.littleEndian 4 s.flags.toNat ++
      (s.challenge ++ s.ending.bytes) := by
    simp [bytes, flagBytes]
  rw [hbytes]
  exact numberAt?_append (by simp [kindOf, signature, s.length_name]) (UInt32.toNat_lt _)

theorem slice?_challenge : s.bytes.slice? 24 8 = some s.challenge :=
  Bytes.slice?_append (by simp [kindOf, signature, flagBytes, s.length_name]) s.length_challenge.symm

theorem fieldAt?_info {a : Announcement} (h : s.ending = .announcing a) :
    fieldAt? s.bytes 40 = some s.told.info := by
  let front := kindOf 2 ++ s.name ++ flagBytes s.flags ++ s.challenge ++ a.reserved
  have hfront : front.length = 40 := by
    simp [front, kindOf, signature, flagBytes, s.length_name, s.length_challenge, a.length_reserved]
  have hsize : numberAt? s.bytes 40 2 = some a.info.size := by
    have hbytes : s.bytes = front ++ Bytes.littleEndian 2 a.info.size ++
        (a.repeated ++ Bytes.littleEndian 4 a.info.start ++ a.payload) := by
      simp [bytes, front, h, Ending.bytes, Announcement.bytes]
    rw [hbytes]
    exact numberAt?_append hfront.symm a.size_lt
  have hstart : numberAt? s.bytes 44 4 = some a.info.start := by
    have hbytes : s.bytes = front ++ Bytes.littleEndian 2 a.info.size ++ a.repeated ++
        Bytes.littleEndian 4 a.info.start ++ a.payload := by
      simp [bytes, front, h, Ending.bytes, Announcement.bytes]
    rw [hbytes]
    exact numberAt?_append (by simp [hfront, a.length_repeated]) a.start_lt
  have hlength : s.bytes.length = 48 + a.payload.length := by
    rw [length_bytes, h]
    simp only [Ending.bytes, Announcement.bytes, List.length_append, Bytes.length_littleEndian,
      a.length_reserved, a.length_repeated]
    omega
  rw [fieldAt?, hsize, hstart, told, h]
  exact Bytes.slice?_of_le (hlength ▸ a.inside)

theorem infoOf_bytes : infoOf s.bytes = .ok s.told.info := by
  have hlength := s.length_bytes
  unfold infoOf
  cases h : s.ending with
  | short bytes hshort =>
    rw [h] at hlength
    rw [if_pos (by rw [hlength]; exact Nat.add_lt_add_left hshort 32), told, h]
  | announcing a =>
    rw [h] at hlength
    have hlong : ¬ s.bytes.length < 48 := by
      simp only [hlength, Ending.bytes, Announcement.bytes, List.length_append, Bytes.length_littleEndian,
        a.length_reserved, a.length_repeated]
      omega
    rw [if_neg hlong, s.fieldAt?_info h]

theorem read_bytes : Type2.read s.bytes = .ok s.told := by
  have hlong := (isType2_iff.mp s.isType2_bytes).1
  have hflags := s.numberAt?_flags
  have hchallenge := s.slice?_challenge
  rw [numberAt?_of_le (by omega), Option.some.injEq] at hflags
  rw [Bytes.slice?_of_le (by omega), Option.some.injEq] at hchallenge
  rw [Type2.read_of_isType2 s.isType2_bytes, s.infoOf_bytes, hflags, hchallenge, UInt32.ofNat_toNat]
  rfl

-- the information may be any part of the message, such as its beginning
example :
    let announcement : Announcement :=
      ⟨List.replicate 8 0, ⟨0, 8⟩, [0, 0], [], rfl, rfl, by decide, by decide, by decide⟩
    (⟨List.replicate 8 0, 1, List.replicate 8 7, .announcing announcement, rfl, rfl⟩ :
      ServerMessage).told.info = signature := by
  decide

end ServerMessage

-- ---------------------------------------------------------------------------
-- Decoding
-- ---------------------------------------------------------------------------

theorem Type2.decode_eq {token : Text} {message : Bytes}
    (h : Base64.decode (Utf8.encode token.trim) = .ok message) :
    Type2.decode token = Type2.read message := by
  rw [Type2.decode, h]

/-- What a server writes is read as it was, in Base64; whatever a token is, reading it fails, or gives what
stands in the message at its places; and it never looks past the end of the message. -/
theorem decode_exact :
    (∀ s : ServerMessage, Type2.decode (Base64.encode s.bytes) = .ok s.told) ∧
    (∀ token, (∃ fault, Type2.decode token = .error fault) ∨
      ∃ message t, Base64.decode (Utf8.encode token.trim) = .ok message ∧ Type2.decode token = .ok t ∧
        t.IsIn message) ∧
    (∀ token message, Base64.decode (Utf8.encode token.trim) = .ok message →
      Type2.readWithin? message = some (Type2.decode token)) := by
  refine ⟨fun s => ?_, fun token => ?_, fun token message h => ?_⟩
  · have hdecode : Base64.decode (Utf8.encode (Base64.encode s.bytes).trim) = .ok s.bytes := by
      rw [Base64.trim_encode, Base64.decode_encode]
    rw [Type2.decode_eq hdecode, s.read_bytes]
  · cases hmessage : Base64.decode (Utf8.encode token.trim) with
    | error error => exact .inl ⟨.encoding error, by rw [Type2.decode, hmessage]⟩
    | ok message =>
      rw [Type2.decode_eq hmessage]
      cases ht : Type2.read message with
      | error fault => exact .inl ⟨fault, rfl⟩
      | ok t => exact .inr ⟨message, t, rfl, rfl, Type2.isIn_of_read ht⟩
  · rw [Type2.decode_eq h, Type2.readWithin?_eq]

end Auth.Ntlm

end HttpSession
