import HttpSession.Auth.Ntlm.Message
import HttpSession.Proofs.ExceptLaws

/-!
# Writing messages

While a message is written its header has descriptors of the fields so far, then room for those of the fields
to come, then what was put behind the room; every field that is appended moves the border between the first
two by one descriptor (`append_filling`).

Main statements: a message is written exactly if each of its fields is short enough, and then it is its
beginning, the descriptors, and the fields (`type1_ok_iff`, `type3_ok_iff`).
-/

namespace HttpSession.Auth.Ntlm

-- ---------------------------------------------------------------------------
-- Descriptors
-- ---------------------------------------------------------------------------

/-- The length of a field, twice, and its place in the message. -/
def descriptor (size place : Nat) : Bytes :=
  Bytes.littleEndian 2 size ++ Bytes.littleEndian 2 size ++ Bytes.littleEndian 4 place

def descriptors : Nat → List Bytes → Bytes
  | _, [] => []
  | place, field :: rest => descriptor field.length place ++ descriptors (place + field.length) rest

@[simp] theorem length_descriptor (size place : Nat) : (descriptor size place).length = 8 := by
  simp [descriptor]

theorem length_descriptors (place : Nat) (fields : List Bytes) :
    (descriptors place fields).length = 8 * fields.length := by
  induction fields generalizing place with
  | nil => rfl
  | cons field rest ih =>
    rw [descriptors, List.length_append, length_descriptor, ih, List.length_cons]
    omega

theorem descriptors_append (place : Nat) (fields others : List Bytes) :
    descriptors place (fields ++ others) =
      descriptors place fields ++ descriptors (place + fields.flatten.length) others := by
  induction fields generalizing place with
  | nil => rfl
  | cons field rest ih => simp [descriptors, ih, Nat.add_assoc]

-- ---------------------------------------------------------------------------
-- Writers
-- ---------------------------------------------------------------------------

namespace Writer

/-- A writer with some fields behind a header, and room for the descriptors of some more. -/
def filling (front back : Bytes) (headerSize : Nat) (fields : List Bytes) (room : Nat) : Writer where
  header := front ++ descriptors headerSize fields ++ List.replicate (8 * room) 0 ++ back
  payload := fields.flatten
  headerSize := headerSize

def slotsFrom (first : Nat) : Nat → List Nat
  | 0 => []
  | count + 1 => first :: slotsFrom (first + 8) count

theorem reserveAll_eq (w : Writer) (count : Nat) : w.reserveAll count =
    (slotsFrom w.header.length count, { w with header := w.header ++ List.replicate (8 * count) 0 }) := by
  induction count generalizing w with
  | zero => simp [reserveAll, slotsFrom]
  | succ count ih =>
    simp only [reserveAll, reserve, ih, slotsFrom, List.length_append, List.length_replicate,
      List.append_assoc, List.replicate_append_replicate, Nat.mul_succ, Nat.add_comm 8]

variable {front back field : Bytes} {fields others : List Bytes} {headerSize room : Nat} {w : Writer}

/-- The first descriptor for which there is room is filled in. -/
theorem append_filling : (filling front back headerSize fields (room + 1)).append
    (front.length + 8 * fields.length) field =
      if largestField < field.length ∨ largestPlace < headerSize + fields.flatten.length then
        .error .fieldSize
      else .ok (filling front back headerSize (fields ++ [field]) room) := by
  let before := front ++ descriptors headerSize fields
  let size := Bytes.littleEndian 2 field.length
  let place := Bytes.littleEndian 4 (headerSize + fields.flatten.length)
  let rest := List.replicate (8 * room) 0 ++ back
  have hbefore : front.length + 8 * fields.length = before.length := by
    rw [List.length_append, length_descriptors]
  have hroom : front ++ descriptors headerSize fields ++ List.replicate (8 * (room + 1)) 0 ++ back =
      before ++ List.replicate 2 0 ++ (List.replicate 2 0 ++ (List.replicate 4 0 ++ rest)) := by
    simp only [before, rest, List.append_assoc, List.append_cancel_left_eq]
    simp only [← List.append_assoc, List.replicate_append_replicate, List.append_cancel_right_eq]
    exact congrArg (List.replicate · 0) (by omega)
  have hfirst : (before ++ List.replicate 2 0 ++ (List.replicate 2 0 ++ (List.replicate 4 0 ++ rest))).patch
      before.length size = before ++ size ++ List.replicate 2 0 ++ (List.replicate 4 0 ++ rest) := by
    rw [Bytes.patch_append rfl (by simp [size]), ← List.append_assoc]
  have hsecond : (before ++ size ++ List.replicate 2 0 ++ (List.replicate 4 0 ++ rest)).patch
      (before.length + 2) size = before ++ size ++ size ++ List.replicate 4 0 ++ rest := by
    rw [Bytes.patch_append (by simp [size]) (by simp [size]), ← List.append_assoc]
  have hthird : (before ++ size ++ size ++ List.replicate 4 0 ++ rest).patch (before.length + 4) place =
      front ++ descriptors headerSize (fields ++ [field]) ++ List.replicate (8 * room) 0 ++ back := by
    rw [Bytes.patch_append (by simp [size]) (by simp [place]), descriptors_append]
    simp [before, rest, size, place, descriptors, descriptor]
  unfold append
  simp only [filling, hbefore, hroom]
  split
  · rfl
  · rw [hfirst, hsecond, hthird]
    simp

/-- Fields are appended in the order of their slots exactly if each is short enough, as long as no place is
out of reach. -/
theorem appendAll_filling_ok_iff
    (hreach : headerSize + fields.flatten.length + others.length * largestField ≤ largestPlace) :
    (filling front back headerSize fields others.length).appendAll
        (slotsFrom (front.length + 8 * fields.length) others.length) others = .ok w ↔
      (∀ field ∈ others, field.length ≤ largestField) ∧
        w = filling front back headerSize (fields ++ others) 0 := by
  induction others generalizing fields with
  | nil => simp [slotsFrom, appendAll, eq_comm]
  | cons field rest ih =>
    rw [List.length_cons, Nat.succ_mul] at hreach
    have hplace : ¬ largestPlace < headerSize + fields.flatten.length := by omega
    rw [List.length_cons, slotsFrom, appendAll, append_filling, bind_ok_iff]
    by_cases hfield : field.length ≤ largestField
    · have hnext : headerSize + (fields ++ [field]).flatten.length + rest.length * largestField ≤
          largestPlace := by
        simp only [List.flatten_append, List.flatten_singleton, List.length_append]
        omega
      have hslot : front.length + 8 * fields.length + 8 =
          front.length + 8 * (fields ++ [field]).length := by
        simp [Nat.mul_succ, Nat.add_assoc]
      rw [if_neg (not_or.mpr ⟨Nat.not_lt.mpr hfield, hplace⟩), hslot]
      simpa [hfield] using ih hnext
    · rw [if_pos (.inl (Nat.lt_of_not_le hfield))]
      simp [hfield]

theorem finish_filling
    (hsize : headerSize = front.length + 8 * fields.length + back.length) :
    (filling front back headerSize fields 0).finish =
      front ++ descriptors headerSize fields ++ back ++ fields.flatten := by
  have hlength : (front ++ descriptors headerSize fields ++ back).length = headerSize := by
    rw [List.length_append, List.length_append, length_descriptors, hsize]
  rw [finish]
  simp only [filling, Nat.mul_zero, List.replicate_zero, List.append_nil, hlength, Nat.sub_self]
  rw [List.take_of_length_le (Nat.le_of_eq hlength)]

/-- A message with all its room is written exactly if every field is short enough. -/
theorem written_ok_iff (front back : Bytes) (headerSize : Nat) (fields : List Bytes) (message : Bytes)
    (hsize : headerSize = front.length + 8 * fields.length + back.length)
    (hreach : headerSize + fields.length * largestField ≤ largestPlace) :
    ((filling front back headerSize [] fields.length).appendAll (slotsFrom front.length fields.length)
        fields >>= fun w => .ok w.finish) = .ok message ↔
      (∀ field ∈ fields, field.length ≤ largestField) ∧
        message = front ++ descriptors headerSize fields ++ back ++ fields.flatten := by
  have happend {w : Writer} :
      (filling front back headerSize [] fields.length).appendAll (slotsFrom front.length fields.length)
          fields = .ok w ↔
        (∀ field ∈ fields, field.length ≤ largestField) ∧ w = filling front back headerSize fields 0 :=
    appendAll_filling_ok_iff (by simpa using hreach)
  rw [bind_ok_iff]
  constructor
  · rintro ⟨w, hw, hmessage⟩
    obtain ⟨hfields, rfl⟩ := happend.mp hw
    exact ⟨hfields, (Except.ok.inj hmessage).symm.trans (finish_filling hsize)⟩
  · rintro ⟨hfields, rfl⟩
    exact ⟨_, happend.mpr ⟨hfields, rfl⟩, congrArg _ (finish_filling hsize)⟩

end Writer

-- ---------------------------------------------------------------------------
-- Both messages
-- ---------------------------------------------------------------------------

def type1Fields (domain workstation : Option Text) : List Bytes :=
  [Utf8.encode (domain.getD []).upperCase, Utf8.encode (workstation.getD []).upperCase]

theorem type1_ok_iff {domain workstation : Option Text} {message : Bytes} :
    type1 domain workstation = .ok message ↔
      (∀ field ∈ type1Fields domain workstation, field.length ≤ largestField) ∧
        message = kindOf 1 ++ flagBytes (offer (domain.getD []).upperCase (workstation.getD []).upperCase) ++
          descriptors 32 (type1Fields domain workstation) ++ (type1Fields domain workstation).flatten := by
  have hfront : (kindOf 1 ++ flagBytes
      (offer (domain.getD []).upperCase (workstation.getD []).upperCase)).length = 16 := by
    simp [kindOf, signature, flagBytes]
  have h := Writer.written_ok_iff
    (kindOf 1 ++ flagBytes (offer (domain.getD []).upperCase (workstation.getD []).upperCase)) [] 32
    (type1Fields domain workstation) message (by rw [hfront]; rfl)
    (show 32 + 2 * largestField ≤ largestPlace by decide)
  rw [List.append_nil] at h
  rw [← h, hfront]
  simp only [type1, Writer.reserveAll_eq, Writer.put, Writer.new, hfront]
  rfl

theorem type3_ok_iff {who : Identity} {server : Type2} {number message : Bytes} {now : Instant} :
    type3 who server number now = .ok message ↔
      (∀ field ∈ type3Fields who server number now, field.length ≤ largestField) ∧
        message = kindOf 3 ++ descriptors 64 (type3Fields who server number now) ++
          flagBytes ((server.flags &&& kept) ||| unicode) ++
            (type3Fields who server number now).flatten := by
  have hfront : (kindOf 3).length = 12 := by simp [kindOf, signature]
  have h := Writer.written_ok_iff (kindOf 3) (flagBytes ((server.flags &&& kept) ||| unicode)) 64
    (type3Fields who server number now) message
    (by rw [hfront, flagBytes, Bytes.length_littleEndian]; rfl)
    (show 64 + 6 * largestField ≤ largestPlace by decide)
  rw [← h, hfront]
  simp only [type3, Writer.reserveAll_eq, Writer.put, Writer.new, hfront]
  rfl

end HttpSession.Auth.Ntlm
