import HttpSession.Proofs.Auth.NtlmMessages
import HttpSession.Proofs.Bytes.Utf8Laws

/-!
# The layout of messages

A message of a client is a fixed header and then its fields. The descriptors in the header are filled in
while the fields are put behind it; that they name the right parts of the message rests on the length that
the header was given at the start.

Main statement: a message is made exactly if every field can be described, and then its descriptors name its
fields, which follow one another to its end (`messages_laid_out`).
-/

namespace HttpSession.Auth.Ntlm

-- ---------------------------------------------------------------------------
-- Regions
-- ---------------------------------------------------------------------------

/-- Regions one behind the other, without gap or overlap, from one place to another. -/
inductive Consecutive : Nat → List Region → Nat → Prop
  | nil (place : Nat) : Consecutive place [] place
  | cons {start size last : Nat} {rest : List Region} (h : Consecutive (start + size) rest last) :
      Consecutive start (⟨start, size⟩ :: rest) last

def regions : Nat → List Bytes → List Region
  | _, [] => []
  | place, field :: rest => ⟨place, field.length⟩ :: regions (place + field.length) rest

theorem consecutive_regions (place : Nat) (fields : List Bytes) :
    Consecutive place (regions place fields) (place + fields.flatten.length) := by
  induction fields generalizing place with
  | nil => exact .nil place
  | cons field rest ih =>
    rw [List.flatten_cons, List.length_append, ← Nat.add_assoc]
    exact .cons (ih _)

/-- The descriptors of some fields name their regions, whatever stands around the descriptors. -/
theorem map_regionAt? {before after : Bytes} {place first : Nat} {fields : List Bytes}
    (hfirst : first = before.length) (hsize : ∀ field ∈ fields, field.length ≤ largestField)
    (hfit : place + fields.flatten.length < 2 ^ 32) :
    (List.range fields.length).map
        (fun i => regionAt? (before ++ descriptors place fields ++ after) (first + 8 * i)) =
      (regions place fields).map some := by
  -- the descriptors that were passed go to what stands before
  induction fields generalizing before place first with
  | nil => rfl
  | cons field rest ih =>
    rw [List.flatten_cons, List.length_append] at hfit
    have hfield : regionAt? (before ++ descriptors place (field :: rest) ++ after) first =
        some ⟨place, field.length⟩ := by
      have hm : before ++ descriptors place (field :: rest) ++ after = before ++
          descriptor field.length place ++ (descriptors (place + field.length) rest ++ after) := by
        simp [descriptors]
      exact regionAt?_of_descriptor hm hfirst (hsize field List.mem_cons_self) (by omega)
    have hrest : (List.range rest.length).map (fun i => regionAt? (before ++ descriptor field.length place ++
        descriptors (place + field.length) rest ++ after) (first + 8 + 8 * i)) =
          (regions (place + field.length) rest).map some :=
      ih (by simp [hfirst]) (fun other hother => hsize other (List.mem_cons_of_mem _ hother)) (by omega)
    rw [List.length_cons, List.range_succ_eq_map, List.map_cons, List.map_map, regions, List.map_cons,
      ← hrest]
    refine congrArg₂ List.cons hfield (List.map_congr_left fun i _ => ?_)
    simp [descriptors, Nat.mul_succ, Nat.add_assoc, Nat.add_comm]

-- ---------------------------------------------------------------------------
-- Layout
-- ---------------------------------------------------------------------------

/-- How a message with a number is laid out: a header of some length, and behind it the fields, each of which
the header describes. The descriptors begin at some place. -/
structure LaidOut (message : Bytes) (number header first : Nat) (fields : List Bytes) : Prop where
  kind : message.take 12 = kindOf number
  parts : ∃ fixed : Bytes, fixed.length = header ∧ message = fixed ++ fields.flatten
  described : ∀ i field, fields[i]? = some field → fieldAt? message (first + 8 * i) = some field
  consecutive : ∃ regions, (List.range fields.length).map (fun i => regionAt? message (first + 8 * i)) =
    regions.map some ∧ Consecutive header regions message.length

theorem laidOut_message {lead middle : Bytes} {number header first : Nat} {fields : List Bytes}
    (hfirst : first = 12 + lead.length) (hheader : header = first + 8 * fields.length + middle.length)
    (hsize : ∀ field ∈ fields, field.length ≤ largestField)
    (hfit : header + fields.flatten.length < 2 ^ 32) :
    LaidOut (kindOf number ++ lead ++ descriptors header fields ++ middle ++ fields.flatten) number header
      first fields := by
  have hkind : (kindOf number).length = 12 := by simp [kindOf, signature]
  have hfront : (kindOf number ++ lead).length = first := by rw [List.length_append, hkind, hfirst]
  have hlength : (kindOf number ++ lead ++ descriptors header fields ++ middle).length = header := by
    rw [List.length_append, List.length_append, hfront, length_descriptors, ← hheader]
  constructor
  · rw [List.append_assoc, List.append_assoc, List.append_assoc]
    exact List.take_left' hkind
  · exact ⟨_, hlength, rfl⟩
  · intro i field hi
    rw [← hfront]
    exact fieldAt?_message (hfront ▸ hheader) hsize hfit hi
  · refine ⟨regions header fields, ?_, ?_⟩
    · rw [List.append_assoc]
      exact map_regionAt? hfront.symm hsize hfit
    · rw [List.length_append, hlength]
      exact consecutive_regions header fields

theorem length_lt_of_checked {header : Nat} {fields : List Bytes}
    (hsize : ∀ field ∈ fields, field.length ≤ largestField) (hcount : fields.length ≤ 6)
    (hheader : header ≤ 64) : header + fields.flatten.length < 2 ^ 32 := by
  have hbound := length_flatten_le hsize
  have hall : fields.length * largestField ≤ 6 * largestField := Nat.mul_le_mul_right _ hcount
  rw [largestField] at hbound hall
  omega

-- ---------------------------------------------------------------------------
-- What is made
-- ---------------------------------------------------------------------------

theorem laidOut_type1 {domain workstation : Option Text} {message : Bytes}
    (h : type1 domain workstation = .ok message) :
    LaidOut message 1 32 16 (type1Fields domain workstation) := by
  obtain ⟨hsize, rfl⟩ := type1_ok_iff.mp h
  have hfit : 32 + (type1Fields domain workstation).flatten.length < 2 ^ 32 :=
    length_lt_of_checked hsize (Nat.le_of_ble_eq_true rfl) (by decide)
  rw [← List.append_nil (_ ++ descriptors 32 _)]
  exact laidOut_message (by simp [flagBytes]) rfl hsize hfit

theorem laidOut_type3 {who : Identity} {server : Type2} {number message : Bytes} {now : Instant}
    (h : type3 who server number now = .ok message) :
    LaidOut message 3 64 12 (type3Fields who server number now) := by
  obtain ⟨hsize, rfl⟩ := type3_ok_iff.mp h
  have hfit : 64 + (type3Fields who server number now).flatten.length < 2 ^ 32 :=
    length_lt_of_checked hsize (Nat.le_of_ble_eq_true rfl) (by decide)
  rw [← List.append_nil (kindOf 3)]
  exact laidOut_message rfl (by rw [flagBytes, Bytes.length_littleEndian]; rfl) hsize hfit

/-- The flags of a first message that tell whether there is a domain and a workstation. -/
theorem offer_supplied (domain workstation : Text) :
    (offer domain workstation &&& domainSupplied ≠ 0 ↔ domain ≠ []) ∧
      (offer domain workstation &&& workstationSupplied ≠ 0 ↔ workstation ≠ []) := by
  unfold offer
  constructor
  · by_cases hd : domain = [] <;> by_cases hw : workstation = [] <;> simp [hd, hw] <;> decide
  · by_cases hd : domain = [] <;> by_cases hw : workstation = [] <;> simp [hd, hw] <;> decide

theorem numberAt?_flags {domain workstation : Option Text} {message : Bytes}
    (h : type1 domain workstation = .ok message) : numberAt? message 12 4 =
      some (offer (domain.getD []).upperCase (workstation.getD []).upperCase).toNat := by
  obtain ⟨-, rfl⟩ := type1_ok_iff.mp h
  rw [List.append_assoc]
  exact numberAt?_append rfl (UInt32.toNat_lt _)

theorem respond_eq {credentials : Credentials} {token : Text} {now : Instant} {draws : Draws}
    {server : Type2} (h : Type2.decode token = .ok server) :
    (version2.respond credentials token now draws).1 =
      (type3 ⟨credentials.user, credentials.password, (credentials.network.bind (·.domain)).getD [],
        (credentials.network.bind (·.workstation)).getD []⟩ server (Draws.bytes draws.next.1) now).map
          Base64.encode := by
  simp only [version2, h]
  cases credentials.network <;> rfl

section
variable {made : Except Fault Bytes} {text : Text}

theorem exists_written_iff {fits : Prop} {message : Bytes}
    (h : ∀ other, made = .ok other ↔ fits ∧ other = message) :
    (∃ text, made.map Base64.encode = .ok text) ↔ fits := by
  constructor
  · rintro ⟨text, htext⟩
    obtain ⟨other, hother, -⟩ := map_ok_iff.mp htext
    exact ((h other).mp hother).1
  · intro hfits
    exact ⟨_, map_ok_iff.mpr ⟨message, (h message).mpr ⟨hfits, rfl⟩, rfl⟩⟩

theorem exists_of_written (h : made.map Base64.encode = .ok text) :
    ∃ message, made = .ok message ∧ Base64.decode (Utf8.encode text) = .ok message := by
  obtain ⟨message, hmessage, rfl⟩ := map_ok_iff.mp h
  exact ⟨message, hmessage, Base64.decode_encode message⟩

end

/-- A first message is made exactly if domain and workstation can be described, a last message exactly if
every field of it can; and what is made is laid out as its header says. -/
theorem messages_laid_out :
    (∀ domain workstation : Option Text,
      let domainField := Utf8.encode (domain.getD []).upperCase
      let workstationField := Utf8.encode (workstation.getD []).upperCase
      let fields := [domainField, workstationField]
      ((∃ text, version2.negotiate domain workstation = .ok text) ↔
        ∀ field ∈ fields, field.length ≤ 65535) ∧
      ∀ text, version2.negotiate domain workstation = .ok text →
        ∃ message flags, Base64.decode (Utf8.encode text) = .ok message ∧
          LaidOut message 1 32 16 fields ∧ numberAt? message 12 4 = some (UInt32.toNat flags) ∧
            (flags &&& domainSupplied ≠ 0 ↔ domainField ≠ []) ∧
              (flags &&& workstationSupplied ≠ 0 ↔ workstationField ≠ [])) ∧
    (∀ (credentials : Credentials) (token : Text) (now : Instant) (draws : Draws) (server : Type2),
      Type2.decode token = .ok server →
        let domain := (credentials.network.bind (·.domain)).getD []
        let workstation := (credentials.network.bind (·.workstation)).getD []
        let key := ownerKey credentials.user domain credentials.password
        let number := Draws.bytes draws.next.1
        let fields := [proof key server.challenge number,
          proof key server.challenge (blob number now server.info), Utf16.encode domain,
          Utf16.encode credentials.user, Utf16.encode workstation, []]
        ((∃ text, (version2.respond credentials token now draws).1 = .ok text) ↔
          ∀ field ∈ fields, field.length ≤ 65535) ∧
        ∀ text, (version2.respond credentials token now draws).1 = .ok text →
          ∃ message, Base64.decode (Utf8.encode text) = .ok message ∧ LaidOut message 3 64 12 fields) := by
  constructor
  · intro domain workstation domainField workstationField fields
    have hfields : fields = type1Fields domain workstation := rfl
    rw [hfields]
    refine ⟨exists_written_iff fun _ => type1_ok_iff, fun text h => ?_⟩
    obtain ⟨message, hmessage, hdecode⟩ := exists_of_written h
    obtain ⟨hdomain, hworkstation⟩ :=
      offer_supplied (domain.getD []).upperCase (workstation.getD []).upperCase
    exact ⟨message, _, hdecode, laidOut_type1 hmessage, numberAt?_flags hmessage,
      hdomain.trans (not_congr Utf8.encode_eq_nil_iff.symm),
      hworkstation.trans (not_congr Utf8.encode_eq_nil_iff.symm)⟩
  · intro credentials token now draws server hserver domain workstation key number fields
    have hfields : fields = type3Fields ⟨credentials.user, credentials.password, domain, workstation⟩ server
        number now := rfl
    rw [respond_eq hserver, hfields]
    refine ⟨exists_written_iff fun _ => type3_ok_iff, fun text h => ?_⟩
    obtain ⟨message, hmessage, hdecode⟩ := exists_of_written h
    exact ⟨message, hdecode, laidOut_type3 hmessage⟩

end HttpSession.Auth.Ntlm
