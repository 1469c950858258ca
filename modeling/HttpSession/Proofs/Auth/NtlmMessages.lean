import Mathlib.Algebra.Order.Ring.Nat
import HttpSession.Auth.Ntlm.Handshake
import HttpSession.Proofs.Auth.MessageWriting
import HttpSession.Proofs.Bytes.Base64Laws
import HttpSession.Proofs.Bytes.Utf16Laws

/-!
# NTLM messages, as the other side reads them

A server finds the fields of a message by their descriptors. Wherever the descriptors stand in front of
the fields, each of them describes its field, so what a client puts into the last message is what the
server takes out of it, and the server can compute both proofs anew.

Main statement: a last message tells the server who answers, and its proofs are those of the password over
the challenge that the server sent (`respond_verifiable`).
-/

namespace HttpSession

namespace Bytes

variable {before bytes after : Bytes} {start count : Nat}

theorem slice?_append (hs : start = before.length) (hc : count = bytes.length) :
    (before ++ bytes ++ after).slice? start count = some bytes := by
  subst hs hc
  rw [slice?, if_pos (by simp only [List.length_append]; omega), List.append_assoc, List.drop_left,
    List.take_left]

end Bytes

namespace Auth.Ntlm

-- ---------------------------------------------------------------------------
-- Fields and their descriptors
-- ---------------------------------------------------------------------------

theorem numberAt?_append {before after : Bytes} {place width n : Nat} (hp : place = before.length)
    (hn : n < 256 ^ width) :
    numberAt? (before ++ Bytes.littleEndian width n ++ after) place width = some n := by
  rw [numberAt?, Bytes.slice?_append hp (by simp), Option.map_some, Bytes.ofLittleEndian_littleEndian]
  exact congrArg some (Nat.mod_eq_of_lt hn)

structure Region where
  start : Nat
  size : Nat
  deriving DecidableEq, Repr

def regionAt? (message : Bytes) (place : Nat) : Option Region := do
  let size ← numberAt? message place 2
  let start ← numberAt? message (place + 4) 4
  some ⟨start, size⟩

theorem fieldAt?_eq (message : Bytes) (place : Nat) :
    fieldAt? message place = (regionAt? message place).bind fun r => message.slice? r.start r.size := by
  unfold fieldAt? regionAt?
  cases numberAt? message place 2 <;> cases numberAt? message (place + 4) 4 <;> rfl

theorem regionAt?_of_descriptor {message before after : Bytes} {index place size : Nat}
    (hm : message = before ++ descriptor size place ++ after) (hi : index = before.length)
    (hsize : size ≤ largestField) (hplace : place < 2 ^ 32) :
    regionAt? message index = some ⟨place, size⟩ := by
  have hlength : numberAt? message index 2 = some size := by
    have hm' : message = before ++ Bytes.littleEndian 2 size ++
        (Bytes.littleEndian 2 size ++ Bytes.littleEndian 4 place ++ after) := by
      simp [hm, descriptor]
    rw [hm']
    exact numberAt?_append hi (by rw [largestField] at hsize; omega)
  have hstart : numberAt? message (index + 4) 4 = some place := by
    have hm' : message = before ++ Bytes.littleEndian 2 size ++ Bytes.littleEndian 2 size ++
        Bytes.littleEndian 4 place ++ after := by
      simp [hm, descriptor]
    rw [hm']
    exact numberAt?_append (by simp [hi]) hplace
  rw [regionAt?, hlength, hstart]
  rfl

/-- A field is what stands at the place that its descriptor names. -/
theorem fieldAt?_of_descriptor {message before after field : Bytes} {index place : Nat}
    (hm : message = before ++ descriptor field.length place ++ after) (hi : index = before.length)
    (hsize : field.length ≤ largestField) (hplace : place < 2 ^ 32)
    (hfield : message.slice? place field.length = some field) : fieldAt? message index = some field := by
  rw [fieldAt?_eq, regionAt?_of_descriptor hm hi hsize hplace]
  exact hfield

/-- Wherever the descriptors of some fields stand in front of them, each describes its field. -/
theorem fieldAt?_message {front middle field : Bytes} {fields : List Bytes} {place i : Nat}
    (hplace : place = front.length + 8 * fields.length + middle.length)
    (hsize : ∀ field ∈ fields, field.length ≤ largestField)
    (hfit : place + fields.flatten.length < 2 ^ 32) (hi : fields[i]? = some field) :
    fieldAt? (front ++ descriptors place fields ++ middle ++ fields.flatten) (front.length + 8 * i) =
      some field := by
  obtain ⟨hlt, hget⟩ := List.getElem?_eq_some_iff.mp hi
  obtain ⟨before, after, rfl, rfl⟩ : ∃ before after, fields = before ++ field :: after ∧
      before.length = i :=
    ⟨fields.take i, fields.drop (i + 1),
      by rw [← hget, ← List.drop_eq_getElem_cons hlt, List.take_append_drop],
      List.length_take_of_le (Nat.le_of_lt hlt)⟩
  have hflat : (before ++ field :: after).flatten = before.flatten ++ field ++ after.flatten := by simp
  have hmessage : front ++ descriptors place (before ++ field :: after) ++ middle ++
      (before ++ field :: after).flatten =
        front ++ descriptors place before ++ descriptor field.length (place + before.flatten.length) ++
          (descriptors (place + before.flatten.length + field.length) after ++ middle ++
            (before ++ field :: after).flatten) := by
    simp [descriptors_append, descriptors]
  refine fieldAt?_of_descriptor hmessage ?_ ?_ ?_ ?_
  · simp [length_descriptors]
  · exact hsize field (by simp)
  · rw [hflat, List.length_append, List.length_append] at hfit
    omega
  · rw [hflat, ← List.append_assoc, ← List.append_assoc]
    refine Bytes.slice?_append ?_ rfl
    simp [length_descriptors, hplace]
    omega

-- ---------------------------------------------------------------------------
-- What a server reads
-- ---------------------------------------------------------------------------

structure Received where
  lm : Bytes
  nt : Bytes
  domain : Text
  user : Text
  workstation : Text

def textAt? (message : Bytes) (place : Nat) : Option Text := (fieldAt? message place).bind Utf16.decode?

def Received.read? (message : Bytes) : Option Received := do
  let flags ← numberAt? message 60 4
  if message.take 12 = kindOf 3 ∧ UInt32.ofNat flags &&& unicode = unicode then
    some ⟨← fieldAt? message 12, ← fieldAt? message 20, ← textAt? message 28, ← textAt? message 36,
      ← textAt? message 44⟩
  else none

/-- Whether a response proves that a password is known: it begins with the digest of a challenge and of
everything else in the response, under the key that belongs to the password and to who the message says
it is from. -/
def Received.Proves (r : Received) (password : Text) (challenge response : Bytes) : Prop :=
  response.take 16 = Hash.hmacMd5
    (Hash.hmacMd5 (Hash.Md4.digest (Utf16.encode password)) (Utf16.encode (r.user.upperCase ++ r.domain)))
    (challenge ++ response.drop 16)

/-- What a server expects of an answer to its challenge, with what it told: the identity of some
credentials, and two responses that prove their password. The first is over what was told and the time
besides, and a number of the client is in both. -/
structure Received.Answers (r : Received) (credentials : Credentials) (challenge info number : Bytes)
    (now : Instant) : Prop where
  user : r.user = credentials.user
  domain : r.domain = (credentials.network.bind (·.domain)).getD []
  workstation : r.workstation = (credentials.network.bind (·.workstation)).getD []
  nt_proves : r.Proves credentials.password challenge r.nt
  nt_rest : r.nt.drop 16 =
    [1, 1, 0, 0, 0, 0, 0, 0] ++ Bytes.littleEndian 8 (timestamp now) ++ number ++ [0, 0, 0, 0] ++ info ++
      [0, 0, 0, 0]
  lm_proves : r.Proves credentials.password challenge r.lm
  lm_rest : r.lm.drop 16 = number

/-- What the server put into its own message: a challenge, and perhaps more behind it. -/
def ServerSent (sent challenge info : Bytes) : Prop :=
  isType2 sent = true ∧ sent.slice? 24 8 = some challenge ∧
    if sent.length < 48 then info = [] else fieldAt? sent 40 = some info

theorem take_proof (key challenge rest : Bytes) :
    (proof key challenge rest).take 16 = Hash.hmacMd5 key (challenge ++ rest) :=
  List.take_left' (Hash.length_hmacMd5 _ _)

theorem drop_proof (key challenge rest : Bytes) : (proof key challenge rest).drop 16 = rest :=
  List.drop_left' (Hash.length_hmacMd5 _ _)

theorem or_and_self (flags mask : UInt32) : (flags ||| mask) &&& mask = mask := by
  refine UInt32.eq_of_toBitVec_eq (BitVec.eq_of_getElem_eq fun i hi => ?_)
  simpa using Or.inr

theorem length_flatten_le {fields : List Bytes} {bound : Nat}
    (h : ∀ field ∈ fields, field.length ≤ bound) : fields.flatten.length ≤ fields.length * bound := by
  induction fields with
  | nil => simp
  | cons field rest ih =>
    have hfield := h field List.mem_cons_self
    have hrest := ih fun other hother => h other (List.mem_cons_of_mem _ hother)
    rw [List.flatten_cons, List.length_append, List.length_cons, Nat.succ_mul]
    omega

/-- A server reads in a last message who answers, and the two responses. -/
theorem read?_type3 {who : Identity} {server : Type2} {number message : Bytes} {now : Instant}
    (h : type3 who server number now = .ok message) :
    Received.read? message = some
      { lm := proof (ownerKey who.user who.domain who.password) server.challenge number
        nt := proof (ownerKey who.user who.domain who.password) server.challenge
          (blob number now server.info)
        domain := who.domain, user := who.user, workstation := who.workstation } := by
  obtain ⟨hsize, hmessage⟩ := type3_ok_iff.mp h
  have hbound := length_flatten_le hsize
  have hcount : (type3Fields who server number now).length = 6 := rfl
  have hfield (i : Nat) (field : Bytes) (hi : (type3Fields who server number now)[i]? = some field) :
      fieldAt? message (12 + 8 * i) = some field := by
    rw [hmessage]
    refine fieldAt?_message ?_ hsize ?_ hi
    · simp [hcount, kindOf, flagBytes, signature]
    · rw [hcount, largestField] at hbound
      omega
  have hflags : numberAt? message 60 4 = some ((server.flags &&& kept) ||| unicode).toNat := by
    rw [hmessage]
    refine numberAt?_append ?_ (UInt32.toNat_lt _)
    simp [length_descriptors, hcount, kindOf, signature]
  have hkind : message.take 12 = kindOf 3 := by
    rw [hmessage, List.append_assoc, List.append_assoc]
    exact List.take_left' rfl
  simp [Received.read?, textAt?, hflags, hkind, or_and_self, hfield 0 _ rfl, hfield 1 _ rfl,
    hfield 2 _ rfl, hfield 3 _ rfl, hfield 4 _ rfl, Utf16.decode?_encode]

theorem Type2.told_of_read {sent : Bytes} {server : Type2} (h : Type2.read sent = .ok server) :
    ServerSent sent server.challenge server.info := by
  unfold Type2.read at h
  split at h
  · cases h
  rename_i htype
  have htype : isType2 sent = true := not_not.mp htype
  have hlong : 32 ≤ sent.length := by
    simp only [isType2, Bool.and_eq_true, decide_eq_true_eq] at htype
    exact htype.1.1
  have hchallenge : sent.slice? 24 8 = some ((sent.slice? 24 8).getD []) := by
    simp [Bytes.slice?, hlong]
  split at h
  · rename_i hshort
    obtain rfl := Except.ok.inj h
    exact ⟨htype, hchallenge, by rw [if_pos hshort]⟩
  · rename_i hshort
    split at h
    · rename_i info hinfo
      obtain rfl := Except.ok.inj h
      exact ⟨htype, hchallenge, by rw [if_neg hshort, hinfo]⟩
    · cases h

theorem respond_ok {credentials : Credentials} {token text : Text} {now : Instant} {draws : Draws}
    (h : (version2.respond credentials token now draws).1 = .ok text) :
    ∃ sent server message, Base64.decode (Utf8.encode token.trim) = .ok sent ∧
      Type2.read sent = .ok server ∧
        type3 ⟨credentials.user, credentials.password, (credentials.network.bind (·.domain)).getD [],
          (credentials.network.bind (·.workstation)).getD []⟩ server (Draws.bytes draws.next.1) now =
            .ok message ∧ text = Base64.encode message := by
  unfold version2 Type2.decode at h
  dsimp only at h
  split at h
  · cases h
  rename_i server hserver
  split at hserver
  · cases hserver
  rename_i sent hsent
  obtain ⟨message, hmessage, rfl⟩ := map_ok_iff.mp h
  refine ⟨sent, server, message, hsent, hserver, ?_, rfl⟩
  rw [← hmessage]
  cases credentials.network <;> rfl

/-- A last message tells the server who answers, and its responses prove the password over the challenge
that the server sent. -/
theorem respond_verifiable {credentials : Credentials} {token text : Text} {now : Instant} {draws : Draws}
    (h : (version2.respond credentials token now draws).1 = .ok text) :
    ∃ sent challenge info message received,
      Base64.decode (Utf8.encode token.trim) = .ok sent ∧ ServerSent sent challenge info ∧
        Base64.decode (Utf8.encode text) = .ok message ∧ Received.read? message = some received ∧
          received.Answers credentials challenge info (Draws.bytes draws.next.1) now := by
  obtain ⟨sent, server, message, hsent, hserver, hmessage, rfl⟩ := respond_ok h
  exact ⟨sent, server.challenge, server.info, message, _, hsent, Type2.told_of_read hserver,
    Base64.decode_encode message, read?_type3 hmessage,
    { user := rfl
      domain := rfl
      workstation := rfl
      nt_proves := by rw [Received.Proves, take_proof, drop_proof]; rfl
      nt_rest := drop_proof _ _ _
      lm_proves := by rw [Received.Proves, take_proof, drop_proof]; rfl
      lm_rest := drop_proof _ _ _ }⟩

theorem respond_verifiable_with_info :
    let credentials := Credentials.windows "ü" "p" (some "dom") none
    let token : Text := "TlRMTVNTUAACAAAAAAAAAAAAAAABAAAAAQIDBAUGBwgAAAAAAAAAAAQABAAwAAAAAgAAAA=="
    let draws : Draws := ⟨[], 7⟩
    ∃ text, (version2.respond credentials token .epoch draws).1 = .ok text ∧
      ∃ sent challenge info message received,
        Base64.decode (Utf8.encode token.trim) = .ok sent ∧ ServerSent sent challenge info ∧
          Base64.decode (Utf8.encode text) = .ok message ∧ Received.read? message = some received ∧
            received.Answers credentials challenge info (Draws.bytes draws.next.1) .epoch := by
  intro credentials token draws
  have h : (version2.respond credentials token .epoch draws).1 = .ok
      (("TlRMTVNTUAADAAAAGAAYAEAAAAA0ADQAWAAAAAYABgCMAAAAAgACAJIAAAAAAAAAlAAAAAAAAACUAAAAAQAAAOc9" : Text) ++
        "ifAPSt1tykEi7zeN6C0AAAAAAAAAB0guBPvmabPzJEpo92lj3nMBAQAAAAAAAACAPtXesZ0BAAAAAAAAAAcAAAAAAgAA" ++
        "AAAAAABEAE8ATQD8AA==") := by decide +kernel
  exact ⟨_, h, respond_verifiable h⟩

end Auth.Ntlm

end HttpSession
