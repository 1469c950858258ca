import HttpSession.Message.Header
import HttpSession.Proofs.Bytes.Utf8Laws
import HttpSession.Proofs.Text.IntegerLaws

/-!
# Texts as header values

Main statement: a text is a header value, in UTF-8, exactly if none of its characters is a control other
than the tab (`HeaderValue.ofText?_eq_some_iff`). What is read from a header value as text has no such
controls either (`HeaderValue.legible_of_text?`).
-/

namespace HttpSession.HeaderValue

def isLegible (c : Char) : Bool := (32 ≤ c.toNat && c.toNat ≠ 127) || c.toNat = 9

def Legible (t : Text) : Prop := ∀ c ∈ t, isLegible c = true

instance (t : Text) : Decidable (Legible t) := List.decidableBAll _ t

section
variable {c : Char} {t u : Text} {bytes : Bytes}

theorem isLegible_iff : isLegible c = true ↔ (32 ≤ c.toNat ∧ c.toNat ≠ 127) ∨ c.toNat = 9 := by
  simp [isLegible]

theorem admits_iff {b : UInt8} : admits b = true ↔ (32 ≤ b.toNat ∧ b.toNat ≠ 127) ∨ b.toNat = 9 := by
  simp only [admits, Bool.or_eq_true, Bool.and_eq_true, decide_eq_true_eq, ne_eq,
    UInt8.le_iff_toNat_le, ← UInt8.toNat_inj]
  exact Iff.rfl

theorem admits_encodeChar_iff : (∀ b ∈ String.utf8EncodeChar c, admits b = true) ↔ isLegible c = true := by
  by_cases hc : c.toNat < 128
  · rw [Utf8.encodeChar_of_lt hc, isLegible_iff]
    simp only [List.mem_singleton, forall_eq, admits_iff]
    rw [Utf8.toNat_ofNat_of_lt (by omega)]
  · -- beyond ASCII neither the character nor any of its bytes is a control
    refine iff_of_true (fun b hb => admits_iff.mpr ?_) (isLegible_iff.mpr (by omega))
    rcases Utf8.mem_encodeChar hb with ⟨hlt, -⟩ | ⟨-, hge⟩
    · exact absurd hlt hc
    · omega

theorem isValue_encode_iff : isValue (Utf8.encode t) = true ↔ Legible t := by
  simp only [isValue, List.all_eq_true, Utf8.encode, List.mem_flatMap, Legible, ← admits_encodeChar_iff]
  constructor
  · exact fun h c hc b hb => h b ⟨c, hc, hb⟩
  · rintro h b ⟨c, hc, hb⟩
    exact h c hc b hb

theorem ofText?_eq_some_iff :
    ofText? t = some bytes ↔ Legible t ∧ bytes = Utf8.encode t := by
  rw [← isValue_encode_iff]
  simp only [ofText?]
  split
  · rename_i hvalue
    exact ⟨fun h => ⟨hvalue, (Option.some.inj h).symm⟩, fun h => congrArg some h.2.symm⟩
  · rename_i hvalue
    exact iff_of_false nofun fun h => hvalue h.1

theorem legible_of_text? (h : text? bytes = some t) : Legible t := by
  intro c hc
  unfold text? at h
  split at h
  · rename_i hall
    obtain rfl := Option.some.inj h
    obtain ⟨b, hb, rfl⟩ := List.mem_map.mp hc
    have hbyte := List.all_eq_true.mp hall b hb
    simp only [Bool.or_eq_true, Bool.and_eq_true, decide_eq_true_eq, UInt8.le_iff_toNat_le,
      UInt8.lt_iff_toNat_lt, ← UInt8.toNat_inj] at hbyte
    change (32 ≤ b.toNat ∧ b.toNat < 127) ∨ b.toNat = 9 at hbyte
    have hchar : (Char.ofNat b.toNat).toNat = b.toNat := by
      rw [Char.toNat_ofNat, if_pos (.inl (by omega))]
    rw [isLegible_iff, hchar]
    omega
  · cases h

theorem Legible.subset (h : Legible t) (hu : ∀ c ∈ u, c ∈ t) : Legible u := fun c hc => h c (hu c hc)

theorem legible_append : Legible (t ++ u) ↔ Legible t ∧ Legible u := List.forall_mem_append

theorem Legible.lower (h : Legible t) : Legible t.lower := by
  intro c hc
  obtain ⟨d, hd, rfl⟩ := List.mem_map.mp hc
  by_cases hupper : d.isUpper = true
  · have hrange : 65 ≤ d.toNat ∧ d.toNat ≤ 90 := by
      simpa [Char.isUpper, UInt32.le_iff_toNat_le] using hupper
    have hlower : (Char.ofNat (d.toNat + 32)).toNat = d.toNat + 32 := by
      rw [Char.toNat_ofNat, if_pos (.inl (by omega))]
    rw [Char.toLower_eq_of_isUpper hupper, isLegible_iff, hlower]
    omega
  · rw [Char.toLower_eq_of_not_isUpper hupper]
    exact h d hd

theorem legible_ofNat (n : Nat) : Legible (Text.ofNat n) := by
  intro c hc
  have hrange := Text.toNat_of_isDigit (Text.isDigit_of_mem_ofNat hc)
  rw [isLegible_iff]
  omega

end

end HttpSession.HeaderValue
