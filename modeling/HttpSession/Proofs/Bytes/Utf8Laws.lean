import HttpSession.Bytes.Utf8
import HttpSession.Proofs.Text.Laws

/-!
# Reading UTF-8

A character is one to four bytes. A byte below 128 stands for the character of that number and for
nothing else, so what is cut at such bytes is cut at those characters.

Main statements: text written in UTF-8 is read back as it was (`decode?_encode`), and its lines are the
lines of the bytes (`lines_encode`).
-/

namespace HttpSession.Utf8

-- ---------------------------------------------------------------------------
-- Characters
-- ---------------------------------------------------------------------------

theorem toNat_ofNat_of_lt {n : Nat} (h : n < 256) : (UInt8.ofNat n).toNat = n :=
  UInt8.toNat_ofNat_of_lt' h

theorem following?_one : ∀ x < 128, following? (UInt8.ofNat x) = some (0, 0x80, 0xBF) := by decide

theorem following?_two : ∀ x < 32, 2 ≤ x → following? (UInt8.ofNat (x + 192)) = some (1, 0x80, 0xBF) := by
  decide

theorem following?_three : ∀ x < 16, following? (UInt8.ofNat (x + 224)) =
    some (2, if x = 0 then 0xA0 else 0x80, if x = 13 then 0x9F else 0xBF) := by
  decide

theorem following?_four : ∀ x < 5, following? (UInt8.ofNat (x + 240)) =
    some (3, if x = 0 then 0x90 else 0x80, if x = 4 then 0x8F else 0xBF) := by
  decide

section
variable {low high b : UInt8} {count value x y z w : Nat} {rest others : Bytes}

theorem continuation_cons (hy : y < 64) (hlow : low.toNat ≤ y + 128) (hhigh : y + 128 ≤ high.toNat)
    (count value : Nat) (rest : Bytes) :
    continuation (count + 1) low high value (UInt8.ofNat (y + 128) :: rest) =
      continuation count 0x80 0xBF (value * 64 + y) rest := by
  have hb : (UInt8.ofNat (y + 128)).toNat = y + 128 := toNat_ofNat_of_lt (by omega)
  have hin : continues low high (UInt8.ofNat (y + 128)) = true := by
    simp only [continues, Bool.and_eq_true, decide_eq_true_eq, UInt8.le_iff_toNat_le, hb]
    exact ⟨hlow, hhigh⟩
  have hy' : (y + 128) % 64 = y := by omega
  rw [continuation, if_pos hin, hb, hy']

theorem continuation_free (hy : y < 64) (count value : Nat) (rest : Bytes) :
    continuation (count + 1) 0x80 0xBF value (UInt8.ofNat (y + 128) :: rest) =
      continuation count 0x80 0xBF (value * 64 + y) rest :=
  continuation_cons hy (by simp) (by simp; omega) count value rest

theorem scanFor_cons (hb : following? b = some (count, low, high))
    (hc : continuation count low high (lead count b) rest = (some value, others)) (steps : Nat) :
    scanFor (steps + 1) (b :: rest) = some (Char.ofNat value) :: scanFor steps others := by
  rw [scanFor, hb]
  simp only [hc, Option.map_some]

theorem scanFor_two (hx : 2 ≤ x) (hx' : x < 32) (hy : y < 64) (steps : Nat) (rest : Bytes) :
    scanFor (steps + 1) (UInt8.ofNat (x + 192) :: UInt8.ofNat (y + 128) :: rest) =
      some (Char.ofNat (x * 64 + y)) :: scanFor steps rest := by
  have hlead : lead 1 (UInt8.ofNat (x + 192)) = x := by
    rw [lead, toNat_ofNat_of_lt (by omega)]
    omega
  refine scanFor_cons (following?_two x hx' hx) ?_ steps
  rw [hlead, continuation_free hy, continuation]

theorem scanFor_three (hx : x < 16) (hlow : x = 0 → 32 ≤ y) (hhigh : x = 13 → y < 32) (hy : y < 64)
    (hz : z < 64) (steps : Nat) (rest : Bytes) :
    scanFor (steps + 1)
        (UInt8.ofNat (x + 224) :: UInt8.ofNat (y + 128) :: UInt8.ofNat (z + 128) :: rest) =
      some (Char.ofNat ((x * 64 + y) * 64 + z)) :: scanFor steps rest := by
  have hlead : lead 2 (UInt8.ofNat (x + 224)) = x := by
    rw [lead, toNat_ofNat_of_lt (by omega)]
    omega
  have hlow' : (if x = 0 then (0xA0 : UInt8) else 0x80).toNat ≤ y + 128 := by split <;> simp; omega
  have hhigh' : y + 128 ≤ (if x = 13 then (0x9F : UInt8) else 0xBF).toNat := by split <;> simp <;> omega
  refine scanFor_cons (following?_three x hx) ?_ steps
  rw [hlead, continuation_cons hy hlow' hhigh', continuation_free hz, continuation]

theorem scanFor_four (hx : x < 5) (hlow : x = 0 → 16 ≤ y) (hhigh : x = 4 → y < 16) (hy : y < 64)
    (hz : z < 64) (hw : w < 64) (steps : Nat) (rest : Bytes) :
    scanFor (steps + 1)
        (UInt8.ofNat (x + 240) :: UInt8.ofNat (y + 128) :: UInt8.ofNat (z + 128) ::
          UInt8.ofNat (w + 128) :: rest) =
      some (Char.ofNat (((x * 64 + y) * 64 + z) * 64 + w)) :: scanFor steps rest := by
  have hlead : lead 3 (UInt8.ofNat (x + 240)) = x := by
    show (UInt8.ofNat (x + 240)).toNat % 8 = x
    rw [toNat_ofNat_of_lt (by omega)]
    omega
  have hlow' : (if x = 0 then (0x90 : UInt8) else 0x80).toNat ≤ y + 128 := by split <;> simp; omega
  have hhigh' : y + 128 ≤ (if x = 4 then (0x8F : UInt8) else 0xBF).toNat := by split <;> simp <;> omega
  refine scanFor_cons (following?_four x hx) ?_ steps
  rw [hlead, continuation_cons hy hlow' hhigh', continuation_free hz, continuation_free hw, continuation]

end

/-- One step takes one character, however many bytes it has. -/
theorem scanFor_encodeChar (steps : Nat) (c : Char) (rest : Bytes) :
    scanFor (steps + 1) (String.utf8EncodeChar c ++ rest) = some c :: scanFor steps rest := by
  have hc : c.toNat < 0xD800 ∨ (0xDFFF < c.toNat ∧ c.toNat < 0x110000) := c.valid
  have hback : Char.ofNat c.toNat = c := Char.ofNat_toNat c
  have hval : c.val.toNat = c.toNat := rfl
  unfold String.utf8EncodeChar
  simp only [hval]
  generalize c.toNat = v at hc hback
  split
  · have hlead : lead 0 (UInt8.ofNat v) = v := toNat_ofNat_of_lt (by omega)
    rw [List.singleton_append, scanFor_cons (following?_one v (by omega)) rfl, hlead, hback]
  split
  · have hvalue : v / 64 % 32 * 64 + v % 64 = v := by omega
    simp only [List.cons_append, List.nil_append]
    rw [scanFor_two (by omega) (by omega) (by omega), hvalue, hback]
  split
  · have hvalue : (v / 4096 % 16 * 64 + v / 64 % 64) * 64 + v % 64 = v := by omega
    simp only [List.cons_append, List.nil_append]
    rw [scanFor_three (by omega) (by omega) (by omega) (by omega) (by omega), hvalue, hback]
  · have hvalue : ((v / 262144 % 8 * 64 + v / 4096 % 64) * 64 + v / 64 % 64) * 64 + v % 64 = v := by omega
    simp only [List.cons_append, List.nil_append]
    rw [scanFor_four (by omega) (by omega) (by omega) (by omega) (by omega) (by omega), hvalue, hback]

-- ---------------------------------------------------------------------------
-- Text
-- ---------------------------------------------------------------------------

theorem encode_cons (c : Char) (t : Text) : encode (c :: t) = String.utf8EncodeChar c ++ encode t := rfl

theorem encode_append (t u : Text) : encode (t ++ u) = encode t ++ encode u := List.flatMap_append

/-- The bytes of a character: itself if it is below 128, and else none below 128. -/
theorem mem_encodeChar {c : Char} {b : UInt8} (h : b ∈ String.utf8EncodeChar c) :
    (c.toNat < 128 ∧ b = UInt8.ofNat c.toNat) ∨ (128 ≤ c.toNat ∧ 128 ≤ b.toNat) := by
  have hval : c.val.toNat = c.toNat := rfl
  unfold String.utf8EncodeChar at h
  simp only [hval] at h
  generalize c.toNat = v at h
  split at h
  · exact .inl ⟨by omega, List.mem_singleton.mp h⟩
  · -- all bytes of the other forms have their highest bit
    refine .inr ⟨by omega, ?_⟩
    split at h
    · simp only [List.mem_cons, List.not_mem_nil, or_false] at h
      rcases h with rfl | rfl <;> rw [toNat_ofNat_of_lt (by omega)] <;> omega
    split at h
    · simp only [List.mem_cons, List.not_mem_nil, or_false] at h
      rcases h with rfl | rfl | rfl <;> rw [toNat_ofNat_of_lt (by omega)] <;> omega
    · simp only [List.mem_cons, List.not_mem_nil, or_false] at h
      rcases h with rfl | rfl | rfl | rfl <;> rw [toNat_ofNat_of_lt (by omega)] <;> omega

theorem encodeChar_of_lt {c : Char} (h : c.toNat < 128) :
    String.utf8EncodeChar c = [UInt8.ofNat c.toNat] := by
  have hval : c.val.toNat = c.toNat := rfl
  rw [String.utf8EncodeChar, hval, if_pos (by omega)]

theorem length_le_length_encode (t : Text) : t.length ≤ (encode t).length := by
  induction t with
  | nil => exact Nat.le_refl 0
  | cons c rest ih =>
    have hc := List.length_pos_iff.mpr (String.utf8EncodeChar_ne_nil (c := c))
    rw [encode_cons, List.length_append, List.length_cons]
    omega

theorem scanFor_encode {steps : Nat} {t : Text} (h : t.length ≤ steps) :
    scanFor steps (encode t) = t.map some := by
  induction t generalizing steps with
  | nil => cases steps <;> rfl
  | cons c rest ih =>
    obtain ⟨steps, rfl⟩ : ∃ n, steps = n + 1 := ⟨steps - 1, by simp at h; omega⟩
    rw [encode_cons, scanFor_encodeChar, ih (by simpa using h), List.map_cons]

/-- Text written in UTF-8 is read back as it was. -/
theorem decode?_encode (t : Text) : decode? (encode t) = some t := by
  rw [decode?, scan, scanFor_encode (length_le_length_encode t)]
  induction t with
  | nil => rfl
  | cons c rest ih =>
    rw [List.map_cons, List.mapM_cons, ih]
    rfl

-- ---------------------------------------------------------------------------
-- Lines
-- ---------------------------------------------------------------------------

section
variable {c d : Char}

theorem eq_of_mem_encodeChar (hc : c.toNat < 128) (h : UInt8.ofNat c.toNat ∈ String.utf8EncodeChar d) :
    d = c := by
  have hbyte : (UInt8.ofNat c.toNat).toNat = c.toNat := toNat_ofNat_of_lt (by omega)
  rcases mem_encodeChar h with ⟨hlt, heq⟩ | ⟨-, hge⟩
  · rw [heq, toNat_ofNat_of_lt (by omega)] at hbyte
    exact Char.toNat_inj.mp hbyte
  · omega

/-- What is cut at a byte below 128 is cut at the character of that number. -/
theorem split_encode (hc : c.toNat < 128) (t : Text) :
    Pieces.split (UInt8.ofNat c.toNat) (encode t) = (Pieces.split c t).map encode := by
  induction t with
  | nil => rfl
  | cons d rest ih =>
    by_cases hd : d = c
    · subst hd
      rw [encode_cons, encodeChar_of_lt hc, List.singleton_append, Pieces.split, if_pos rfl, ih,
        Pieces.split, if_pos rfl]
      rfl
    · have hnot : UInt8.ofNat c.toNat ∉ String.utf8EncodeChar d :=
        fun h => hd (eq_of_mem_encodeChar hc h)
      obtain ⟨first, others, hs⟩ := List.exists_cons_of_ne_nil (Pieces.split_ne_nil c rest)
      rw [hs, List.map_cons] at ih
      rw [encode_cons, Pieces.split_append_of_not_mem hnot ih, Pieces.split, if_neg hd, hs]
      rfl

/-- The end of a text is cut off with the byte of a character below 128 as it is with the character. -/
theorem isSuffixOf?_encode (hc : c.toNat < 128) (t : Text) :
    [UInt8.ofNat c.toNat].isSuffixOf? (encode t) = ([c].isSuffixOf? t).map encode := by
  have hone : encode [c] = [UInt8.ofNat c.toNat] := by
    rw [encode_cons, encodeChar_of_lt hc]
    rfl
  cases hs : [c].isSuffixOf? t with
  | some before =>
    obtain rfl := List.isSuffixOf?_eq_some_iff_append_eq.mp hs
    rw [encode_append, hone]
    exact List.isSuffixOf?_eq_some_iff_append_eq.mpr rfl
  | none =>
    rw [Option.map_none, Option.eq_none_iff_forall_ne_some]
    intro before hbefore
    have hend := List.isSuffixOf?_eq_some_iff_append_eq.mp hbefore
    rcases List.eq_nil_or_concat t with rfl | ⟨init, d, rfl⟩
    · simp [encode] at hend
    · rw [List.concat_eq_append, encode_append] at hend
      have hlast : (encode [d]).getLast? = some (UInt8.ofNat c.toNat) := by
        have hlasts := congrArg List.getLast? hend
        rw [List.getLast?_concat, List.getLast?_append_of_ne_nil _ (by simp [encode])]
          at hlasts
        exact hlasts.symm
      obtain rfl : d = c := eq_of_mem_encodeChar hc (by simpa [encode] using List.mem_of_getLast? hlast)
      rw [List.isSuffixOf?_eq_some_iff_append_eq.mpr (List.concat_eq_append ..).symm] at hs
      cases hs

end

theorem encode_eq_nil_iff {t : Text} : encode t = [] ↔ t = [] := by
  cases t <;> simp [encode]

/-- The lines of a text in UTF-8 are its lines in UTF-8. -/
theorem lines_encode (t : Text) : Pieces.lines 10 13 (encode t) = (Text.lines t).map encode := by
  have hsplit : Pieces.split 10 (encode t) = (Pieces.split '\n' t).map encode :=
    split_encode (c := '\n') (by decide) t
  have hstrip (line : Text) : ([13].isSuffixOf? (encode line)).getD (encode line) =
      encode ((['\r'].isSuffixOf? line).getD line) := by
    have hend : [13].isSuffixOf? (encode line) = (['\r'].isSuffixOf? line).map encode :=
      isSuffixOf?_encode (c := '\r') (by decide) line
    rw [hend]
    cases ['\r'].isSuffixOf? line <;> rfl
  rw [Text.lines, Pieces.lines, Pieces.lines, hsplit]
  have hended : (((Pieces.split '\n' t).map encode).dropLast.map fun line =>
      ([13].isSuffixOf? line).getD line) =
        ((Pieces.split '\n' t).dropLast.map fun line => (['\r'].isSuffixOf? line).getD line).map encode := by
    rw [← List.map_dropLast, List.map_map, List.map_map]
    exact List.map_congr_left fun line _ => hstrip line
  simp only [hended, List.getLast?_map]
  cases (Pieces.split '\n' t).getLast? with
  | none => rfl
  | some last =>
    cases last with
    | nil => rfl
    | cons c rest =>
      have hne : encode (c :: rest) ≠ [] := fun h => List.cons_ne_nil c rest (encode_eq_nil_iff.mp h)
      obtain ⟨b, bytes, hb⟩ := List.exists_cons_of_ne_nil hne
      simp only [Option.map_some, hb, List.map_append, List.map_cons, List.map_nil]

end HttpSession.Utf8
