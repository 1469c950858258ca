import HttpSession.Proofs.Text.Laws
import HttpSession.Text.Integer

/-!
# Laws of integers

Digits are read as the number that they stand for if it is in the range of the width, so every number
in the range is read back from its numeral (`Width.readNat?_ofNat`).
-/

namespace HttpSession.Text

variable {t : Text} {limit read n : Nat} {beyond : IntegerError} {w : Width} {c : Char}

theorem isDigit_of_mem_ofNat (h : c ∈ ofNat n) : c.isDigit = true :=
  Nat.isDigit_of_mem_toDigits (by decide) (by decide) h

theorem not_mem_of_isDigit (ht : ∀ d ∈ t, d.isDigit = true) (h : c.isDigit = false) : c ∉ t := fun hc =>
  Bool.false_ne_true (h.symm.trans (ht c hc))

theorem not_mem_ofNat (h : c.isDigit = false) : c ∉ ofNat n :=
  not_mem_of_isDigit (fun _ => isDigit_of_mem_ofNat) h

theorem ofNat_ne_nil (n : Nat) : ofNat n ≠ [] := Nat.toDigits_ne_nil

theorem toNat_of_isDigit (h : c.isDigit = true) : 48 ≤ c.toNat ∧ c.toNat ≤ 57 := by
  simpa [Char.isDigit, UInt32.le_iff_toNat_le] using h

theorem isBlank_of_isDigit (h : c.isDigit = true) : isBlank c = false := by
  have hrange := toNat_of_isDigit h
  simp only [isBlank, Bool.or_eq_false_iff, Bool.and_eq_false_iff, decide_eq_false_iff_not]
  omega

theorem trim_of_isDigit (ht : ∀ c ∈ t, c.isDigit = true) : t.trim = t := by
  refine trim_eq_self (fun c hc => ?_) fun c hc => ?_
  · exact isBlank_of_isDigit (ht c (List.mem_of_head? hc))
  · exact isBlank_of_isDigit (ht c (List.mem_of_getLast? hc))

theorem trim_ofNat (n : Nat) : (ofNat n).trim = ofNat n :=
  trim_of_isDigit fun _ => isDigit_of_mem_ofNat

theorem le_ofDigitChars (t : Text) (read : Nat) : read ≤ Nat.ofDigitChars 10 t read := by
  induction t generalizing read with
  | nil => exact le_rfl
  | cons c rest ih =>
    rw [Nat.ofDigitChars_cons]
    exact le_trans (by omega) (ih _)

theorem digits_eq_ok (ht : ∀ c ∈ t, c.isDigit = true) (hle : Nat.ofDigitChars 10 t read ≤ limit) :
    digits limit beyond read t = .ok (Nat.ofDigitChars 10 t read) := by
  induction t generalizing read with
  | nil => rfl
  | cons c rest ih =>
    rw [Nat.ofDigitChars_cons, Nat.mul_comm] at hle ⊢
    have hdigit : digit? c = some (c.toNat - '0'.toNat) := if_pos (ht c List.mem_cons_self)
    have hread : read * 10 + (c.toNat - '0'.toNat) ≤ limit := (le_ofDigitChars rest _).trans hle
    rw [digits, hdigit]
    exact (if_pos hread).trans (ih (fun d hd => ht d (List.mem_cons_of_mem _ hd)) hle)

theorem Width.read_of_isDigit (hne : t ≠ []) (ht : ∀ c ∈ t, c.isDigit = true)
    (hle : Nat.ofDigitChars 10 t 0 ≤ w.greatest) : w.read t = .ok (Nat.ofDigitChars 10 t 0 : Nat) := by
  unfold Width.read
  split
  · exact absurd rfl hne
  · exact absurd (ht '+' List.mem_cons_self) (by decide)
  · exact absurd (ht '-' List.mem_cons_self) (by decide)
  · rw [digits_eq_ok ht hle]
    rfl

-- ---------------------------------------------------------------------------
-- Numerals of a width
-- ---------------------------------------------------------------------------

section
variable {width : Nat}

theorem isDigit_of_mem_padded (h : c ∈ padded width (ofNat n)) : c.isDigit = true := by
  rcases List.mem_append.mp h with hzero | hdigit
  · rw [List.eq_of_mem_replicate hzero]
    rfl
  · exact isDigit_of_mem_ofNat hdigit

theorem length_ofNat_le_iff (hwidth : 0 < width) : (ofNat n).length ≤ width ↔ n < 10 ^ width :=
  Nat.length_toDigits_le_iff (by decide) hwidth

theorem length_padded (hwidth : 0 < width) (h : n < 10 ^ width) :
    (padded width (ofNat n)).length = width := by
  have hle := (length_ofNat_le_iff hwidth).mpr h
  rw [padded, List.length_append, List.length_replicate, Nat.sub_add_cancel hle]

theorem padded_of_le (h : width ≤ t.length) : padded width t = t := by
  rw [padded, Nat.sub_eq_zero_of_le h]
  rfl

theorem ofDigitChars_replicate_zero (zeros : Nat) (t : Text) :
    Nat.ofDigitChars 10 (List.replicate zeros '0' ++ t) 0 = Nat.ofDigitChars 10 t 0 := by
  induction zeros with
  | zero => rfl
  | succ zeros ih => exact ih

theorem ofDigitChars_padded (width n : Nat) : Nat.ofDigitChars 10 (padded width (ofNat n)) 0 = n :=
  (ofDigitChars_replicate_zero _ _).trans (Nat.ofDigitChars_toDigits (by decide) (by decide))

theorem Width.readNat?_padded (h : n ≤ w.greatest) : w.readNat? (padded width (ofNat n)) = some n := by
  have hne : padded width (ofNat n) ≠ [] := List.append_ne_nil_of_right_ne_nil _ (ofNat_ne_nil n)
  rw [readNat?, read_of_isDigit hne (fun _ => isDigit_of_mem_padded) (by rwa [ofDigitChars_padded]),
    ofDigitChars_padded]
  rfl

end

theorem Width.readNat?_ofNat (h : n ≤ w.greatest) : w.readNat? (ofNat n) = some n := by
  rw [← padded_of_le (Nat.zero_le (ofNat n).length), readNat?_padded h]

end HttpSession.Text
