import HttpSession.Bytes.Base64
import HttpSession.Proofs.Text.Laws

/-!
# Laws of Base64

A symbol is one byte in any text, and stands for the value it was written for. Groups are written and
read one by one; the last group of a text is the only one that may hold padding.

Main statement: bytes written in Base64 are read back as they were (`decode_encode`).
-/

namespace HttpSession.Base64

-- ---------------------------------------------------------------------------
-- Symbols
-- ---------------------------------------------------------------------------

def symbolByte (value : Nat) : UInt8 := UInt8.ofNat (symbolOf value).toNat

theorem symbolByte_spec : ∀ value < 64, value? (symbolByte value) = some value ∧
    symbolByte value ≠ pad ∧ String.utf8EncodeChar (symbolOf value) = [symbolByte value] := by
  decide

theorem utf8_padding : String.utf8EncodeChar '=' = [pad] := by decide

theorem isBlank_symbolOf (value : Nat) : Text.isBlank (symbolOf value) = false := by
  have hall : ∀ value < 64, Text.isBlank (symbolOf value) = false := by decide
  by_cases h : value < 64
  · exact hall value h
  · have hlast : symbolOf value = '/' := by
      unfold symbolOf
      split_ifs <;> first | omega | rfl
    rw [hlast]
    rfl

section
variable {start offset index u v w x : Nat}

theorem valueAt_symbolByte (h : v < 64) : valueAt offset (symbolByte v) = .ok v := by
  simp [valueAt, (symbolByte_spec v h).1]

theorem utf8_symbolOf (h : v < 64) : String.utf8EncodeChar (symbolOf v) = [symbolByte v] :=
  (symbolByte_spec v h).2.2

-- ---------------------------------------------------------------------------
-- Groups
-- ---------------------------------------------------------------------------

theorem lastValues_symbol (h : v < 64) (rest : Bytes) :
    lastValues start index (symbolByte v :: rest) =
      (lastValues start (index + 1) rest).map fun (values, pads) => (v :: values, pads) := by
  rw [lastValues, if_neg (symbolByte_spec v h).2.1, valueAt_symbolByte h]
  cases lastValues start (index + 1) rest <;> rfl

theorem lastValues_pads (h : 2 ≤ index) (count : Nat) (hc : 0 < count) :
    lastValues start index (List.replicate count pad) = .ok ([], count) := by
  obtain ⟨count, rfl⟩ := Nat.exists_eq_add_one.mpr hc
  rw [List.replicate_succ, lastValues, if_pos rfl, if_neg (by omega), if_pos (by simp)]
  simp

/-- A last group for one byte. -/
theorem decodeLast_one (hu : u < 64) (hv : v < 64) (h : v % 16 = 0) :
    decodeLast start [symbolByte u, symbolByte v, pad, pad] = .ok [UInt8.ofNat (u * 4 + v / 16)] := by
  have hpads : lastValues start 2 [pad, pad] = .ok ([], 2) :=
    lastValues_pads (by omega) 2 (by omega)
  simp [decodeLast, lastValues_symbol hu, lastValues_symbol hv, hpads, Except.map, bind, Except.bind, h]

/-- A last group for two bytes. -/
theorem decodeLast_two (hu : u < 64) (hv : v < 64) (hw : w < 64) (h : w % 4 = 0) :
    decodeLast start [symbolByte u, symbolByte v, symbolByte w, pad] =
      .ok [UInt8.ofNat (u * 4 + v / 16), UInt8.ofNat (v * 16 + w / 4)] := by
  have hpads : lastValues start 3 [pad] = .ok ([], 1) :=
    lastValues_pads (by omega) 1 (by omega)
  simp [decodeLast, lastValues_symbol hu, lastValues_symbol hv, lastValues_symbol hw, hpads, Except.map,
    bind, Except.bind, h]

/-- A last group without padding, for three bytes. -/
theorem decodeLast_three (hu : u < 64) (hv : v < 64) (hw : w < 64) (hx : x < 64) :
    decodeLast start [symbolByte u, symbolByte v, symbolByte w, symbolByte x] =
      .ok [UInt8.ofNat (u * 4 + v / 16), UInt8.ofNat (v * 16 + w / 4), UInt8.ofNat (w * 64 + x)] := by
  have hend : lastValues start 4 [] = .ok ([], 0) := rfl
  simp [decodeLast, lastValues_symbol hu, lastValues_symbol hv, lastValues_symbol hw, lastValues_symbol hx,
    hend, Except.map, bind, Except.bind]

theorem decodeFrom_last {group : Bytes} (h : group.length ≤ 4) :
    decodeFrom start group = decodeLast start group := by
  unfold decodeFrom
  split
  · simp only [List.length_cons] at h
    omega
  · rfl

theorem decodeFrom_group (hu : u < 64) (hv : v < 64) (hw : w < 64) (hx : x < 64) {rest : Bytes}
    (hr : rest ≠ []) :
    decodeFrom start (symbolByte u :: symbolByte v :: symbolByte w :: symbolByte x :: rest) =
      (decodeFrom (start + 4) rest).map fun others =>
        UInt8.ofNat (u * 4 + v / 16) :: UInt8.ofNat (v * 16 + w / 4) :: UInt8.ofNat (w * 64 + x) ::
          others := by
  obtain ⟨e, rest, rfl⟩ := List.exists_cons_of_ne_nil hr
  rw [decodeFrom, valueAt_symbolByte hu, valueAt_symbolByte hv, valueAt_symbolByte hw,
    valueAt_symbolByte hx]
  cases decodeFrom (start + 4) (e :: rest) <;> simp [bind, Except.bind, Except.map]

end

-- ---------------------------------------------------------------------------
-- Written bytes
-- ---------------------------------------------------------------------------

def written (bytes : Bytes) : Bytes := Utf8.encode (encode bytes)

theorem written_nil : written [] = [] := rfl

theorem written_one (a : UInt8) :
    written [a] = [symbolByte (a.toNat * 16 / 64), symbolByte (a.toNat * 16 % 64), pad, pad] := by
  have ha := a.toNat_lt
  simp [written, encode, Utf8.encode, utf8_padding, utf8_symbolOf (show a.toNat * 16 / 64 < 64 by omega),
    utf8_symbolOf (Nat.mod_lt (a.toNat * 16) (show 64 > 0 by decide))]

theorem written_two (a b : UInt8) :
    let n := (a.toNat * 256 + b.toNat) * 4
    written [a, b] =
      [symbolByte (n / 4096), symbolByte (n / 64 % 64), symbolByte (n % 64), pad] := by
  have ha := a.toNat_lt
  have hb := b.toNat_lt
  intro n
  simp [written, encode, Utf8.encode, utf8_padding, n,
    utf8_symbolOf (show n / 4096 < 64 by omega), utf8_symbolOf (Nat.mod_lt (n / 64) (show 64 > 0 by decide)),
    utf8_symbolOf (Nat.mod_lt n (show 64 > 0 by decide))]

theorem written_three (a b c : UInt8) (rest : Bytes) :
    let n := (a.toNat * 256 + b.toNat) * 256 + c.toNat
    written (a :: b :: c :: rest) =
      symbolByte (n / 262144) :: symbolByte (n / 4096 % 64) :: symbolByte (n / 64 % 64) ::
        symbolByte (n % 64) :: written rest := by
  have ha := a.toNat_lt
  have hb := b.toNat_lt
  have hc := c.toNat_lt
  intro n
  have hmod (k : Nat) : k % 64 < 64 := Nat.mod_lt k (by decide)
  simp [written, encode, Utf8.encode, n, utf8_symbolOf (show n / 262144 < 64 by omega),
    utf8_symbolOf (hmod (n / 4096)), utf8_symbolOf (hmod (n / 64)), utf8_symbolOf (hmod n)]

theorem length_written (bytes : Bytes) : (written bytes).length % 4 = 0 := by
  induction bytes using encode.induct with
  | case1 => rfl
  | case2 a => simp [written_one]
  | case3 a b => simp [written_two]
  | case4 a b c rest ih =>
    simp only [written_three, List.length_cons]
    omega

theorem written_ne_nil {bytes : Bytes} (h : bytes ≠ []) : written bytes ≠ [] := by
  cases bytes using encode.fun_cases_unfolding with
  | case1 => exact absurd rfl h
  | case2 a => simp [written_one]
  | case3 a b => simp [written_two]
  | case4 a b c rest => simp [written_three]

theorem ofNat_eq {n : Nat} {b : UInt8} (h : n % 256 = b.toNat) : UInt8.ofNat n = b := by
  rw [← UInt8.toNat_inj, UInt8.toNat_ofNat']
  exact h

theorem decodeFrom_written (start : Nat) (bytes : Bytes) : decodeFrom start (written bytes) = .ok bytes := by
  induction bytes using encode.induct generalizing start with
  | case1 => rfl
  | case2 a =>
    have ha := a.toNat_lt
    rw [written_one, decodeFrom_last (by simp), decodeLast_one (by omega) (by omega) (by omega),
      ofNat_eq (b := a) (by omega)]
  | case3 a b =>
    have ha := a.toNat_lt
    have hb := b.toNat_lt
    rw [written_two, decodeFrom_last (by simp),
      decodeLast_two (by omega) (by omega) (by omega) (by omega), ofNat_eq (b := a) (by omega),
      ofNat_eq (b := b) (by omega)]
  | case4 a b c rest ih =>
    have ha := a.toNat_lt
    have hb := b.toNat_lt
    have hc := c.toNat_lt
    have hread (start : Nat) : decodeFrom start (written (a :: b :: c :: rest)) =
        (decodeFrom (start + 4) (written rest)).map fun others => a :: b :: c :: others := by
      rw [written_three]
      by_cases hr : rest = []
      · subst hr
        rw [written_nil, decodeFrom_last (by simp),
          decodeLast_three (by omega) (by omega) (by omega) (by omega), ofNat_eq (b := a) (by omega),
          ofNat_eq (b := b) (by omega), ofNat_eq (b := c) (by omega)]
        rfl
      · rw [decodeFrom_group (by omega) (by omega) (by omega) (by omega) (written_ne_nil hr),
          ofNat_eq (b := a) (by omega), ofNat_eq (b := b) (by omega), ofNat_eq (b := c) (by omega)]
    rw [hread, ih]
    rfl

/-- Bytes written in Base64 are read back as they were. -/
theorem decode_encode (bytes : Bytes) : decode (Utf8.encode (encode bytes)) = .ok bytes := by
  have hlength := length_written bytes
  rw [decode]
  split
  · rw [if_neg (by rw [← written]; omega)]
    exact decodeFrom_written 0 bytes
  · rename_i hlast
    have hnil : written bytes = [] := List.getLast?_eq_none_iff.mp hlast
    obtain rfl : bytes = [] := not_not.mp fun h => written_ne_nil h hnil
    rfl

theorem isBlank_of_mem_encode (bytes : Bytes) : ∀ c ∈ encode bytes, Text.isBlank c = false := by
  have hpad : Text.isBlank '=' = false := by decide
  induction bytes using encode.induct with
  | case1 => exact nofun
  | case2 a =>
    simp only [encode, List.forall_mem_cons]
    exact ⟨isBlank_symbolOf _, isBlank_symbolOf _, hpad, hpad, nofun⟩
  | case3 a b =>
    simp only [encode, List.forall_mem_cons]
    exact ⟨isBlank_symbolOf _, isBlank_symbolOf _, isBlank_symbolOf _, hpad, nofun⟩
  | case4 a b c rest ih =>
    simp only [encode, List.forall_mem_cons]
    exact ⟨isBlank_symbolOf _, isBlank_symbolOf _, isBlank_symbolOf _, isBlank_symbolOf _, ih⟩

theorem trim_encode (bytes : Bytes) : (encode bytes).trim = encode bytes :=
  Text.trim_eq_self (fun c hc => isBlank_of_mem_encode bytes c (List.mem_of_head? hc))
    fun c hc => isBlank_of_mem_encode bytes c (List.mem_of_getLast? hc)

end HttpSession.Base64
