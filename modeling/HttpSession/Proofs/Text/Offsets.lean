import HttpSession.Proofs.Bytes.Utf8Laws

/-!
# Places in a text by their bytes

A place in a text can be named by the number of bytes before it. Some numbers name no place: those behind
the end of the text, and those inside a character of several bytes. Cutting is checked: `cutAt?` has no
result where there is no place.

Main statement: a text is cut at an offset exactly if a beginning of it has that many bytes
(`cutAt?_eq_some_iff`).
-/

namespace HttpSession.Text

variable {t u before after : Text} {n : Nat} {p : Char → Bool}

-- ---------------------------------------------------------------------------
-- Sizes
-- ---------------------------------------------------------------------------

def size (t : Text) : Nat := (Utf8.encode t).length

@[simp] theorem size_nil : size [] = 0 := rfl

@[simp] theorem size_cons (c : Char) (t : Text) : size (c :: t) = c.utf8Size + size t := by
  rw [size, Utf8.encode_cons, List.length_append, String.length_utf8EncodeChar, size]

@[simp] theorem size_append (t u : Text) : size (t ++ u) = size t + size u := by
  rw [size, Utf8.encode_append, List.length_append, size, size]

theorem size_pos (h : t ≠ []) : 0 < size t :=
  List.length_pos_of_ne_nil (mt Utf8.encode_eq_nil_iff.mp h)

-- ---------------------------------------------------------------------------
-- Cutting at an offset
-- ---------------------------------------------------------------------------

/-- Cuts where so many bytes stand before; `none` behind the end and inside a character. -/
def cutAt? : Text → Nat → Option (Text × Text)
  | t, 0 => some ([], t)
  | [], _ + 1 => none
  | c :: rest, n + 1 =>
    if c.utf8Size ≤ n + 1 then
      (cutAt? rest (n + 1 - c.utf8Size)).map fun (before, after) => (c :: before, after)
    else none

@[simp] theorem cutAt?_zero (t : Text) : t.cutAt? 0 = some ([], t) := by
  cases t <;> rfl

theorem cutAt?_size (before after : Text) :
    (before ++ after).cutAt? (size before) = some (before, after) := by
  induction before with
  | nil => exact cutAt?_zero after
  | cons c rest ih =>
    obtain ⟨m, hm⟩ : ∃ m, c.utf8Size + size rest = m + 1 :=
      Nat.exists_eq_add_one.mpr (Nat.add_pos_left c.utf8Size_pos _)
    have hrest : m + 1 - c.utf8Size = size rest := by omega
    rw [size_cons, hm, List.cons_append, cutAt?, if_pos (by omega), hrest, ih]
    rfl

theorem cutAt?_eq_some_iff :
    t.cutAt? n = some (before, after) ↔ t = before ++ after ∧ size before = n := by
  constructor
  · intro h
    induction t generalizing n before with
    | nil =>
      cases n with
      | zero =>
        obtain ⟨rfl, rfl⟩ := Prod.mk.inj (Option.some.inj h)
        exact ⟨rfl, rfl⟩
      | succ n => cases h
    | cons c rest ih =>
      cases n with
      | zero =>
        obtain ⟨rfl, rfl⟩ := Prod.mk.inj (Option.some.inj h)
        exact ⟨rfl, rfl⟩
      | succ n =>
        rw [cutAt?] at h
        split at h
        · obtain ⟨⟨first, second⟩, hcut, heq⟩ := Option.map_eq_some_iff.mp h
          obtain ⟨rfl, rfl⟩ := Prod.mk.inj heq
          obtain ⟨rfl, hsize⟩ := ih hcut
          exact ⟨rfl, by rw [size_cons]; omega⟩
        · cases h
  · rintro ⟨rfl, rfl⟩
    exact cutAt?_size before after

def upTo? (t : Text) (stop : Nat) : Option Text := (t.cutAt? stop).map Prod.fst

def from? (t : Text) (start : Nat) : Option Text := (t.cutAt? start).map Prod.snd

def slice? (t : Text) (start stop : Nat) : Option Text := (t.upTo? stop).bind (·.from? start)

/-- The byte at an offset, which may be one inside a character; `none` at the end and behind it. -/
def byteAt? (t : Text) (n : Nat) : Option UInt8 := (Utf8.encode t)[n]?

theorem upTo?_size (before after : Text) : (before ++ after).upTo? (size before) = some before := by
  rw [upTo?, cutAt?_size]
  rfl

theorem from?_size (before after : Text) : (before ++ after).from? (size before) = some after := by
  rw [from?, cutAt?_size]
  rfl

theorem slice?_size (before t after : Text) :
    (before ++ t ++ after).slice? (size before) (size (before ++ t)) = some t := by
  rw [slice?, upTo?_size, Option.bind_some, from?_size]

theorem byteAt?_size (before after : Text) : (before ++ after).byteAt? (size before) = after.byteAt? 0 := by
  rw [byteAt?, Utf8.encode_append, size, List.getElem?_append_right le_rfl, Nat.sub_self, byteAt?]

/-- A text begins with a byte below 128 exactly if it begins with the character of that number. -/
theorem map_byteAt?_zero {d : Char} (hd : d.toNat < 128) (c : Char) (rest : Text) :
    (byteAt? (c :: rest) 0).map (fun b => decide (b = UInt8.ofNat d.toNat)) = some (decide (c = d)) := by
  obtain ⟨b, bytes, hc⟩ : ∃ b bytes, String.utf8EncodeChar c = b :: bytes :=
    List.exists_cons_of_length_pos (by rw [String.length_utf8EncodeChar]; exact c.utf8Size_pos)
  have hiff : b = UInt8.ofNat d.toNat ↔ c = d := by
    constructor
    · rintro rfl
      exact Utf8.eq_of_mem_encodeChar hd (by simp [hc])
    · rintro rfl
      rw [Utf8.encodeChar_of_lt hd] at hc
      exact (List.cons.inj hc).1.symm
  rw [byteAt?, Utf8.encode_cons, hc, List.cons_append, List.getElem?_cons_zero, Option.map_some,
    decide_eq_decide.mpr hiff]

-- ---------------------------------------------------------------------------
-- Looking for characters
-- ---------------------------------------------------------------------------

def offset? (p : Char → Bool) (t : Text) : Option Nat := (t.cut? p).map fun parts => size parts.1

def lastOffset? (p : Char → Bool) (t : Text) : Option Nat := (t.cutLast? p).map fun parts => size parts.1

end HttpSession.Text
