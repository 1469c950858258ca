/-!
# Text

Text is a list of characters, so every operation on it is a recursion on its data. This module
holds the operations that every format shares: blank characters, trimming, cutting at separators,
case of the ASCII letters, and decimal numerals.

Main statements: cutting loses nothing but the separators (`join_pieces`, `eq_of_cut?`).
-/

namespace HttpSession

abbrev Text := List Char

instance : Coe String Text := ⟨String.toList⟩

namespace Text

/-- The characters with the property White_Space. -/
def isBlank (c : Char) : Bool :=
  let n := c.toNat
  (9 ≤ n && n ≤ 13) || n = 0x20 || n = 0x85 || n = 0xA0 || n = 0x1680 ||
    (0x2000 ≤ n && n ≤ 0x200A) || n = 0x2028 || n = 0x2029 || n = 0x202F || n = 0x205F || n = 0x3000

def trimStart (t : Text) : Text := t.dropWhile isBlank

def trimEnd (t : Text) : Text := (t.reverse.dropWhile isBlank).reverse

def trim (t : Text) : Text := t.trimStart.trimEnd

/-- Lower case for the ASCII letters; every other character stays. -/
def lower (t : Text) : Text := t.map Char.toLower

def upper (t : Text) : Text := t.map Char.toUpper

def sameLetters (a b : Text) : Bool := a.lower = b.lower

def ofNat (n : Nat) : Text := Nat.toDigits 10 n

def padded (width : Nat) (digits : Text) : Text :=
  List.replicate (width - digits.length) '0' ++ digits

/-- Cuts at the first character that satisfies `p`, which is dropped. -/
def cut? (p : Char → Bool) : Text → Option (Text × Text)
  | [] => none
  | c :: rest =>
    if p c then some ([], rest) else (cut? p rest).map fun (before, after) => (c :: before, after)

def cutLast? (p : Char → Bool) (t : Text) : Option (Text × Text) :=
  (cut? p t.reverse).map fun (after, before) => (before.reverse, after.reverse)

def after? (t lead : Text) : Option Text := lead.isPrefixOf? t

def before? (t tail : Text) : Option Text := tail.isSuffixOf? t

def cutOr (p : Char → Bool) (t : Text) : Text × Text := (t.cut? p).getD (t, [])

def optional {α : Type} (value : Option α) (write : α → Text) : Text :=
  match value with
  | some value => write value
  | none => []

def join (separator : Text) (parts : List Text) : Text := separator.intercalate parts

theorem cut?_eq_none_iff {p : Char → Bool} {t : Text} : t.cut? p = none ↔ ∀ c ∈ t, p c = false := by
  induction t with
  | nil => simp [cut?]
  | cons c rest ih => by_cases h : p c <;> simp [cut?, h, ih]

theorem eq_of_cut? {p : Char → Bool} {t before after : Text} (h : t.cut? p = some (before, after)) :
    ∃ c, p c = true ∧ t = before ++ c :: after ∧ ∀ d ∈ before, p d = false := by
  induction t generalizing before with
  | nil => simp [cut?] at h
  | cons c rest ih =>
    by_cases hc : p c
    · simp only [cut?, hc, if_true, Option.some.injEq, Prod.mk.injEq] at h
      obtain ⟨rfl, rfl⟩ := h
      exact ⟨c, hc, rfl, by simp⟩
    · simp only [cut?, hc, Bool.false_eq_true, if_false, Option.map_eq_some_iff] at h
      obtain ⟨⟨first, second⟩, hr, he⟩ := h
      simp only [Prod.mk.injEq] at he
      obtain ⟨rfl, rfl⟩ := he
      obtain ⟨d, hd, rfl, hb⟩ := ih hr
      exact ⟨d, hd, rfl, by simpa [hc] using hb⟩

end Text

/-! ## Pieces between separators -/

namespace Pieces

variable {α : Type}

def consFirst (a : α) : List (List α) → List (List α)
  | [] => [[a]]
  | piece :: pieces => (a :: piece) :: pieces

variable [DecidableEq α]

/-- The pieces between the occurrences of `separator`; at least one. -/
def split (separator : α) : List α → List (List α)
  | [] => [[]]
  | a :: rest =>
    if a = separator then [] :: split separator rest else consFirst a (split separator rest)

theorem split_ne_nil (separator : α) (l : List α) : split separator l ≠ [] := by
  cases l with
  | nil => simp [split]
  | cons a rest =>
    by_cases h : a = separator
    · simp [split, h]
    · cases hs : split separator rest <;> simp [split, h, hs, consFirst]

/-- The lines of a text: each ends at a line feed, less a carriage return before it. What follows
the last line feed is a line of its own unless it is empty. -/
def lines (feed return_ : α) (l : List α) : List (List α) :=
  let pieces := split feed l
  let ended := pieces.dropLast.map fun line => ([return_].isSuffixOf? line).getD line
  match pieces.getLast? with
  | none | some [] => ended
  | some line => ended ++ [line]

end Pieces

namespace Text

def pieces (separator : Char) (t : Text) : List Text := Pieces.split separator t

def words (t : Text) : List Text :=
  let mark : Text := t.map fun c => if isBlank c then ' ' else c
  (mark.pieces ' ').filter (· ≠ [])

def lines (t : Text) : List Text := Pieces.lines '\n' '\r' t

theorem join_pieces (separator : Char) (t : Text) : join [separator] (t.pieces separator) = t := by
  induction t with
  | nil => rfl
  | cons c rest ih =>
    cases hs : Pieces.split separator rest with
    | nil => exact absurd hs (Pieces.split_ne_nil _ _)
    | cons first others =>
      simp only [pieces, hs, join] at ih
      by_cases hc : c = separator
      · simp only [pieces, Pieces.split, hc, if_true, hs, join]
        cases others <;> simp_all [List.intercalate]
      · simp only [pieces, Pieces.split, hc, if_false, hs, Pieces.consFirst, join]
        cases others <;> simp_all [List.intercalate]

end Text

end HttpSession
