import HttpSession.Proofs.Text.Offsets

/-!
# Where a text is cut

The places at which a text is cut are named by the characters before them. A piece is scanned from its own
start, yet it is cut where the scan through the whole text would cut it, because no piece but the last ends
inside quotes. So cutting the pieces once more, at another separator, cuts at the bare places of that
separator in the whole text.

Main statements: `mem_cuts_splitUnquoted_iff` and `mem_innerCuts_splitUnquoted_iff`. A scan with two flags
that takes the pieces by their offsets in bytes gives the same ones, and none of its offsets is inside a
character or behind the end (`slices?_eq`).
-/

namespace HttpSession.Text

variable {c d separator outer inner : Char} {start : Quoting} {t u : Text} {pieces : List Text} {i : Nat}

-- ---------------------------------------------------------------------------
-- Bare places
-- ---------------------------------------------------------------------------

/-- Whether a character stands at a place of a text outside quotes, for a scan that stands at `start`. -/
def Bare (c : Char) (start : Quoting) (t : Text) (i : Nat) : Prop :=
  t[i]? = some c ∧ scan start (t.take i) = .outside

instance (c : Char) (start : Quoting) (t : Text) (i : Nat) : Decidable (Bare c start t i) := by
  unfold Bare
  infer_instance

@[simp] theorem not_bare_nil : ¬ Bare c start [] i := by
  simp [Bare]

@[simp] theorem bare_zero : Bare c start (d :: t) 0 ↔ d = c ∧ start = .outside := by
  simp [Bare, scan]

@[simp] theorem bare_succ : Bare c start (d :: t) (i + 1) ↔ Bare c (start.next d) t i := by
  simp [Bare, scan]

/-- Nothing is shown outside quotes exactly if there is no bare place. -/
theorem hidden_iff_forall_not_bare : Hidden c start t ↔ ∀ i, ¬ Bare c start t i := by
  induction t generalizing start with
  | nil => simp [Hidden]
  | cons d rest ih =>
    rw [Hidden, ih]
    constructor
    · rintro ⟨hfirst, hrest⟩ (_ | i)
      · simpa [and_comm] using hfirst
      · simpa using hrest i
    · intro h
      exact ⟨by simpa [and_comm] using h 0, fun i => by simpa using h (i + 1)⟩

/-- Behind a text that leaves no quotes open, and one character, the places are those of what follows. -/
theorem bare_append_cons (hd : d ≠ '"') (ht : scan start t = .outside) :
    Bare c start (t ++ d :: u) i ↔
      Bare c start t i ∨ (i = t.length ∧ d = c) ∨ ∃ j, Bare c .outside u j ∧ t.length + 1 + j = i := by
  induction t generalizing start i with
  | nil =>
    obtain rfl : start = .outside := ht
    have hnext : Quoting.next .outside d = .outside := if_neg hd
    cases i with
    | zero => simp
    | succ i => simp [hnext, Nat.add_comm 1]
  | cons a rest ih =>
    cases i with
    | zero => simp
    | succ i =>
      rw [List.cons_append, bare_succ, bare_succ, ih ht]
      simp only [List.length_cons, Nat.add_right_cancel_iff, Nat.add_right_comm _ 1]

-- ---------------------------------------------------------------------------
-- Cuts
-- ---------------------------------------------------------------------------

/-- The places where pieces meet, in the text that they make with a character between each and the next. -/
def cuts : List Text → List Nat
  | [] | [_] => []
  | piece :: next :: rest => piece.length :: (cuts (next :: rest)).map (piece.length + 1 + ·)

def innerCuts (inner : Char) : List Text → List Nat
  | [] => []
  | piece :: rest => cuts (piece.splitUnquoted inner) ++ (innerCuts inner rest).map (piece.length + 1 + ·)

theorem mem_cuts_iff (hs : separator ≠ '"') (h : Parted separator pieces) :
    i ∈ cuts pieces ↔ Bare separator .outside (join [separator] pieces) i := by
  induction pieces generalizing i with
  | nil => exact h.elim
  | cons piece rest ih =>
    cases rest with
    | nil =>
      have hnone : ¬ Bare separator .outside piece i := hidden_iff_forall_not_bare.mp h i
      simpa [cuts, join] using hnone
    | cons next rest =>
      obtain ⟨hhidden, hends, hrest⟩ := h
      have hnone : ¬ Bare separator .outside piece i := hidden_iff_forall_not_bare.mp hhidden i
      rw [join_cons_cons, List.append_assoc, List.singleton_append, bare_append_cons hs hends, cuts,
        List.mem_cons, List.mem_map]
      simp only [ih hrest, hnone, false_or, and_true]

theorem mem_cuts_splitUnquoted_iff (hs : separator ≠ '"') :
    i ∈ cuts (t.splitUnquoted separator) ↔ Bare separator .outside t i := by
  rw [mem_cuts_iff hs (parted_splitUnquoted separator t), join_splitUnquoted]

/-- Pieces that are cut once more are cut at the bare places of the whole text. -/
theorem mem_innerCuts_iff (ho : outer ≠ '"') (hi : inner ≠ '"') (hne : outer ≠ inner)
    (h : Parted outer pieces) :
    i ∈ innerCuts inner pieces ↔ Bare inner .outside (join [outer] pieces) i := by
  induction pieces generalizing i with
  | nil => exact h.elim
  | cons piece rest ih =>
    cases rest with
    | nil => simp [innerCuts, join, mem_cuts_splitUnquoted_iff hi]
    | cons next rest =>
      obtain ⟨-, hends, hrest⟩ := h
      rw [join_cons_cons, List.append_assoc, List.singleton_append, bare_append_cons ho hends, innerCuts,
        List.mem_append, List.mem_map]
      simp only [mem_cuts_splitUnquoted_iff hi, ih hrest, hne, and_false, false_or]

theorem mem_innerCuts_splitUnquoted_iff (ho : outer ≠ '"') (hi : inner ≠ '"') (hne : outer ≠ inner) :
    i ∈ innerCuts inner (t.splitUnquoted outer) ↔ Bare inner .outside t i := by
  rw [mem_innerCuts_iff ho hi hne (parted_splitUnquoted outer t), join_splitUnquoted]

-- ---------------------------------------------------------------------------
-- Pieces by their offsets
-- ---------------------------------------------------------------------------

/-- The pieces of a text by a scan through what is left of it, with one flag for quotes and one for a
backslash before. The piece at hand begins at the offset `start`; the scan stands at `here`. -/
def slicesFrom? (separator : Char) (t : Text) (start here : Nat) (quoted escaped : Bool) :
    Text → Option (List Text)
  | [] => (t.from? start).map ([·])
  | c :: rest =>
    let next := here + c.utf8Size
    if escaped then slicesFrom? separator t start next quoted false rest
    else if c = '\\' ∧ quoted then slicesFrom? separator t start next quoted true rest
    else if c = '"' then slicesFrom? separator t start next (!quoted) false rest
    else if c = separator ∧ !quoted then
      (t.slice? start here).bind fun piece =>
        (slicesFrom? separator t next next quoted false rest).map (piece :: ·)
    else slicesFrom? separator t start next quoted false rest

def slices? (separator : Char) (t : Text) : Option (List Text) :=
  slicesFrom? separator t 0 0 false false t

@[simp] def Quoting.isQuoted : Quoting → Bool
  | .outside => false
  | .inside | .escaped => true

@[simp] def Quoting.isEscaped : Quoting → Bool
  | .escaped => true
  | .outside | .inside => false

section
variable {begin here next : Nat} {rest : Text}

theorem slicesFrom?_separator (hs : separator ≠ '"') (hn : here + separator.utf8Size = next) :
    slicesFrom? separator t begin here false false (separator :: rest) =
      (t.slice? begin here).bind fun piece =>
        (slicesFrom? separator t next next false false rest).map (piece :: ·) := by
  subst hn
  simp [slicesFrom?, hs]

theorem slicesFrom?_next (hc : ¬ (start = .outside ∧ c = separator)) (hn : here + c.utf8Size = next) :
    slicesFrom? separator t begin here start.isQuoted start.isEscaped (c :: rest) =
      slicesFrom? separator t begin next (start.next c).isQuoted (start.next c).isEscaped rest := by
  subst hn
  cases start with
  | outside =>
    have hc : c ≠ separator := fun h => hc ⟨rfl, h⟩
    by_cases hq : c = '"' <;> simp [slicesFrom?, Quoting.next, hq, hc]
  | inside =>
    by_cases hb : c = '\\'
    · simp [slicesFrom?, Quoting.next, hb]
    · by_cases hq : c = '"' <;>
        simp [slicesFrom?, Quoting.next, hq, hb]
  | escaped => simp [slicesFrom?, Quoting.next]

end

/-- The invariant of the scan: the text is what is done, the piece at hand and what is left, and the offsets
are those of the piece's two ends. -/
theorem slicesFrom?_eq (hs : separator ≠ '"') {rest first : Text} {others : List Text}
    (before piece : Text) (ht : t = before ++ piece ++ rest)
    (h : splitFrom separator start rest = first :: others) :
    slicesFrom? separator t (size before) (size (before ++ piece)) start.isQuoted start.isEscaped rest =
      some ((piece ++ first) :: others) := by
  induction rest generalizing start before piece first others with
  | nil =>
    obtain ⟨rfl, rfl⟩ := List.cons.inj h
    rw [ht, slicesFrom?, List.append_nil, from?_size, List.append_nil]
    rfl
  | cons c rest ih =>
    have hsize : size (before ++ piece) + c.utf8Size = size (before ++ piece ++ [c]) := by simp; omega
    by_cases hc : start = .outside ∧ c = separator
    · -- the piece at hand ends here, and an empty one begins behind the separator
      obtain ⟨rfl, rfl⟩ := hc
      obtain ⟨next, behind, hsplit⟩ := exists_splitFrom c .outside rest
      have hbehind := ih (before ++ piece ++ [c]) [] (by simp [ht]) hsplit
      rw [splitFrom, if_pos ⟨rfl, rfl⟩, hsplit] at h
      obtain ⟨rfl, rfl⟩ := List.cons.inj h
      rw [List.append_nil, List.nil_append, Quoting.isQuoted, Quoting.isEscaped] at hbehind
      rw [Quoting.isQuoted, Quoting.isEscaped, slicesFrom?_separator hs hsize, hbehind, ht, slice?_size,
        List.append_nil]
      rfl
    · -- the piece at hand goes on
      obtain ⟨next, behind, hsplit⟩ := exists_splitFrom separator (start.next c) rest
      have hbehind := ih before (piece ++ [c]) (by simp [ht]) hsplit
      rw [splitFrom, if_neg hc, hsplit] at h
      obtain ⟨rfl, rfl⟩ := List.cons.inj h
      rw [slicesFrom?_next hc hsize, List.append_assoc before, hbehind, List.append_assoc,
        List.singleton_append]

theorem slices?_eq (hs : separator ≠ '"') (t : Text) :
    t.slices? separator = some (t.splitUnquoted separator) := by
  obtain ⟨first, others, hsplit⟩ := exists_splitUnquoted separator t
  rw [hsplit]
  exact slicesFrom?_eq hs [] [] rfl hsplit

end HttpSession.Text
