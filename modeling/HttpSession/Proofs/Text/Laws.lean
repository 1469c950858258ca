import Mathlib
import HttpSession.Text.Quotes

/-!
# Laws of text

What trimming, taking quotes off and cutting leave of a text, character by character, and when a text
that was joined is cut where it was joined: exactly if no piece shows the separator outside quotes, and
no piece but the last ends inside them (`splitUnquoted_join_iff`). The count of separators alone says
which piece is which (`eq_of_join_eq`).
-/

namespace HttpSession.Text

variable {c separator : Char} {t u lead tail before after : Text} {p : Char → Bool}

-- ---------------------------------------------------------------------------
-- Beginnings and ends
-- ---------------------------------------------------------------------------

theorem after?_eq_some_iff : t.after? lead = some u ↔ t = lead ++ u := by
  rw [after?, List.isPrefixOf?_eq_some_iff_append_eq, eq_comm]

theorem before?_eq_some_iff : t.before? tail = some u ↔ t = u ++ tail := by
  rw [before?, List.isSuffixOf?_eq_some_iff_append_eq, eq_comm]

theorem after?_append_cons (h : c ∉ lead) (t after : Text) :
    (t ++ c :: after).after? lead = (t.after? lead).map (· ++ c :: after) := by
  ext u
  simp only [Option.map_eq_some_iff, after?_eq_some_iff]
  constructor
  · intro heq
    rcases List.append_eq_append_iff.mp heq with ⟨m, rfl, hm⟩ | ⟨m, rfl, rfl⟩
    · cases m with
      | nil => exact ⟨[], by simp, hm⟩
      | cons d m =>
        obtain ⟨rfl, -⟩ := List.cons.inj hm
        simp at h
    · exact ⟨m, rfl, rfl⟩
  · rintro ⟨m, rfl, rfl⟩
    exact List.append_assoc _ _ _

-- ---------------------------------------------------------------------------
-- Lower case
-- ---------------------------------------------------------------------------

@[simp] theorem lower_lower (t : Text) : t.lower.lower = t.lower := by
  simp [lower]

theorem toLower_eq_of_not_isAlpha (h : c.isAlpha = false) : c.toLower = c := by
  refine Char.toLower_eq_of_not_isUpper ?_
  simp only [Char.isAlpha, Bool.or_eq_false_iff] at h
  simp [h.1]

theorem mem_lower_iff (h : c.isAlpha = false) : c ∈ t.lower ↔ c ∈ t := by
  rw [lower, List.mem_map]
  constructor
  · rintro ⟨d, hd, rfl⟩
    rw [Char.isAlpha_toLower_eq_isAlpha] at h
    rwa [toLower_eq_of_not_isAlpha h]
  · exact fun hc => ⟨c, hc, toLower_eq_of_not_isAlpha h⟩

-- ---------------------------------------------------------------------------
-- Trimming
-- ---------------------------------------------------------------------------

theorem trimEnd_eq (t : Text) : t.trimEnd = t.rdropWhile isBlank := rfl

theorem trimEnd_isPrefix (t : Text) : t.trimEnd <+: t := List.rdropWhile_prefix isBlank t

theorem trim_sublist (t : Text) : List.Sublist t.trim t :=
  (trimEnd_isPrefix _).sublist.trans (List.dropWhile_sublist _)

theorem mem_of_mem_trim (h : c ∈ t.trim) : c ∈ t := (trim_sublist t).subset h

theorem trimStart_eq_self_iff : t.trimStart = t ↔ ∀ c, t.head? = some c → isBlank c = false := by
  cases t with
  | nil => simp [trimStart]
  | cons c rest =>
    by_cases hc : isBlank c = true
    · have hne : List.dropWhile isBlank rest ≠ c :: rest := fun h => by
        have hlength := (List.dropWhile_sublist (l := rest) isBlank).length_le
        rw [h, List.length_cons] at hlength
        omega
      simp [trimStart, hc, hne]
    · simp [trimStart, hc]

theorem trim_trim (t : Text) : t.trim.trim = t.trim := by
  -- trimming the end leaves the first character where it is, and that is no blank
  have hstart : t.trim.trimStart = t.trim := by
    rw [trimStart_eq_self_iff]
    intro c hc
    obtain ⟨rest, hrest⟩ := trimEnd_isPrefix t.trimStart
    have hhead : t.trimStart.head? = some c := by
      rw [← hrest, List.head?_append]
      show (t.trim.head?).or rest.head? = some c
      rw [hc]
      rfl
    exact trimStart_eq_self_iff.mp (List.dropWhile_idempotent isBlank t) c hhead
  rw [trim, hstart]
  exact List.rdropWhile_idempotent isBlank t.trimStart

theorem trim_cons (h : isBlank c = true) (t : Text) : trim (c :: t) = trim t := by
  simp [trim, trimStart, h]

theorem count_dropWhile (h : p c = false) (t : Text) : (t.dropWhile p).count c = t.count c := by
  have htaken : (t.takeWhile p).count c = 0 := by
    rw [List.count_eq_zero]
    intro hc
    have hp := List.mem_takeWhile_imp hc
    rw [h] at hp
    cases hp
  conv => rhs; rw [← List.takeWhile_append_dropWhile (p := p) (l := t), List.count_append, htaken]
  omega

theorem count_trim (h : isBlank c = false) (t : Text) : t.trim.count c = t.count c := by
  rw [trim, trimEnd_eq, List.rdropWhile, List.count_reverse, count_dropWhile h, List.count_reverse,
    trimStart, count_dropWhile h]

theorem mem_trim_iff (h : isBlank c = false) : c ∈ t.trim ↔ c ∈ t := by
  rw [← List.count_pos_iff, count_trim h, List.count_pos_iff]

theorem not_mem_of_trim_eq_nil (h : isBlank c = false) (ht : t.trim = []) : c ∉ t := by
  rw [← mem_trim_iff h, ht]
  exact List.not_mem_nil

theorem trimStart_trim (t : Text) : t.trimStart.trim = t.trim := by
  rw [trim, trim, trimStart, trimStart, List.dropWhile_idempotent isBlank t]

theorem trimEnd_append_cons (h : isBlank c = false) (before after : Text) :
    trimEnd (before ++ c :: after) = before ++ c :: after.trimEnd := by
  rw [trimEnd, List.reverse_append, List.reverse_cons, List.append_assoc, List.dropWhile_append]
  split
  · rename_i hblank
    rw [List.isEmpty_iff] at hblank
    simp [trimEnd, hblank, h]
  · simp [trimEnd]

theorem trim_append_cons (h : isBlank c = false) (before after : Text) :
    trim (before ++ c :: after) = before.trimStart ++ c :: after.trimEnd := by
  have hstart : trimStart (before ++ c :: after) = before.trimStart ++ c :: after := by
    rw [trimStart, List.dropWhile_append]
    split
    · rename_i hblank
      rw [List.isEmpty_iff] at hblank
      simp [trimStart, hblank, h]
    · rfl
  rw [trim, hstart, trimEnd_append_cons h]

theorem trim_eq_self (hfirst : ∀ c, t.head? = some c → isBlank c = false)
    (hlast : ∀ c, t.getLast? = some c → isBlank c = false) : t.trim = t := by
  have hend : t.trimEnd = t := by
    rw [trimEnd_eq, List.rdropWhile_eq_self_iff]
    intro hne
    simpa using hlast _ (List.getLast?_eq_some_getLast hne)
  rw [trim, trimStart_eq_self_iff.mpr hfirst, hend]

theorem trimStart_of_trim (h : t.trim = t) : t.trimStart = t := by
  have hle : t.trim.length ≤ t.trimStart.length := (trimEnd_isPrefix _).length_le
  rw [h] at hle
  exact (List.dropWhile_sublist isBlank).eq_of_length_le hle

theorem trimEnd_of_trim (h : t.trim = t) : t.trimEnd = t := by
  rwa [trim, trimStart_of_trim h] at h

theorem trim_concat (h : isBlank c = true) (t : Text) : trim (t ++ [c]) = t.trim := by
  have hstart : trimStart (t ++ [c]) = if t.trimStart = [] then [] else t.trimStart ++ [c] := by
    simp [trimStart, List.dropWhile_append, h, List.isEmpty_iff]
  rw [trim, hstart]
  split
  · rename_i hnil
    rw [trim, hnil]
  · exact List.rdropWhile_concat_pos isBlank _ _ h

theorem trim_append_left (h : ∀ c ∈ lead, isBlank c = true) (t : Text) : trim (lead ++ t) = t.trim := by
  induction lead with
  | nil => rfl
  | cons c rest ih =>
    rw [List.cons_append, trim_cons (h c List.mem_cons_self),
      ih fun d hd => h d (List.mem_cons_of_mem _ hd)]

theorem trim_append_right (h : ∀ c ∈ tail, isBlank c = true) (t : Text) : trim (t ++ tail) = t.trim := by
  induction tail generalizing t with
  | nil => simp
  | cons c rest ih =>
    have hrest := ih (fun d hd => h d (List.mem_cons_of_mem _ hd)) (t ++ [c])
    rw [List.append_assoc] at hrest
    exact hrest.trans (trim_concat (h c List.mem_cons_self) t)

theorem trimEnd_trim (t : Text) : trim (trimEnd t) = t.trim := by
  induction t using List.reverseRecOn with
  | nil => rfl
  | append_singleton t c ih =>
    by_cases h : isBlank c = true
    · have hend : trimEnd (t ++ [c]) = trimEnd t := List.rdropWhile_concat_pos isBlank _ _ h
      rw [hend, ih, trim_concat h]
    · have hend : trimEnd (t ++ [c]) = t ++ [c] := List.rdropWhile_concat_neg isBlank _ _ h
      rw [hend]

-- ---------------------------------------------------------------------------
-- Quotes
-- ---------------------------------------------------------------------------

theorem quoted?_eq_some_iff : t.quoted? = some u ↔ t = '"' :: (u ++ ['"']) := by
  simp only [quoted?, Option.bind_eq_some_iff, after?_eq_some_iff, before?_eq_some_iff]
  constructor
  · rintro ⟨_, rfl, rfl⟩
    rfl
  · rintro rfl
    exact ⟨_, rfl, rfl⟩

theorem unquote_quoted (u : Text) : unquote ('"' :: (u ++ ['"'])) = u := by
  rw [unquote, quoted?_eq_some_iff.mpr rfl]
  rfl

theorem unquote_eq_self_iff : t.unquote = t ↔ t.quoted? = none := by
  cases h : t.quoted? with
  | none => simp [unquote, h]
  | some u =>
    have hne : u ≠ t := fun he => by
      have hlength := congrArg List.length (quoted?_eq_some_iff.mp h)
      simp only [he, List.length_cons, List.length_append, List.length_nil] at hlength
      omega
    simp [unquote, h, hne]

theorem count_unquote (h : c ≠ '"') (t : Text) : t.unquote.count c = t.count c := by
  cases hq : t.quoted? with
  | none => rw [unquote_eq_self_iff.mpr hq]
  | some u =>
    obtain rfl := quoted?_eq_some_iff.mp hq
    rw [unquote_quoted]
    simp [List.count_append, Ne.symm h]

theorem mem_of_mem_unquote (h : c ∈ t.unquote) : c ∈ t := by
  cases hq : t.quoted? with
  | none => rwa [unquote_eq_self_iff.mpr hq] at h
  | some u =>
    obtain rfl := quoted?_eq_some_iff.mp hq
    rw [unquote_quoted] at h
    simp [h]

theorem count_unescape (h : c ≠ '\\') (t : Text) : t.unescape.count c = t.count c := by
  induction t using unescape.induct with
  | case1 => rfl
  | case2 => simp [unescape, Ne.symm h]
  | case3 d rest ih => simp [unescape, List.count_cons, ih, Ne.symm h]
  | case4 b d rest hb ih => simp [unescape, hb, List.count_cons, ih]
  | case5 b hb => simp [unescape]

theorem length_unescape_le (t : Text) : t.unescape.length ≤ t.length := by
  induction t using unescape.induct with
  | case1 => simp [unescape]
  | case2 => simp [unescape]
  | case3 d rest ih => simp [unescape]; omega
  | case4 b d rest hb ih => simpa [unescape, hb] using ih
  | case5 b hb => simp [unescape]

theorem unescape_eq_self_iff : t.unescape = t ↔ '\\' ∉ t := by
  induction t using unescape.induct with
  | case1 => simp [unescape]
  | case2 => simp [unescape]
  | case3 d rest ih =>
    -- what is read is shorter than what was written
    have hle := length_unescape_le rest
    have hne : d :: unescape rest ≠ '\\' :: d :: rest := fun h => by
      have hlength := congrArg List.length h
      simp only [List.length_cons] at hlength
      omega
    rw [unescape, if_pos rfl]
    exact iff_of_false hne (by simp)
  | case4 b d rest hb ih => simpa [unescape, hb, Ne.symm hb] using ih
  | case5 b hb => simp [unescape, Ne.symm hb]

-- ---------------------------------------------------------------------------
-- Cutting and joining
-- ---------------------------------------------------------------------------

theorem cut?_append_cons (hb : ∀ d ∈ before, p d = false) (hc : p c = true) :
    cut? p (before ++ c :: after) = some (before, after) := by
  induction before with
  | nil => simp [cut?, hc]
  | cons d rest ih =>
    have hd := hb d List.mem_cons_self
    simp [cut?, hd, ih fun e he => hb e (List.mem_cons_of_mem _ he)]

theorem mem_of_mem_cut? (h : t.cut? p = some (before, after)) (hc : c ∈ before ∨ c ∈ after) : c ∈ t := by
  obtain ⟨d, -, rfl, -⟩ := eq_of_cut? h
  rcases hc with hc | hc <;> simp [hc]

theorem eq_of_cutLast? (h : t.cutLast? p = some (before, after)) :
    ∃ c, p c = true ∧ t = before ++ c :: after := by
  obtain ⟨⟨after', before'⟩, hcut, heq⟩ := Option.map_eq_some_iff.mp h
  obtain ⟨rfl, rfl⟩ := Prod.mk.inj heq
  obtain ⟨c, hc, hreverse, -⟩ := eq_of_cut? hcut
  refine ⟨c, hc, ?_⟩
  rw [← List.reverse_inj, hreverse]
  simp

theorem join_cons (separator piece : Text) (rest : List Text) :
    join separator (piece :: rest) = piece ++ rest.flatMap (separator ++ ·) := by
  induction rest generalizing piece with
  | nil => simp [join]
  | cons next rest ih =>
    rw [join, List.intercalate_cons_cons, ← join, ih]
    simp

theorem join_cons_cons (separator piece next : Text) (rest : List Text) :
    join separator (piece :: next :: rest) = piece ++ separator ++ join separator (next :: rest) :=
  List.intercalate_cons_cons

/-- A text is cut at a given occurrence of a character in one way only. -/
theorem append_cons_inj_of_count {b b' a a' : Text} (h : b ++ c :: a = b' ++ c :: a')
    (hc : b.count c = b'.count c) : b = b' ∧ a = a' := by
  rcases List.append_eq_append_iff.mp h with ⟨m, rfl, hm⟩ | ⟨m, rfl, hm⟩ <;> cases m with
  | nil => simpa [eq_comm] using hm
  | cons d m =>
    obtain ⟨rfl, -⟩ := List.cons.inj hm
    simp only [List.count_append, List.count_cons_self] at hc
    omega

theorem exists_append_cons_of_lt_count {n : Nat} (h : n < t.count c) :
    ∃ before after, t = before ++ c :: after ∧ before.count c = n := by
  induction t generalizing n with
  | nil => simp at h
  | cons d rest ih =>
    by_cases hd : d = c
    · subst hd
      cases n with
      | zero => exact ⟨[], rest, rfl, rfl⟩
      | succ n =>
        rw [List.count_cons_self, Nat.add_lt_add_iff_right] at h
        obtain ⟨before, after, rfl, hn⟩ := ih h
        exact ⟨d :: before, after, rfl, by simp [hn]⟩
    · rw [List.count_cons_of_ne hd] at h
      obtain ⟨before, after, rfl, hn⟩ := ih h
      exact ⟨d :: before, after, rfl, by simp [hd, hn]⟩

/-- Of two ways to cut off what stands before a separator, or before the end, those with as many
separators in it are the same. -/
theorem eq_of_join_cons {first : Text} {rest : List Text} (h : join [separator] (first :: rest) = t ++ u)
    (hu : u = [] ∨ ∃ v, u = separator :: v) (hc : first.count separator = t.count separator) :
    first = t := by
  have hfirst : ∃ x, join [separator] (first :: rest) ++ [separator] = first ++ separator :: x := by
    cases rest with
    | nil => exact ⟨[], by simp [join]⟩
    | cons next rest => exact ⟨join [separator] (next :: rest) ++ [separator], by simp [join_cons_cons]⟩
  have ht : ∃ y, t ++ u ++ [separator] = t ++ separator :: y := by
    rcases hu with rfl | ⟨v, rfl⟩
    · exact ⟨[], by simp⟩
    · exact ⟨v ++ [separator], by simp⟩
  obtain ⟨x, hx⟩ := hfirst
  obtain ⟨y, hy⟩ := ht
  rw [h, hy] at hx
  exact (append_cons_inj_of_count hx.symm hc).1

/-- Of two ways to write a text in pieces, with the same separators in each, there is but one. -/
theorem eq_of_join_eq {ts us : List Text} (h : join [separator] ts = join [separator] us)
    (hc : List.Forall₂ (fun t u => t.count separator = u.count separator) ts us) : ts = us := by
  induction hc with
  | nil => rfl
  | @cons t u ts us hcount hrest ih =>
    cases hrest with
    | nil => simpa [join] using h
    | @cons t' u' ts us hcount' hrest =>
      simp only [join_cons_cons, List.append_assoc, List.singleton_append] at h
      obtain ⟨rfl, hjoin⟩ := append_cons_inj_of_count h hcount
      rw [ih hjoin]

-- ---------------------------------------------------------------------------
-- Splitting what was joined
-- ---------------------------------------------------------------------------

instance instDecidableHidden (separator : Char) :
    (start : Quoting) → (t : Text) → Decidable (Hidden separator start t)
  | _, [] => .isTrue trivial
  | start, c :: rest =>
    have := instDecidableHidden separator (start.next c) rest
    inferInstanceAs (Decidable (¬ (start = .outside ∧ c = separator) ∧ _))

/-- Whether pieces are parted where they meet and nowhere else: none shows the separator outside
quotes, and none but the last leaves quotes open. -/
def Parted (separator : Char) : List Text → Prop
  | [] => False
  | [piece] => Hidden separator .outside piece
  | piece :: next :: rest =>
    Hidden separator .outside piece ∧ scan .outside piece = .outside ∧ Parted separator (next :: rest)

instance instDecidableParted (separator : Char) : (pieces : List Text) → Decidable (Parted separator pieces)
  | [] => .isFalse id
  | [piece] => inferInstanceAs (Decidable (Hidden separator .outside piece))
  | piece :: next :: rest =>
    have := instDecidableParted separator (next :: rest)
    inferInstanceAs (Decidable (Hidden separator .outside piece ∧ scan .outside piece = .outside ∧ _))

theorem exists_splitFrom (separator : Char) (start : Quoting) (t : Text) :
    ∃ first rest, splitFrom separator start t = first :: rest :=
  List.exists_cons_of_ne_nil (splitFrom_ne_nil separator start t)

theorem exists_splitUnquoted (separator : Char) (t : Text) :
    ∃ first rest, t.splitUnquoted separator = first :: rest :=
  exists_splitFrom separator .outside t

theorem hidden_of_not_mem (h : separator ∉ t) (start : Quoting) : Hidden separator start t := by
  induction t generalizing start with
  | nil => trivial
  | cons c rest ih =>
    rw [List.mem_cons, not_or] at h
    exact ⟨fun hc => h.1 hc.2.symm, ih h.2 _⟩

theorem hidden_append {start : Quoting} :
    Hidden separator start (t ++ u) ↔ Hidden separator start t ∧ Hidden separator (scan start t) u := by
  induction t generalizing start with
  | nil => simp [Hidden, scan]
  | cons c rest ih => simp only [List.cons_append, Hidden, ih, and_assoc]; rfl

theorem scan_append {start : Quoting} : scan start (t ++ u) = scan (scan start t) u :=
  List.foldl_append

theorem scan_of_not_mem (h : '"' ∉ t) : scan .outside t = .outside := by
  induction t with
  | nil => rfl
  | cons c rest ih =>
    rw [List.mem_cons, not_or] at h
    have hnext : Quoting.next .outside c = .outside := if_neg (Ne.symm h.1)
    rw [scan, List.foldl_cons, hnext]
    exact ih h.2

theorem scan_inside_of_not_mem (hq : '"' ∉ t) (hb : '\\' ∉ t) : scan .inside t = .inside := by
  induction t with
  | nil => rfl
  | cons c rest ih =>
    rw [List.mem_cons, not_or] at hq hb
    have hnext : Quoting.next .inside c = .inside := by
      rw [Quoting.next, if_neg (Ne.symm hb.1), if_neg (Ne.symm hq.1)]
    rw [scan, List.foldl_cons, hnext]
    exact ih hq.2 hb.2

theorem consFirst_eq_cons_iff {pieces rest : List Text} (h : pieces ≠ []) :
    Pieces.consFirst c pieces = (c :: t) :: rest ↔ pieces = t :: rest := by
  cases pieces with
  | nil => exact absurd rfl h
  | cons piece others => simp [Pieces.consFirst]

theorem consFirst_ne_nil_cons {pieces rest : List Text} : Pieces.consFirst c pieces ≠ [] :: rest := by
  cases pieces <;> simp [Pieces.consFirst]

theorem splitFrom_eq_singleton_iff (start : Quoting) (t : Text) :
    splitFrom separator start t = [t] ↔ Hidden separator start t := by
  induction t generalizing start with
  | nil => simp [splitFrom, Hidden]
  | cons c rest ih =>
    by_cases hc : start = .outside ∧ c = separator
    · simp [splitFrom, Hidden, hc]
    · rw [splitFrom, if_neg hc, consFirst_eq_cons_iff (splitFrom_ne_nil _ _ _), ih]
      simp [Hidden, hc]

/-- A piece is not cut again. -/
theorem splitUnquoted_of_mem {piece : Text} (h : piece ∈ t.splitUnquoted separator) :
    piece.splitUnquoted separator = [piece] :=
  (splitFrom_eq_singleton_iff _ _).mpr (hidden_of_mem_splitUnquoted h)

/-- A first piece is cut off at the separator behind it exactly if it shows none itself and stands
outside quotes there. -/
theorem splitFrom_append_iff (start : Quoting) (t rest : Text) (pieces : List Text) :
    splitFrom separator start (t ++ separator :: rest) = t :: pieces ↔
      Hidden separator start t ∧ scan start t = .outside ∧
        splitFrom separator .outside rest = pieces := by
  induction t generalizing start with
  | nil =>
    by_cases hs : start = .outside
    · simp [splitFrom, Hidden, scan, hs]
    · simp [splitFrom, Hidden, scan, hs, consFirst_ne_nil_cons]
  | cons c t ih =>
    by_cases hc : start = .outside ∧ c = separator
    · simp [splitFrom, Hidden, hc]
    · rw [List.cons_append, splitFrom, if_neg hc, consFirst_eq_cons_iff (splitFrom_ne_nil _ _ _), ih]
      simp [Hidden, hc, scan]

/-- The pieces of two texts that follow each other are those of the one and those of the other, but for
the two that meet, which become one. -/
theorem splitFrom_append (hs : separator ≠ '"') (start : Quoting) (t u : Text) :
    ∃ init last first tail, splitFrom separator start t = init ++ [last] ∧
      splitFrom separator (scan start t) u = first :: tail ∧
        splitFrom separator start (t ++ u) = init ++ (last ++ first) :: tail := by
  induction t generalizing start with
  | nil =>
    obtain ⟨first, tail, hu⟩ := exists_splitFrom separator start u
    exact ⟨[], [], first, tail, rfl, hu, hu⟩
  | cons c t ih =>
    by_cases hc : start = .outside ∧ c = separator
    · obtain ⟨rfl, rfl⟩ := hc
      have hnext : Quoting.next .outside c = .outside := if_neg hs
      obtain ⟨init, last, first, tail, ht, hu, happend⟩ := ih .outside
      refine ⟨[] :: init, last, first, tail, ?_, ?_, ?_⟩
      · simp [splitFrom, ht]
      · rw [scan, List.foldl_cons, hnext]
        exact hu
      · simp [splitFrom, happend]
    · obtain ⟨init, last, first, tail, ht, hu, happend⟩ := ih (start.next c)
      cases init with
      | nil => exact ⟨[], c :: last, first, tail, by simp [splitFrom, hc, ht, Pieces.consFirst], hu,
          by simp [splitFrom, hc, happend, Pieces.consFirst]⟩
      | cons piece init => exact ⟨(c :: piece) :: init, last, first, tail,
          by simp [splitFrom, hc, ht, Pieces.consFirst], hu,
          by simp [splitFrom, hc, happend, Pieces.consFirst]⟩

/-- What stands before a text without showing a separator or a quote goes with the first piece. -/
theorem splitUnquoted_append {lead first : Text} {rest : List Text} (hs : separator ∉ lead)
    (hq : '"' ∉ lead) (h : t.splitUnquoted separator = first :: rest) :
    (lead ++ t).splitUnquoted separator = (lead ++ first) :: rest := by
  induction lead with
  | nil => exact h
  | cons c lead ih =>
    rw [List.mem_cons, not_or] at hs hq
    have hnext : Quoting.next .outside c = .outside := if_neg (Ne.symm hq.1)
    rw [List.cons_append, splitUnquoted, splitFrom, if_neg fun hc => hs.1 hc.2.symm, hnext,
      ← splitUnquoted, ih hs.2 hq.2]
    rfl

theorem ne_of_isBlank {d : Char} (h : isBlank c = true) (hd : isBlank d = false) : c ≠ d := by
  rintro rfl
  simp [h] at hd

theorem map_trim_splitUnquoted_cons (hs : isBlank separator = false) (hc : isBlank c = true) (t : Text) :
    (splitUnquoted separator (c :: t)).map trim = (t.splitUnquoted separator).map trim := by
  obtain ⟨first, rest, hsplit⟩ := exists_splitUnquoted separator t
  have happend : splitUnquoted separator ([c] ++ t) = ([c] ++ first) :: rest :=
    splitUnquoted_append (by simpa using (ne_of_isBlank hc hs).symm)
      (by simpa using (ne_of_isBlank hc (d := '"') rfl).symm) hsplit
  rw [List.singleton_append] at happend
  simp [happend, hsplit, trim_cons hc]

theorem map_trim_splitUnquoted_concat (hs : isBlank separator = false) (hq : separator ≠ '"')
    (hc : isBlank c = true) (t : Text) :
    (splitUnquoted separator (t ++ [c])).map trim = (t.splitUnquoted separator).map trim := by
  have hone (start : Quoting) : splitFrom separator start [c] = [[c]] := by
    simp [splitFrom, ne_of_isBlank hc hs, Pieces.consFirst]
  obtain ⟨init, last, first, rest, ht, hu, hmeet⟩ := splitFrom_append hq .outside t [c]
  rw [hone] at hu
  obtain ⟨rfl, rfl⟩ := List.cons.inj hu
  simp [splitUnquoted, hmeet, ht, trim_concat hc]

/-- Blanks around a text end up around its first piece and its last. -/
theorem map_trim_splitUnquoted_trim (hs : isBlank separator = false) (hq : separator ≠ '"') (t : Text) :
    (t.trim.splitUnquoted separator).map trim = (t.splitUnquoted separator).map trim := by
  have hstart (t : Text) :
      (t.trimStart.splitUnquoted separator).map trim = (t.splitUnquoted separator).map trim := by
    induction t with
    | nil => rfl
    | cons c rest ih =>
      by_cases hc : isBlank c = true
      · rw [map_trim_splitUnquoted_cons hs hc, ← ih]
        simp [trimStart, hc]
      · simp [trimStart, hc]
  have hend (t : Text) :
      (t.trimEnd.splitUnquoted separator).map trim = (t.splitUnquoted separator).map trim := by
    induction t using List.reverseRecOn with
    | nil => rfl
    | append_singleton t c ih =>
      by_cases hc : isBlank c = true
      · rw [map_trim_splitUnquoted_concat hs hq hc, ← ih]
        simp [trimEnd, hc]
      · simp [trimEnd, hc]
  rw [trim, hend, hstart]

theorem splitUnquoted_join_iff (separator : Char) (pieces : List Text) :
    (join [separator] pieces).splitUnquoted separator = pieces ↔ Parted separator pieces := by
  induction pieces with
  | nil => simp [splitUnquoted, Parted, splitFrom_ne_nil]
  | cons piece rest ih =>
    cases rest with
    | nil => simpa [join, Parted, splitUnquoted] using splitFrom_eq_singleton_iff .outside piece
    | cons next rest =>
      rw [join_cons_cons, List.append_assoc, List.singleton_append, splitUnquoted,
        splitFrom_append_iff, ← splitUnquoted, ih]
      rfl

theorem parted_splitUnquoted (separator : Char) (t : Text) :
    Parted separator (t.splitUnquoted separator) := by
  rw [← splitUnquoted_join_iff, join_splitUnquoted]

end HttpSession.Text

-- ---------------------------------------------------------------------------
-- Pieces of what was joined
-- ---------------------------------------------------------------------------

namespace HttpSession.Pieces

variable {α : Type} [DecidableEq α] {separator : α} {l rest first : List α} {others : List (List α)}

theorem split_append_of_not_mem (h : separator ∉ l) (hr : split separator rest = first :: others) :
    split separator (l ++ rest) = (l ++ first) :: others := by
  induction l with
  | nil => exact hr
  | cons a l ih =>
    rw [List.mem_cons, not_or] at h
    rw [List.cons_append, split, if_neg (Ne.symm h.1), ih h.2]
    rfl

theorem split_of_not_mem (h : separator ∉ l) : split separator l = [l] := by
  have hnil : split separator (l ++ []) = [l ++ []] := split_append_of_not_mem h rfl
  rwa [List.append_nil] at hnil

theorem split_append_cons (h : separator ∉ l) (rest : List α) :
    split separator (l ++ separator :: rest) = l :: split separator rest := by
  have hcut : split separator (separator :: rest) = [] :: split separator rest := if_pos rfl
  rw [split_append_of_not_mem h hcut, List.append_nil]

end HttpSession.Pieces

namespace HttpSession.Text

theorem length_pieces (separator : Char) (t : Text) :
    (t.pieces separator).length = t.count separator + 1 := by
  induction t with
  | nil => rfl
  | cons c rest ih =>
    unfold Text.pieces at ih ⊢
    obtain ⟨first, others, hs⟩ := List.exists_cons_of_ne_nil (Pieces.split_ne_nil separator rest)
    rw [hs] at ih
    by_cases hc : c = separator
    · subst hc
      rw [Pieces.split, if_pos rfl, hs, List.length_cons, ih, List.count_cons_self]
    · rw [Pieces.split, if_neg hc, hs, List.count_cons_of_ne hc]
      exact ih

theorem pieces_append_cons (c : Char) (t u : Text) :
    pieces c (t ++ c :: u) = t.pieces c ++ u.pieces c := by
  induction t with
  | nil => exact if_pos rfl
  | cons d rest ih =>
    unfold Text.pieces at ih ⊢
    rw [List.cons_append, Pieces.split, Pieces.split, ih]
    split
    · rfl
    · obtain ⟨first, others, hrest⟩ := List.exists_cons_of_ne_nil (Pieces.split_ne_nil c rest)
      rw [hrest]
      rfl

theorem forall_mem_join {P : Char → Prop} {separator : Text} {pieces : List Text}
    (hs : ∀ c ∈ separator, P c) (h : ∀ piece ∈ pieces, ∀ c ∈ piece, P c) :
    ∀ c ∈ join separator pieces, P c := by
  cases pieces with
  | nil => exact fun c hc => absurd hc List.not_mem_nil
  | cons piece rest =>
    intro c hc
    rw [join_cons, List.mem_append, List.mem_flatMap] at hc
    rcases hc with hc | ⟨t, ht, hc⟩
    · exact h piece List.mem_cons_self c hc
    · rcases List.mem_append.mp hc with hc | hc
      · exact hs c hc
      · exact h t (List.mem_cons_of_mem _ ht) c hc

theorem not_mem_join {c : Char} {separator : Text} {pieces : List Text} (hs : c ∉ separator)
    (h : ∀ piece ∈ pieces, c ∉ piece) : c ∉ join separator pieces := by
  have hother : ∀ d ∈ join separator pieces, d ≠ c :=
    forall_mem_join (fun d hd heq => hs (heq ▸ hd)) fun piece hpiece d hd heq => h piece hpiece (heq ▸ hd)
  exact fun hc => hother c hc rfl

theorem isInfix_join {separator piece : Text} {pieces : List Text} (h : piece ∈ pieces) :
    piece <:+: join separator pieces := by
  cases pieces with
  | nil => cases h
  | cons first rest =>
    rw [join_cons]
    rcases List.mem_cons.mp h with rfl | h
    · exact ⟨[], _, rfl⟩
    · obtain ⟨before, after, rfl⟩ := List.append_of_mem h
      exact ⟨first ++ before.flatMap (separator ++ ·) ++ separator, after.flatMap (separator ++ ·), by simp⟩

theorem mem_of_mem_splitUnquoted {c separator : Char} {t piece : Text}
    (hp : piece ∈ t.splitUnquoted separator) (hc : c ∈ piece) : c ∈ t := by
  rw [← join_splitUnquoted separator t]
  exact (isInfix_join hp).subset hc

theorem pieces_join {separator : Char} {pieces : List Text} (hne : pieces ≠ [])
    (h : ∀ piece ∈ pieces, separator ∉ piece) : (join [separator] pieces).pieces separator = pieces := by
  induction pieces with
  | nil => exact absurd rfl hne
  | cons piece rest ih =>
    have hpiece := h piece List.mem_cons_self
    cases rest with
    | nil =>
      have hjoin : join [separator] [piece] = piece := by simp [join]
      rw [hjoin, Text.pieces, Pieces.split_of_not_mem hpiece]
    | cons next rest =>
      rw [join_cons_cons, List.append_assoc, List.singleton_append, Text.pieces,
        Pieces.split_append_cons hpiece, ← Text.pieces,
        ih (List.cons_ne_nil _ _) fun p hp => h p (List.mem_cons_of_mem _ hp)]

/-- Words with a blank between each and the next are found again. -/
theorem words_join {ws : List Text} (hne : ws ≠ [])
    (h : ∀ word ∈ ws, word ≠ [] ∧ ∀ c ∈ word, isBlank c = false) : words (join [' '] ws) = ws := by
  have hmark : (join [' '] ws).map (fun c => if isBlank c then ' ' else c) = join [' '] ws := by
    refine (List.map_congr_left ?_).trans (List.map_id _)
    refine forall_mem_join (by simp [isBlank]) fun word hword c hc => ?_
    simp [(h word hword).2 c hc]
  have hspace : ∀ word ∈ ws, ' ' ∉ word := fun word hword hc =>
    absurd ((h word hword).2 ' ' hc) (by decide)
  rw [words, hmark, pieces_join hne hspace, List.filter_eq_self]
  exact fun word hword => decide_eq_true (h word hword).1

end HttpSession.Text
