import HttpSession.Auth.Challenge
import HttpSession.Proofs.ExceptLaws
import HttpSession.Proofs.Text.Laws

/-!
# Parameters, written and read

A directive is written as a name and a value, bare or between quotes, but nothing in the value is
escaped. A reader cuts directives at the commas outside quotes and takes quotes and escapes off.

Main statement: directives are read back as they were written exactly if no quoted value has a backslash
or a comma behind an odd number of quotes, nor, but for the last one, an odd number of quotes
(`readParams_join_iff`).
-/

namespace HttpSession

-- ---------------------------------------------------------------------------
-- Tokens
-- ---------------------------------------------------------------------------

theorem toNat_of_isTokenChar {c : Char} (h : isTokenChar c = true) : 0x20 < c.toNat ∧ c.toNat < 0x7F := by
  rw [isTokenChar, Bool.or_eq_true] at h
  rcases h with h | h
  · simp only [Char.isAlphanum, Char.isAlpha, Char.isUpper, Char.isLower, Char.isDigit, Bool.or_eq_true,
      Bool.and_eq_true, decide_eq_true_eq, UInt32.le_iff_toNat_le, ge_iff_le] at h
    change ((65 ≤ c.toNat ∧ c.toNat ≤ 90) ∨ (97 ≤ c.toNat ∧ c.toNat ≤ 122)) ∨
      (48 ≤ c.toNat ∧ c.toNat ≤ 57) at h
    omega
  · have hall : ∀ d ∈ ("!#$%&'*+-.^_\x60|~" : String).toList, 0x20 < d.toNat ∧ d.toNat < 0x7F := by
      simp
    exact hall c (by simpa using h)

theorem isBlank_of_isTokenChar {c : Char} (h : isTokenChar c = true) : Text.isBlank c = false := by
  obtain ⟨hlow, hhigh⟩ := toNat_of_isTokenChar h
  simp only [Text.isBlank, Bool.or_eq_false_iff, Bool.and_eq_false_iff, decide_eq_false_iff_not]
  omega

def IsToken (t : Text) : Prop := t ≠ [] ∧ t.all isTokenChar = true

instance (t : Text) : Decidable (IsToken t) := inferInstanceAs (Decidable (t ≠ [] ∧ _))

namespace IsToken

variable {t : Text} {c : Char}

theorem isTokenChar (h : IsToken t) (hc : c ∈ t) : isTokenChar c = true := List.all_eq_true.mp h.2 c hc

theorem not_mem (h : IsToken t) (hc : HttpSession.isTokenChar c = false) : c ∉ t := fun hm => by
  rw [h.isTokenChar hm] at hc
  cases hc

theorem no_comma (h : IsToken t) : ',' ∉ t := h.not_mem (by decide)

theorem no_quote (h : IsToken t) : '"' ∉ t := h.not_mem (by decide)

theorem no_backslash (h : IsToken t) : '\\' ∉ t := h.not_mem (by decide)

theorem no_equals (h : IsToken t) : '=' ∉ t := h.not_mem (by decide)

theorem not_blank (h : IsToken t) (hc : c ∈ t) : Text.isBlank c = false :=
  isBlank_of_isTokenChar (h.isTokenChar hc)

theorem trim_eq (h : IsToken t) : t.trim = t :=
  Text.trim_eq_self (fun _ hc => h.not_blank (List.mem_of_head? hc))
    fun _ hc => h.not_blank (List.mem_of_getLast? hc)

end IsToken

namespace Auth

-- ---------------------------------------------------------------------------
-- Directives
-- ---------------------------------------------------------------------------

/-- Whether a value is found again between quotes that are put around it: there is no backslash in it,
and no comma behind an odd number of quotes. -/
def QuoteSafe (value : Text) : Prop := '\\' ∉ value ∧ Text.Hidden ',' .inside value

/-- Whether a scan that enters a value between quotes is between quotes at its end: without backslashes,
whether its own quotes are in pairs. -/
def QuoteBalanced (value : Text) : Prop := Text.scan .inside value = .inside

instance (value : Text) : Decidable (QuoteSafe value) := inferInstanceAs (Decidable (_ ∧ _))

instance (value : Text) : Decidable (QuoteBalanced value) := inferInstanceAs (Decidable (_ = _))

theorem quoteSafe_of_isToken {value : Text} (h : IsToken value) : QuoteSafe value :=
  ⟨h.no_backslash, Text.hidden_of_not_mem h.no_comma _⟩

theorem quoteBalanced_of_isToken {value : Text} (h : IsToken value) : QuoteBalanced value :=
  Text.scan_inside_of_not_mem h.no_quote h.no_backslash

structure Directive where
  name : Text
  value : Text
  isQuoted : Bool
  deriving DecidableEq, Repr

namespace Directive

def written (d : Directive) : Text := if d.isQuoted then '"' :: (d.value ++ ['"']) else d.value

def text (d : Directive) : Text := d.name ++ '=' :: d.written

def param (d : Directive) : Text × Text := (d.name, d.value)

/-- Names are tokens in lower case, and so are bare values, but for their case. -/
structure Sound (d : Directive) : Prop where
  name : IsToken d.name
  lower : d.name.lower = d.name
  bare : d.isQuoted = false → IsToken d.value

def IsRecoverable (d : Directive) : Prop := d.isQuoted = true → QuoteSafe d.value

def IsBalanced (d : Directive) : Prop := d.isQuoted = true → QuoteBalanced d.value

variable {d : Directive}

theorem count_written (d : Directive) : d.written.count ',' = d.value.count ',' := by
  unfold written
  split <;> simp [List.count_append]

theorem Sound.written_eq (hd : d.Sound) :
    Challenge.readValue d.written.trim = if d.isQuoted then d.value.unescape else d.value := by
  unfold written
  split
  · have htrim : Text.trim ('"' :: (d.value ++ ['"'])) = '"' :: (d.value ++ ['"']) :=
      Text.trim_eq_self (by simp; decide) (by simp [List.getLast?_cons]; decide)
    rw [htrim, Challenge.readValue, Text.quoted?_eq_some_iff.mpr rfl]
  · rename_i hbare
    have htoken := hd.bare (Bool.eq_false_iff.mpr hbare)
    have hquoted : d.value.quoted? = none := by
      rw [Option.eq_none_iff_forall_not_mem]
      intro inner hinner
      have hmem : '"' ∈ d.value := by
        rw [Text.quoted?_eq_some_iff.mp hinner]
        exact List.mem_cons_self
      exact htoken.no_quote hmem
    rw [htoken.trim_eq, Challenge.readValue, hquoted]

end Directive

namespace Challenge

theorem count_readValue (t : Text) : (readValue t).count ',' = t.count ',' := by
  unfold readValue
  split
  · rename_i inner hinner
    obtain rfl := Text.quoted?_eq_some_iff.mp hinner
    rw [Text.count_unescape (by decide)]
    simp [List.count_append]
  · rfl

/-- One parameter is read from a piece that begins with its name. -/
theorem readParam_piece {d : Directive} (hd : d.Sound) (value : Text) :
    readParam (Text.trim (d.name ++ '=' :: value)) = .ok (d.name, readValue value.trim) := by
  have hname : d.name.trimStart = d.name :=
    Text.trimStart_eq_self_iff.mpr fun _ hc => hd.name.not_blank (List.mem_of_head? hc)
  have hcut : Text.cut? (· = '=') (d.name ++ '=' :: value.trimEnd) = some (d.name, value.trimEnd) := by
    refine Text.cut?_append_cons (fun c hc => ?_) (by simp)
    have hne : c ≠ '=' := fun he => hd.name.no_equals (he ▸ hc)
    simpa using hne
  rw [Text.trim_append_cons (by decide), hname, readParam, hcut]
  simp only [hd.name.trim_eq, if_neg hd.name.1, hd.lower, Text.trimEnd_trim]

def readPieces (pieces : List Text) : Except ChallengeFault (List (Text × Text)) :=
  ((pieces.map Text.trim).filter (· ≠ [])).mapM readParam

theorem readPieces_cons {d : Directive} (hd : d.Sound) (value : Text) (rest : List Text) :
    readPieces ((d.name ++ '=' :: value) :: rest) =
      (readPieces rest).map ((d.name, readValue value.trim) :: ·) := by
  have hne : Text.trim (d.name ++ '=' :: value) ≠ [] := by
    rw [Text.trim_append_cons (by decide)]
    simp
  rw [readPieces, List.map_cons, List.filter_cons_of_pos (by simpa using hne), List.mapM_cons,
    readParam_piece hd, ← readPieces]
  cases readPieces rest <;> rfl

theorem readParams_eq (t : Text) : readParams t = readPieces (t.splitUnquoted ',') := rfl

theorem readParams_space (t : Text) : readParams (' ' :: t) = readParams t := by
  obtain ⟨first, rest, hsplit⟩ := Text.exists_splitUnquoted ',' t
  have hcomma : ',' ∉ [' '] := by simp
  have hquote : '"' ∉ [' '] := by simp
  have hspace : Text.splitUnquoted ',' (' ' :: t) = (' ' :: first) :: rest :=
    Text.splitUnquoted_append hcomma hquote hsplit
  rw [readParams_eq, readParams_eq, hspace, hsplit, readPieces, readPieces, List.map_cons, List.map_cons,
    Text.trim_cons (by decide)]

end Challenge

namespace Directive

variable {d : Directive} {u : Text} {params : List (Text × Text)}

theorem Sound.hidden_iff (hd : d.Sound) :
    Text.Hidden ',' .outside d.text ↔ (d.isQuoted = true → Text.Hidden ',' .inside d.value) := by
  have hlead : Text.Hidden ',' .outside d.text ↔ Text.Hidden ',' .outside d.written := by
    rw [text, Text.hidden_append, Text.scan_of_not_mem hd.name.no_quote]
    simp [Text.hidden_of_not_mem hd.name.no_comma, Text.Hidden, Text.Quoting.next]
  rw [hlead, written]
  cases hq : d.isQuoted with
  | true =>
    rw [if_pos rfl, Text.Hidden, Text.hidden_append]
    simp [Text.Hidden, Text.Quoting.next]
  | false =>
    simp [Text.hidden_of_not_mem (hd.bare hq).no_comma]

theorem Sound.scan_iff (hd : d.Sound) : Text.scan .outside d.text = .outside ↔ d.IsBalanced := by
  have hlead : Text.scan .outside d.text = Text.scan .outside d.written := by
    rw [text, Text.scan_append, Text.scan_of_not_mem hd.name.no_quote]
    rfl
  rw [hlead, written, IsBalanced, QuoteBalanced]
  cases hq : d.isQuoted with
  | true =>
    have hnext : Text.scan .outside ('"' :: (d.value ++ ['"'])) = (Text.scan .inside d.value).next '"' := by
      simp [Text.scan, Text.Quoting.next]
    rw [if_pos rfl, hnext]
    cases Text.scan .inside d.value <;> simp [Text.Quoting.next]
  | false =>
    simp [Text.scan_of_not_mem (hd.bare hq).no_quote]

theorem Sound.isRecoverable_iff (hd : d.Sound) :
    d.IsRecoverable ↔ Text.Hidden ',' .outside d.text ∧ Challenge.readValue d.written.trim = d.value := by
  rw [hd.hidden_iff, hd.written_eq, IsRecoverable]
  cases d.isQuoted <;> simp [QuoteSafe, Text.unescape_eq_self_iff, and_comm]

end Directive

namespace Challenge

variable {d : Directive} {u : Text} {params : List (Text × Text)}

/-- What is cut off first, where a directive stands in front, begins with its name. If it is read as the
value that was written, it is the directive, and nothing else is. -/
theorem readParams_append (hd : d.Sound) (hu : u = [] ∨ ∃ v, u = ',' :: v)
    (h : readParams (d.text ++ u) = .ok params) :
    ∃ value rest pieces, params = (d.name, value) :: rest ∧ readPieces pieces = .ok rest ∧
      (value = d.value → (d.text ++ u).splitUnquoted ',' = d.text :: pieces ∧
        readValue d.written.trim = d.value) := by
  obtain ⟨first, pieces, hsplit⟩ := Text.exists_splitUnquoted ',' (d.written ++ u)
  have hall : (d.text ++ u).splitUnquoted ',' = (d.name ++ '=' :: first) :: pieces := by
    have hcomma : ',' ∉ d.name ++ ['='] := by simp [hd.name.no_comma]
    have hquote : '"' ∉ d.name ++ ['='] := by simp [hd.name.no_quote]
    have hlead := Text.splitUnquoted_append hcomma hquote hsplit
    simpa [Directive.text] using hlead
  rw [readParams_eq, hall, readPieces_cons hd, map_ok_iff] at h
  obtain ⟨rest, hrest, rfl⟩ := h
  refine ⟨_, rest, pieces, rfl, hrest, fun hvalue => ?_⟩
  -- reading takes no comma away, so the piece has as many as the directive
  have hcount : first.count ',' = d.written.count ',' := by
    rw [d.count_written, ← hvalue, count_readValue, Text.count_trim (by decide)]
  have hjoin : Text.join [','] (first :: pieces) = d.written ++ u := by
    rw [← hsplit, Text.join_splitUnquoted]
  obtain rfl := Text.eq_of_join_cons hjoin hu hcount
  exact ⟨hall, hvalue⟩

/-- A directive in front is read as it was written, and what is behind it for itself. -/
theorem readParams_append_of_isRecoverable (hd : d.Sound) (hk : d.IsRecoverable) (hp : d.IsBalanced) :
    readParams (d.text ++ ',' :: u) = (readParams u).map (d.param :: ·) := by
  obtain ⟨hhidden, hread⟩ := hd.isRecoverable_iff.mp hk
  have hsplit : (d.text ++ ',' :: u).splitUnquoted ',' = d.text :: u.splitUnquoted ',' :=
    (Text.splitFrom_append_iff .outside d.text u _).mpr ⟨hhidden, hd.scan_iff.mpr hp, rfl⟩
  rw [readParams_eq, hsplit, Directive.text, readPieces_cons hd, hread]
  rfl

theorem readParams_text_of_isRecoverable (hd : d.Sound) (hk : d.IsRecoverable) :
    readParams d.text = .ok [d.param] := by
  obtain ⟨hhidden, hread⟩ := hd.isRecoverable_iff.mp hk
  have hsplit : d.text.splitUnquoted ',' = [d.text] :=
    (Text.splitFrom_eq_singleton_iff .outside d.text).mpr hhidden
  rw [readParams_eq, hsplit, Directive.text, readPieces_cons hd, hread]
  rfl

/-- Conversely, a directive in front whose value is found was read as it was written. -/
theorem isRecoverable_of_readParams_append (hd : d.Sound)
    (hv : IsToken d.value ∨ params.lookup d.name = some d.value)
    (h : readParams (d.text ++ ',' :: u) = .ok params) :
    d.IsRecoverable ∧ d.IsBalanced := by
  refine hv.elim
    (fun h => ⟨fun _ => quoteSafe_of_isToken h, fun _ => quoteBalanced_of_isToken h⟩) fun hlookup => ?_
  obtain ⟨value, rest, pieces, rfl, -, himp⟩ := readParams_append hd (.inr ⟨u, rfl⟩) h
  obtain rfl : value = d.value := by simpa using hlookup
  obtain ⟨hsplit, hread⟩ := himp rfl
  obtain ⟨hhidden, hscan, -⟩ := (Text.splitFrom_append_iff .outside d.text u _).mp hsplit
  exact ⟨hd.isRecoverable_iff.mpr ⟨hhidden, hread⟩, hd.scan_iff.mp hscan⟩

theorem isRecoverable_of_readParams_text (hd : d.Sound)
    (hv : IsToken d.value ∨ params.lookup d.name = some d.value) (h : readParams d.text = .ok params) :
    d.IsRecoverable := by
  refine hv.elim (fun h _ => quoteSafe_of_isToken h) fun hlookup => ?_
  rw [← List.append_nil d.text] at h
  obtain ⟨value, rest, pieces, rfl, -, himp⟩ := readParams_append hd (.inl rfl) h
  obtain rfl : value = d.value := by simpa using hlookup
  obtain ⟨hsplit, hread⟩ := himp rfl
  have hmem : d.text ∈ (d.text ++ []).splitUnquoted ',' := hsplit ▸ List.mem_cons_self
  exact hd.isRecoverable_iff.mpr ⟨Text.hidden_of_mem_splitUnquoted hmem, hread⟩

end Challenge

-- ---------------------------------------------------------------------------
-- Lists of directives
-- ---------------------------------------------------------------------------

namespace Directive

def join (ds : List Directive) : Text := Text.join ", " (ds.map text)

/-- Whether a reader finds every value that was written. -/
def Legible : List Directive → Prop
  | [] => True
  | [d] => d.IsRecoverable
  | d :: e :: rest => d.IsRecoverable ∧ d.IsBalanced ∧ Legible (e :: rest)

theorem join_singleton (d : Directive) : join [d] = d.text := by simp [join, Text.join]

theorem join_cons_cons (d e : Directive) (rest : List Directive) :
    join (d :: e :: rest) = d.text ++ ',' :: ' ' :: join (e :: rest) := by
  simp [join, Text.join_cons_cons]

theorem mem_join_of_mem_text {ds : List Directive} {d : Directive} {c : Char} (hd : d ∈ ds)
    (hc : c ∈ d.text) : c ∈ join ds := by
  cases ds with
  | nil => cases hd
  | cons e rest =>
    rw [join, List.map_cons, Text.join_cons, List.mem_append]
    rcases List.mem_cons.mp hd with rfl | hd
    · exact .inl hc
    · exact .inr (List.mem_flatMap.mpr ⟨d.text, List.mem_map_of_mem hd, List.mem_append_right _ hc⟩)

theorem Sound.not_blank_first {d : Directive} (hd : d.Sound) (u : Text) {c : Char}
    (hc : (d.text ++ u).head? = some c) : Text.isBlank c = false := by
  obtain ⟨b, name, hname⟩ := List.exists_cons_of_ne_nil hd.name.1
  rw [text, hname] at hc
  obtain rfl := Option.some.inj hc
  exact hd.name.not_blank (hname ▸ List.mem_cons_self)

theorem Sound.not_blank_last {d : Directive} (hd : d.Sound) {c : Char} (hc : d.text.getLast? = some c) :
    Text.isBlank c = false := by
  rw [text, written] at hc
  cases hq : d.isQuoted with
  | true =>
    rw [hq] at hc
    simp [List.getLast?_cons, List.getLast?_append] at hc
    subst hc
    decide
  | false =>
    have htoken := hd.bare hq
    rw [hq, if_neg Bool.false_ne_true, List.getLast?_append_of_ne_nil _ (List.cons_ne_nil _ _),
      List.getLast?_cons_of_ne_nil htoken.1] at hc
    exact htoken.not_blank (List.mem_of_getLast? hc)

theorem not_blank_last_join {ds : List Directive} (hs : ∀ d ∈ ds, d.Sound) {c : Char}
    (hc : (join ds).getLast? = some c) : Text.isBlank c = false := by
  induction ds with
  | nil => cases hc
  | cons d rest ih =>
    cases rest with
    | nil =>
      rw [join_singleton] at hc
      exact (hs d List.mem_cons_self).not_blank_last hc
    | cons e rest =>
      have hne : join (e :: rest) ≠ [] :=
        List.ne_nil_of_mem (mem_join_of_mem_text (c := '=') List.mem_cons_self (by simp [text]))
      rw [join_cons_cons, List.getLast?_append_of_ne_nil _ (List.cons_ne_nil _ _),
        List.getLast?_cons_of_ne_nil (List.cons_ne_nil _ _), List.getLast?_cons_of_ne_nil hne] at hc
      exact ih (fun f hf => hs f (List.mem_cons_of_mem _ hf)) hc

theorem trim_join {ds : List Directive} (hs : ∀ d ∈ ds, d.Sound) : (join ds).trim = join ds := by
  refine Text.trim_eq_self (fun c hc => ?_) fun c hc => not_blank_last_join hs hc
  cases ds with
  | nil => cases hc
  | cons d rest =>
    rw [join, List.map_cons, Text.join_cons] at hc
    exact (hs d List.mem_cons_self).not_blank_first _ hc

variable {ds : List Directive}

theorem lookup_param (hn : (ds.map (·.name)).Nodup) {d : Directive} (hd : d ∈ ds) :
    (ds.map param).lookup d.name = some d.value := by
  induction ds with
  | nil => cases hd
  | cons e rest ih =>
    rw [List.map_cons, List.nodup_cons] at hn
    rcases List.mem_cons.mp hd with rfl | hd
    · simp [param]
    · have hne : d.name ≠ e.name := fun h => hn.1 (h ▸ List.mem_map_of_mem hd)
      rw [List.map_cons, List.lookup_cons, param, beq_eq_false_iff_ne.mpr hne]
      exact ih hn.2 hd

end Directive

namespace Challenge

open Directive (Legible join_singleton join_cons_cons)

variable {ds : List Directive}

theorem readParams_join (hs : ∀ d ∈ ds, d.Sound) (h : Legible ds) :
    readParams (Directive.join ds) = .ok (ds.map Directive.param) := by
  induction ds with
  | nil => rfl
  | cons d rest ih =>
    have hd := hs d List.mem_cons_self
    cases rest with
    | nil => rw [join_singleton, readParams_text_of_isRecoverable hd h]; rfl
    | cons e rest =>
      obtain ⟨hk, hp, hrest⟩ := h
      rw [join_cons_cons, readParams_append_of_isRecoverable hd hk hp, readParams_space,
        ih (fun f hf => hs f (List.mem_cons_of_mem _ hf)) hrest]
      rfl

/-- Directives are read back as they were written, save perhaps those with nothing to hide, exactly if
they are legible. -/
theorem readParams_join_iff (hs : ∀ d ∈ ds, d.Sound) (hn : (ds.map (·.name)).Nodup) :
    (∃ params, readParams (Directive.join ds) = .ok params ∧
      ∀ d ∈ ds, IsToken d.value ∨ params.lookup d.name = some d.value) ↔ Legible ds := by
  constructor
  · rintro ⟨params, hread, hv⟩
    induction ds generalizing params with
    | nil => trivial
    | cons d rest ih =>
      have hd := hs d List.mem_cons_self
      cases rest with
      | nil =>
        rw [join_singleton] at hread
        exact isRecoverable_of_readParams_text hd (hv d List.mem_cons_self) hread
      | cons e rest =>
        rw [join_cons_cons] at hread
        obtain ⟨hk, hp⟩ := isRecoverable_of_readParams_append hd (hv d List.mem_cons_self) hread
        rw [readParams_append_of_isRecoverable hd hk hp, readParams_space, map_ok_iff] at hread
        obtain ⟨params, hrest, rfl⟩ := hread
        rw [List.map_cons, List.nodup_cons] at hn
        refine ⟨hk, hp, ih (fun f hf => hs f (List.mem_cons_of_mem _ hf)) hn.2 params hrest ?_⟩
        intro f hf
        have hne : f.name ≠ d.name := fun h => hn.1 (h ▸ List.mem_map_of_mem hf)
        have hf := hv f (List.mem_cons_of_mem _ hf)
        rwa [List.lookup_cons, Directive.param, beq_eq_false_iff_ne.mpr hne] at hf
  · intro h
    exact ⟨_, readParams_join hs h, fun d hd => .inr (Directive.lookup_param hn hd)⟩

theorem isToken68_eq_false {t : Text} (h : '"' ∈ t) : isToken68 t = false := by
  have hmem : '"' ∈ (t.reverse.dropWhile (· = '=')).reverse := by
    rw [List.mem_reverse, ← List.count_pos_iff, Text.count_dropWhile (by decide), List.count_reverse,
      List.count_pos_iff]
    exact h
  rw [isToken68, Bool.and_eq_false_iff]
  refine .inr (List.all_eq_false.mpr ⟨'"', hmem, by decide⟩)

/-- Behind the name of a scheme, directives are read as parameters. -/
theorem read_join {scheme : Text} (side : Side) (hscheme : IsToken scheme) (hs : ∀ d ∈ ds, d.Sound)
    (hq : ∃ d ∈ ds, d.isQuoted = true) :
    Challenge.read side (scheme ++ ' ' :: Directive.join ds) =
      (readParams (Directive.join ds)).map fun params => { side, scheme := scheme.lower, params } := by
  obtain ⟨d, hd, hquoted⟩ := hq
  have hquote : '"' ∈ Directive.join ds := Directive.mem_join_of_mem_text hd
    (by simp [Directive.text, Directive.written, hquoted])
  have hne := List.ne_nil_of_mem hquote
  have htrim := Directive.trim_join hs
  have hall : Text.trim (scheme ++ ' ' :: Directive.join ds) = scheme ++ ' ' :: Directive.join ds := by
    refine Text.trim_eq_self (fun c hc => ?_) fun c hc => ?_
    · rw [List.head?_append_of_ne_nil _ hscheme.1] at hc
      exact hscheme.not_blank (List.mem_of_head? hc)
    · rw [List.getLast?_append_of_ne_nil _ (List.cons_ne_nil _ _),
        List.getLast?_cons_of_ne_nil hne] at hc
      exact Directive.not_blank_last_join hs hc
  have hcut : Text.cut? Text.isBlank (scheme ++ ' ' :: Directive.join ds) =
      some (scheme, Directive.join ds) :=
    Text.cut?_append_cons (fun c hc => hscheme.not_blank hc) (by decide)
  have htoken : ¬ (scheme = [] ∨ ¬ scheme.all isTokenChar = true) := by
    simpa [IsToken] using hscheme
  simp only [Challenge.read, hall, hcut, htrim, if_neg htoken, if_neg hne, isToken68_eq_false hquote]
  rfl

end Challenge

end Auth

end HttpSession
