import HttpSession.Proofs.Text.Laws

/-!
# Bodies of quotes

What may stand between quotes: as long as the quotes in it stand behind backslashes, a scan that enters
it inside quotes leaves it inside quotes, whatever separators it shows. Every text has a body that stands
for it (`unescape_escape`), so any text can be put between quotes (`isBody_escape`).
-/

namespace HttpSession.Text

def quote (t : Text) : Text := '"' :: (t ++ ['"'])

/-- What may stand between quotes: no quote but behind a backslash, and something behind every
backslash. -/
inductive IsBody : Text → Prop
  | nil : IsBody []
  | plain {c : Char} {rest : Text} (hquote : c ≠ '"') (hbackslash : c ≠ '\\') (hrest : IsBody rest) :
    IsBody (c :: rest)
  | escaped {c : Char} {rest : Text} (hrest : IsBody rest) : IsBody ('\\' :: c :: rest)

def escape (t : Text) : Text := t.flatMap fun c => if c = '"' ∨ c = '\\' then ['\\', c] else [c]

/-- Whether a text shows no separator outside quotes and leaves none open. -/
structure Closed (separator : Char) (t : Text) : Prop where
  hidden : Hidden separator .outside t
  scan : scan .outside t = .outside

section
variable {separator c : Char} {t u : Text} {pieces : List Text}

theorem IsBody.of_not_mem (hquote : '"' ∉ t) (hbackslash : '\\' ∉ t) : IsBody t := by
  induction t with
  | nil => exact .nil
  | cons c rest ih =>
    rw [List.mem_cons, not_or] at hquote hbackslash
    exact .plain (Ne.symm hquote.1) (Ne.symm hbackslash.1) (ih hquote.2 hbackslash.2)

theorem hidden_inside_cons {start : Quoting} (hs : start ≠ .outside) :
    Hidden separator start (c :: t) ↔ Hidden separator (start.next c) t :=
  and_iff_right fun h => hs h.1

theorem IsBody.hidden_and_scan (separator : Char) (h : IsBody t) :
    Hidden separator .inside t ∧ Text.scan .inside t = .inside := by
  induction h with
  | nil => exact ⟨trivial, rfl⟩
  | @plain c rest hquote hbackslash _ ih =>
    have hnext : Quoting.next .inside c = .inside := by
      rw [Quoting.next, if_neg hbackslash, if_neg hquote]
    rw [hidden_inside_cons (by decide), Text.scan, List.foldl_cons, hnext]
    exact ih
  | @escaped c rest _ ih =>
    rw [hidden_inside_cons (by decide), Text.scan, List.foldl_cons]
    show Hidden separator .escaped (c :: rest) ∧ _
    rw [hidden_inside_cons (by decide)]
    exact ih

theorem Closed.of_not_mem (hs : separator ∉ t) (hq : '"' ∉ t) : Closed separator t :=
  ⟨hidden_of_not_mem hs _, scan_of_not_mem hq⟩

theorem Closed.append (ht : Closed separator t) (hu : Closed separator u) : Closed separator (t ++ u) := by
  refine ⟨hidden_append.mpr ⟨ht.hidden, ?_⟩, ?_⟩
  · rw [ht.scan]
    exact hu.hidden
  · rw [scan_append, ht.scan, hu.scan]

theorem Closed.quote (hs : separator ≠ '"') (h : IsBody t) : Closed separator (quote t) := by
  obtain ⟨hhidden, hscan⟩ := h.hidden_and_scan separator
  refine ⟨⟨fun hc => hs hc.2.symm, hidden_append.mpr ⟨hhidden, ?_⟩⟩, ?_⟩
  · show Hidden separator (Text.scan .inside t) ['"']
    rw [hscan]
    exact ⟨nofun, trivial⟩
  · show Text.scan .inside (t ++ ['"']) = .outside
    rw [scan_append, hscan]
    rfl

theorem parted_of_closed (hne : pieces ≠ []) (h : ∀ piece ∈ pieces, Closed separator piece) :
    Parted separator pieces := by
  induction pieces with
  | nil => exact absurd rfl hne
  | cons piece rest ih =>
    have hpiece := h piece List.mem_cons_self
    cases rest with
    | nil => exact hpiece.hidden
    | cons next rest =>
      exact ⟨hpiece.hidden, hpiece.scan,
        ih (List.cons_ne_nil _ _) fun p hp => h p (List.mem_cons_of_mem _ hp)⟩

theorem trim_quote (t : Text) : (quote t).trim = quote t := by
  refine trim_eq_self (fun c hc => ?_) fun c hc => ?_
  · obtain rfl := Option.some.inj hc
    rfl
  · rw [quote, ← List.cons_append, List.getLast?_concat] at hc
    obtain rfl := Option.some.inj hc
    rfl

theorem escape_cons_special (hc : c = '"' ∨ c = '\\') (t : Text) :
    escape (c :: t) = '\\' :: c :: escape t := by
  simp [escape, hc]

theorem escape_cons_plain (hquote : c ≠ '"') (hbackslash : c ≠ '\\') (t : Text) :
    escape (c :: t) = c :: escape t := by
  simp [escape, hquote, hbackslash]

theorem unescape_cons_plain (hbackslash : c ≠ '\\') (t : Text) : unescape (c :: t) = c :: unescape t := by
  cases t <;> simp [unescape, hbackslash]

theorem unescape_escape (t : Text) : t.escape.unescape = t := by
  induction t with
  | nil => rfl
  | cons c rest ih =>
    by_cases hc : c = '"' ∨ c = '\\'
    · rw [escape_cons_special hc, unescape, if_pos rfl, ih]
    · rw [not_or] at hc
      rw [escape_cons_plain hc.1 hc.2, unescape_cons_plain hc.2, ih]

theorem isBody_escape (t : Text) : IsBody t.escape := by
  induction t with
  | nil => exact .nil
  | cons c rest ih =>
    by_cases hc : c = '"' ∨ c = '\\'
    · rw [escape_cons_special hc]
      exact .escaped ih
    · rw [not_or] at hc
      rw [escape_cons_plain hc.1 hc.2]
      exact .plain hc.1 hc.2 ih

end

end HttpSession.Text
