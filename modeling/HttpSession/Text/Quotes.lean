import HttpSession.Text.Basic

/-!
# Quotes

Header values hide separators inside double quotes, where a backslash in turn hides the next
character. `scan` says where a text stands after each character, `splitUnquoted` cuts where it stands
outside, and `unquote` and `unescape` take the quotes off again.

Main statements: joining the pieces gives the text back (`join_splitUnquoted`), and no piece shows
the separator outside quotes (`hidden_of_mem_splitUnquoted`).
-/

namespace HttpSession.Text

/-- Where a scan stands: outside quotes, inside them, or inside them behind a backslash. -/
inductive Quoting
  | outside
  | inside
  | escaped
  deriving DecidableEq, Repr

def Quoting.next : Quoting → Char → Quoting
  | .escaped, _ => .inside
  | .inside, c => if c = '\\' then .escaped else if c = '"' then .outside else .inside
  | .outside, c => if c = '"' then .inside else .outside

def scan (start : Quoting) (t : Text) : Quoting := t.foldl Quoting.next start

/-- Cuts at the separators that stand outside quotes, for a scan that stands at `start`. -/
def splitFrom (separator : Char) : Quoting → Text → List Text
  | _, [] => [[]]
  | start, c :: rest =>
    if start = .outside ∧ c = separator then [] :: splitFrom separator .outside rest
    else Pieces.consFirst c (splitFrom separator (start.next c) rest)

def splitUnquoted (separator : Char) (t : Text) : List Text := splitFrom separator .outside t

/-- Every separator of the text stands inside quotes, for a scan that stands at `start`. -/
def Hidden (separator : Char) : Quoting → Text → Prop
  | _, [] => True
  | start, c :: rest => ¬ (start = .outside ∧ c = separator) ∧ Hidden separator (start.next c) rest

theorem splitFrom_ne_nil (separator : Char) (start : Quoting) (t : Text) :
    splitFrom separator start t ≠ [] := by
  cases t with
  | nil => simp [splitFrom]
  | cons c rest =>
    by_cases h : start = .outside ∧ c = separator
    · simp [splitFrom, h]
    · cases hs : splitFrom separator (start.next c) rest <;> simp [splitFrom, h, hs, Pieces.consFirst]

theorem join_splitFrom (separator : Char) (start : Quoting) (t : Text) :
    join [separator] (splitFrom separator start t) = t := by
  induction t generalizing start with
  | nil => rfl
  | cons c rest ih =>
    by_cases h : start = .outside ∧ c = separator
    · have ih := ih .outside
      cases hs : splitFrom separator .outside rest with
      | nil => exact absurd hs (splitFrom_ne_nil _ _ _)
      | cons first others =>
        simp only [hs, join] at ih
        simp only [splitFrom, h, and_self, if_true, hs, join]
        cases others <;> simp_all [List.intercalate]
    · have ih := ih (start.next c)
      cases hs : splitFrom separator (start.next c) rest with
      | nil => exact absurd hs (splitFrom_ne_nil _ _ _)
      | cons first others =>
        simp only [hs, join] at ih
        simp only [splitFrom, h, if_false, hs, Pieces.consFirst, join]
        cases others <;> simp_all [List.intercalate]

theorem join_splitUnquoted (separator : Char) (t : Text) :
    join [separator] (t.splitUnquoted separator) = t :=
  join_splitFrom separator .outside t

private theorem hidden_splitFrom (separator : Char) (start : Quoting) (t : Text) :
    ∃ first others, splitFrom separator start t = first :: others ∧ Hidden separator start first ∧
      ∀ piece ∈ others, Hidden separator .outside piece := by
  induction t generalizing start with
  | nil => exact ⟨[], [], rfl, trivial, by simp⟩
  | cons c rest ih =>
    by_cases h : start = .outside ∧ c = separator
    · obtain ⟨first, others, hs, hf, ho⟩ := ih .outside
      refine ⟨[], first :: others, by simp [splitFrom, h, hs], trivial, ?_⟩
      intro piece hp
      rcases List.mem_cons.mp hp with rfl | hp
      · exact hf
      · exact ho piece hp
    · obtain ⟨first, others, hs, hf, ho⟩ := ih (start.next c)
      exact ⟨c :: first, others, by simp [splitFrom, h, hs, Pieces.consFirst], ⟨h, hf⟩, ho⟩

theorem hidden_of_mem_splitUnquoted {separator : Char} {t piece : Text}
    (h : piece ∈ t.splitUnquoted separator) : Hidden separator .outside piece := by
  obtain ⟨first, others, hs, hf, ho⟩ := hidden_splitFrom separator .outside t
  rw [splitUnquoted, hs] at h
  rcases List.mem_cons.mp h with rfl | h
  · exact hf
  · exact ho piece h

def quoted? (t : Text) : Option Text := (t.after? ['"']).bind (·.before? ['"'])

def unquote (t : Text) : Text := t.quoted?.getD t

/-- Reads a backslash and the character behind it as that character; a last backslash stands for
nothing. -/
def unescape : Text → Text
  | [] => []
  | ['\\'] => []
  | c :: d :: rest => if c = '\\' then d :: unescape rest else c :: unescape (d :: rest)
  | [c] => [c]

end HttpSession.Text
