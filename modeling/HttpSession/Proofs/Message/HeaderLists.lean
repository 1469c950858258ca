import HttpSession.Auth.Challenge
import HttpSession.Cookie.Element
import HttpSession.Proofs.ExceptLaws
import HttpSession.Proofs.Text.Cuts

/-!
# Lists in header values

Cookies and parameters stand between commas, the attributes of a cookie between semicolons, and quotes hide
both. Every list is cut where its separator stands bare in the whole value, and each of its elements is read
as it would be read alone.

Main statement: `separated_nested`.
-/

namespace HttpSession

open Text (Bare cuts innerCuts)

variable {separator : Char}

-- ---------------------------------------------------------------------------
-- Separated texts
-- ---------------------------------------------------------------------------

/-- What it means for a text to be cut at its bare separators: the pieces give it back, none of them shows
the separator by its own quotes, and they meet at exactly the bare places of the text. -/
structure Separated (separator : Char) (t : Text) (pieces : List Text) : Prop where
  joined : Text.join [separator] pieces = t
  hidden : ∀ piece ∈ pieces, ∀ i, ¬ Bare separator .outside piece i
  places : ∀ i, i ∈ cuts pieces ↔ Bare separator .outside t i

theorem separated_splitUnquoted (hs : separator ≠ '"') (t : Text) :
    Separated separator t (t.splitUnquoted separator) where
  joined := Text.join_splitUnquoted separator t
  hidden _ hp := Text.hidden_iff_forall_not_bare.mp (Text.hidden_of_mem_splitUnquoted hp)
  places _ := Text.mem_cuts_splitUnquoted_iff hs

-- ---------------------------------------------------------------------------
-- Elements alone
-- ---------------------------------------------------------------------------

theorem Cookie.Element.readAll_eq (t : Text) :
    readAll t = ((t.splitUnquoted ',').mapM readAll).map List.flatten := by
  have hkept : (t.splitUnquoted ',').filter (·.trim ≠ []) =
      (t.splitUnquoted ',').flatMap fun piece => [piece].filter (·.trim ≠ []) := by
    rw [← List.filter_flatMap, List.flatMap_singleton']
  have halone : ∀ piece ∈ t.splitUnquoted ',',
      readAll piece = ([piece].filter (·.trim ≠ [])).mapM read :=
    fun piece hp => by rw [readAll, Text.splitUnquoted_of_mem hp]
  rw [readAll, hkept, mapM_flatMap halone]

theorem Auth.Challenge.readParams_eq_flatten (t : Text) :
    readParams t = ((t.splitUnquoted ',').mapM readParams).map List.flatten := by
  have hkept : ((t.splitUnquoted ',').map Text.trim).filter (· ≠ []) =
      (t.splitUnquoted ',').flatMap fun piece => ([piece].map Text.trim).filter (· ≠ []) := by
    rw [← List.filter_flatMap, ← List.map_flatMap, List.flatMap_singleton']
  have halone : ∀ piece ∈ t.splitUnquoted ',',
      readParams piece = (([piece].map Text.trim).filter (· ≠ [])).mapM readParam :=
    fun piece hp => by rw [readParams, Text.splitUnquoted_of_mem hp]
  rw [readParams, hkept, mapM_flatMap halone]

-- ---------------------------------------------------------------------------
-- Lists of lists
-- ---------------------------------------------------------------------------

/-- A text is cut at its bare separators, by a scan whose every slice is a part of the text. A header value
that is cut at commas and whose elements are cut at semicolons is cut at its own bare commas and at its own
bare semicolons; and the elements of a cookie header, as the parameters of a challenge, are those that are
read from each piece alone. -/
theorem separated_nested {separator : Char} (hs : separator ≠ '"') (t : Text) :
    Separated separator t (t.splitUnquoted separator) ∧
      t.slices? separator = some (t.splitUnquoted separator) ∧
      (∀ i, i ∈ cuts (t.splitUnquoted ',') ↔ Bare ',' .outside t i) ∧
      (∀ i, i ∈ innerCuts ';' (t.splitUnquoted ',') ↔ Bare ';' .outside t i) ∧
      Cookie.Element.readAll t = ((t.splitUnquoted ',').mapM Cookie.Element.readAll).map List.flatten ∧
      Auth.Challenge.readParams t =
        ((t.splitUnquoted ',').mapM Auth.Challenge.readParams).map List.flatten :=
  ⟨separated_splitUnquoted hs t, Text.slices?_eq hs t,
    fun _ => Text.mem_cuts_splitUnquoted_iff (by decide),
    fun _ => Text.mem_innerCuts_splitUnquoted_iff (by decide) (by decide) (by decide),
    Cookie.Element.readAll_eq t, Auth.Challenge.readParams_eq_flatten t⟩

def hiddenList : Text := "é=\"x,\\\";y\";p,q;r"

theorem separated_nested_hidden :
    ',' ≠ '"' ∧ hiddenList.slices? ',' = some ["é=\"x,\\\";y\";p".toList, "q;r".toList] ∧
      cuts (hiddenList.splitUnquoted ',') = [12] ∧ innerCuts ';' (hiddenList.splitUnquoted ',') = [10, 14] ∧
      (∀ i, i = 12 ↔ Bare ',' .outside hiddenList i) ∧
      (∀ i, i = 10 ∨ i = 14 ↔ Bare ';' .outside hiddenList i) ∧
      Cookie.Element.readAll hiddenList =
        .ok [⟨"é".toList, "\"x,\\\";y\"".toList, [⟨"p".toList, none⟩]⟩,
          ⟨"q".toList, [], [⟨"r".toList, none⟩]⟩] := by
  have hpieces : hiddenList.splitUnquoted ',' = ["é=\"x,\\\";y\";p".toList, "q;r".toList] := by decide
  have hcuts : cuts (hiddenList.splitUnquoted ',') = [12] := by decide
  have hinner : innerCuts ';' (hiddenList.splitUnquoted ',') = [10, 14] := by decide
  obtain ⟨-, hslices, hcommas, hsemicolons, hread, -⟩ :=
    separated_nested (by decide : ',' ≠ '"') hiddenList
  rw [hpieces] at hslices
  refine ⟨by decide, hslices, hcuts, hinner, fun i => ?_, fun i => ?_, ?_⟩
  · rw [← hcommas, hcuts, List.mem_singleton]
  · rw [← hsemicolons, hinner, List.mem_cons, List.mem_singleton]
  · rw [hread, hpieces]
    rfl

end HttpSession
