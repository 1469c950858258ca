import HttpSession.Proofs.Cookie.FileLaws

/-!
# Warnings do not show values

Two cookie files that differ in nothing but values are told apart by no warning and by no error. A value
is what stands behind the sixth tab of a line, less the blanks at its end; it may hold more tabs, and then
only their number shows.

Main statement: such files are read with the same warnings, or fail with the same error (`warns_same`).
Lines that cannot be read as text have no fields, and nothing of them is shown.
-/

namespace HttpSession.Cookie.File

def fields (line : Text) : List Text := line.trimEnd.pieces '\t'

/-- Whether two lines are equal, or have seven fields or more, as many as each other, and the first six
alike. -/
def SameButValue (line line' : Text) : Prop :=
  line = line' ∨
    (7 ≤ (fields line).length ∧ (fields line').length = (fields line).length ∧
      (fields line').take 6 = (fields line).take 6)

/-- Whether the lines of two files are the same but for values, one by one. -/
def SameButValues (file file' : Bytes) : Prop :=
  List.Forall₂ (Option.Rel SameButValue) ((Pieces.lines 10 13 file).map Utf8.decode?)
    ((Pieces.lines 10 13 file').map Utf8.decode?)

-- ---------------------------------------------------------------------------
-- Lines with a value
-- ---------------------------------------------------------------------------

/-- Whether two texts are equal, or have the same six fields, and behind them values with as many tabs as
each other. -/
inductive EqualUpToValue : Text → Text → Prop
  | same (t : Text) : EqualUpToValue t t
  | value {lead v v' : Text} (six : lead.count '\t' = 5) (many : v.count '\t' = v'.count '\t') :
      EqualUpToValue (lead ++ '\t' :: v) (lead ++ '\t' :: v')

section
variable {lead t t' v v' line line' : Text} {lines lines' : List Text} {fault : Fault}

theorem length_pieces_of_six (six : lead.count '\t' = 5) : (lead.pieces '\t').length = 6 := by
  rw [Text.length_pieces, six]

theorem SameButValue.equalUpToValue (h : SameButValue line line') :
    EqualUpToValue line.trimEnd line'.trimEnd := by
  obtain rfl | ⟨hseven, hmany, hsix⟩ := h
  · exact .same _
  unfold fields at hseven hmany hsix
  rw [Text.length_pieces] at hseven hmany
  rw [Text.length_pieces] at hmany
  have hfive : 5 < line.trimEnd.count '\t' := by omega
  have hfive' : 5 < line'.trimEnd.count '\t' := by omega
  -- both lines are cut at the sixth tab, and the fields before it say what stands there
  obtain ⟨lead, v, hline, hlead⟩ := Text.exists_append_cons_of_lt_count hfive
  obtain ⟨lead', v', hline', hlead'⟩ := Text.exists_append_cons_of_lt_count hfive'
  rw [hline, hline', Text.pieces_append_cons, Text.pieces_append_cons,
    List.take_left' (length_pieces_of_six hlead), List.take_left' (length_pieces_of_six hlead')] at hsix
  obtain rfl : lead' = lead := by
    rw [← Text.join_pieces '\t' lead', hsix, Text.join_pieces]
  rw [hline, hline'] at hmany ⊢
  refine .value hlead ?_
  simpa [eq_comm] using hmany

-- ---------------------------------------------------------------------------
-- What shows of a value
-- ---------------------------------------------------------------------------

/-- What is shown of a line does not depend on its value. -/
theorem redact_lead (six : lead.count '\t' = 5) (v : Text) :
    redact (lead ++ '\t' :: v) = lead ++ "\t[REDACTED]" := by
  have hlength := length_pieces_of_six six
  have hseven : 7 ≤ (lead.pieces '\t' ++ v.pieces '\t').length := by
    rw [List.length_append, hlength, Text.length_pieces]
    omega
  simp only [redact, Text.pieces_append_cons, if_pos hseven, List.take_left' hlength]
  exact congrArg (· ++ _) (Text.join_pieces '\t' lead)

theorem EqualUpToValue.redact_eq (h : EqualUpToValue t t') : redact t' = redact t := by
  cases h with
  | same => rfl
  | value six => rw [redact_lead six, redact_lead six]

theorem readLine_of_seven (domain tailmatch path secure expires name : Text)
    (hline : line.pieces '\t' = [domain, tailmatch, path, secure, expires, name, v])
    (hline' : line'.pieces '\t' = [domain, tailmatch, path, secure, expires, name, v']) :
    readLine line' = .error fault ↔ readLine line = .error fault := by
  unfold readLine
  rw [hline, hline']
  simp only
  cases readFlag "tailmatch" tailmatch with
  | error => rfl
  | ok =>
  cases readFlag "secure" secure with
  | error => rfl
  | ok =>
  cases Text.Width.double.readNat? expires with
  | none => rfl
  | some =>
  by_cases hdomain : domain = []
  · simp only [hdomain]
    rfl
  by_cases hname : name = []
  · simp only [hname, if_neg hdomain]
    rfl
  simp only [if_neg hdomain, if_neg hname]
  exact iff_of_false nofun nofun

theorem exists_six {fields : List Text} (h : fields.length = 6) :
    ∃ domain tailmatch path secure expires name,
      fields = [domain, tailmatch, path, secure, expires, name] := by
  match fields, h with
  | [domain, tailmatch, path, secure, expires, name], _ => exact ⟨_, _, _, _, _, _, rfl⟩

/-- A value is read as it is if it is a single field, and only the number of fields counts else. -/
theorem EqualUpToValue.readLine_eq_error_iff (h : EqualUpToValue t t') :
    readLine t' = .error fault ↔ readLine t = .error fault := by
  cases h with
  | same => rfl
  | @value lead v v' six many =>
    have hlead := length_pieces_of_six six
    by_cases htab : '\t' ∈ v
    · have hmore := List.count_pos_iff.mpr htab
      rw [readLine_of_length_ne, readLine_of_length_ne]
      all_goals simp only [Text.pieces_append_cons, List.length_append, hlead, Text.length_pieces, ← many]
      all_goals omega
    · have htab' : '\t' ∉ v' := by rwa [← List.count_eq_zero, ← many, List.count_eq_zero]
      obtain ⟨domain, tailmatch, path, secure, expires, name, hsix⟩ := exists_six hlead
      have hpieces (v : Text) (hv : '\t' ∉ v) :
          Text.pieces '\t' (lead ++ '\t' :: v) = [domain, tailmatch, path, secure, expires, name, v] := by
        rw [Text.pieces_append_cons, hsix, Text.pieces, Pieces.split_of_not_mem hv]
        rfl
      exact readLine_of_seven domain tailmatch path secure expires name (hpieces v htab) (hpieces v' htab')

theorem EqualUpToValue.warning_eq (h : EqualUpToValue t t') (number : Nat) (fault : Fault) :
    warning number t' fault = warning number t fault := by
  unfold warning
  rw [h.redact_eq]

-- ---------------------------------------------------------------------------
-- Lines that count
-- ---------------------------------------------------------------------------

theorem EqualUpToValue.behind_mark (h : EqualUpToValue t t') :
    EqualUpToValue ((t.after? mark).getD t) ((t'.after? mark).getD t') := by
  cases h with
  | same => exact .same _
  | @value lead v v' six many =>
    have hmark : '\t' ∉ mark := by decide
    rw [Text.after?_append_cons hmark, Text.after?_append_cons hmark]
    cases hlead : lead.after? mark with
    | none => exact .value six many
    | some rest =>
      obtain rfl := Text.after?_eq_some_iff.mp hlead
      refine .value ?_ many
      rwa [List.count_append, List.count_eq_zero.mpr hmark, Nat.zero_add] at six

theorem EqualUpToValue.counts_iff (h : EqualUpToValue t t') :
    (t' = [] ∨ t'.head? = some '#') ↔ (t = [] ∨ t.head? = some '#') := by
  cases h with
  | same => rfl
  | value => simp [List.head?_append]

theorem SameButValue.content? (h : SameButValue line line') :
    Option.Rel EqualUpToValue (content? line) (content? line') := by
  have hbehind := h.equalUpToValue.behind_mark
  rw [content?_eq rfl, content?_eq rfl, if_congr hbehind.counts_iff rfl rfl]
  split
  · exact .none
  · exact .some hbehind

-- ---------------------------------------------------------------------------
-- Files
-- ---------------------------------------------------------------------------

/-- What is told of a line is its warning, or whether it is a cookie. -/
theorem readLines_equalUpToValue (h : List.Forall₂ SameButValue lines lines') (number : Nat) :
    (readLines number lines').warnings = (readLines number lines).warnings ∧
      ((readLines number lines').cookies = [] ↔ (readLines number lines).cookies = []) := by
  induction h generalizing number with
  | nil => exact ⟨rfl, Iff.rfl⟩
  | @cons line line' rest rest' hline hrest ih =>
    obtain ⟨hwarnings, hcookies⟩ := ih (number + 1)
    have hcontent := hline.content?
    rw [readLines, readLines]
    generalize content? line = content, content? line' = content' at hcontent ⊢
    cases hcontent with
    | none => exact ⟨hwarnings, hcookies⟩
    | @some t t' ht =>
      cases hread : readLine t with
      | error fault =>
        have hread' := ht.readLine_eq_error_iff.mpr hread
        simp [hread, hread', ht.warning_eq, hwarnings, hcookies]
      | ok cookie =>
        cases hread' : readLine t' with
        | error fault => rw [ht.readLine_eq_error_iff, hread] at hread'; cases hread'
        | ok cookie' => simp [hread, hread', hwarnings]

theorem rel_cons {α : Type} {r : α → α → Prop} {first first' : Option α} {rest rest' : Option (List α)}
    (hfirst : Option.Rel r first first') (hrest : Option.Rel (List.Forall₂ r) rest rest') :
    Option.Rel (List.Forall₂ r) (do return (← first) :: (← rest))
      (do return (← first') :: (← rest')) := by
  cases hfirst with
  | none => exact .none
  | some hfirst =>
    cases hrest with
    | none => exact .none
    | some hrest => exact .some (.cons hfirst hrest)

theorem mapM_decode?_equalUpToValue {file file' : List Bytes}
    (h : List.Forall₂ (Option.Rel SameButValue) (file.map Utf8.decode?) (file'.map Utf8.decode?)) :
    Option.Rel (List.Forall₂ SameButValue) (file.mapM Utf8.decode?) (file'.mapM Utf8.decode?) := by
  rw [List.forall₂_map_left_iff, List.forall₂_map_right_iff] at h
  induction h with
  | nil => exact .some .nil
  | cons hline hrest ih =>
    rw [List.mapM_cons, List.mapM_cons]
    exact rel_cons hline ih

/-- Files that differ in nothing but values are read with the same warnings, or not read for the same
reason. -/
theorem warns_same {file file' : Bytes} (h : SameButValues file file') :
    (read file').map (·.warnings) = (read file).map (·.warnings) := by
  have hlines := mapM_decode?_equalUpToValue h
  unfold read
  generalize (Pieces.lines 10 13 file).mapM Utf8.decode? = lines,
    (Pieces.lines 10 13 file').mapM Utf8.decode? = lines' at hlines ⊢
  cases hlines with
  | none => rfl
  | some hlines =>
    obtain ⟨hwarnings, hcookies⟩ := readLines_equalUpToValue hlines 1
    simp only [hwarnings, hcookies]
    split
    · rfl
    · exact congrArg Except.ok hwarnings

end

theorem sameButValues_encode {t t' : Text} (h : List.Forall₂ SameButValue t.lines t'.lines) :
    SameButValues (Utf8.encode t) (Utf8.encode t') := by
  have hlines (t : Text) :
      (Pieces.lines 10 13 (Utf8.encode t)).map Utf8.decode? = t.lines.map some := by
    rw [Utf8.lines_encode, List.map_map]
    exact List.map_congr_left fun line _ => Utf8.decode?_encode line
  rw [SameButValues, hlines, hlines, List.forall₂_map_left_iff, List.forall₂_map_right_iff]
  exact h.imp fun _ _ => .some

def listingOf (value : Text) : Text :=
  Text.join ['\n'] ["a.example\tTRUE\t/\tFALSE\t0\tsid\t" ++ value,
    "a.example\tMAYBE\t/\tFALSE\t0\tsid\t" ++ value,
    "a.example\tTRUE\t/\tFALSE\t0\tsid\t" ++ value ++ "\t" ++ value]

theorem warns_same_listing :
    SameButValues (Utf8.encode (listingOf "secret")) (Utf8.encode (listingOf "another")) ∧
      (read (Utf8.encode (listingOf "another"))).map (·.warnings) =
        (read (Utf8.encode (listingOf "secret"))).map (·.warnings) ∧
      (read (Utf8.encode (listingOf "secret"))).map (·.warnings) = .ok [
        (2, "line 2: tailmatch field must be TRUE or FALSE, got 'MAYBE' (got: " ++
          "a.example\tMAYBE\t/\tFALSE\t0\tsid\t[REDACTED])"),
        (3, "line 3: expected 7 TAB-separated fields, found 8 (got: " ++
          "a.example\tTRUE\t/\tFALSE\t0\tsid\t[REDACTED])")] := by
  have hsame : SameButValues (Utf8.encode (listingOf "secret")) (Utf8.encode (listingOf "another")) := by
    refine sameButValues_encode ?_
    refine .cons (.inr ?_) (.cons (.inr ?_) (.cons (.inr ?_) .nil))
    all_goals decide
  refine ⟨hsame, warns_same hsame, ?_⟩
  decide +kernel

end HttpSession.Cookie.File
