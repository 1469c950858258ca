import HttpSession.Cookie.File
import HttpSession.Proofs.Bytes.Utf8Laws
import HttpSession.Proofs.ExceptLaws
import HttpSession.Proofs.Text.IntegerLaws

/-!
# Reading cookie files

A cookie file is written line by line: cookies as records of seven fields between tabs, some with a mark
before them, and blank lines and comments anywhere between.

Main statement: a file is read without a warning, as the cookies of its records in order, exactly if no
record has an empty value (`read_eq_ok_iff`). The tab that ends such a line goes with the blanks at its
end, so its value is missed (`read_misses_empty_value`).
-/

namespace HttpSession.Cookie.File

-- ---------------------------------------------------------------------------
-- Files line by line
-- ---------------------------------------------------------------------------

def mark : Text := "#HttpOnly_"

/-- A cookie as a file has it. No field shows where fields or lines end, and blanks at the end of a
value would be blanks at the end of its line. -/
structure Record where
  domain : Text
  tailmatch : Bool
  path : Text
  secure : Bool
  expires : Nat
  name : Text
  value : Text
  domain_ne_nil : domain ≠ []
  uncommented : domain.head? ≠ some '#'
  name_ne_nil : name ≠ []
  unended : ∀ c, value.getLast? = some c → Text.isBlank c = false
  expires_le : expires ≤ Text.Width.double.greatest
  tabless : ∀ field ∈ [domain, path, name, value], '\t' ∉ field
  single : ∀ field ∈ [domain, path, name, value], '\n' ∉ field ∧ '\r' ∉ field

def flagText (b : Bool) : Text := if b then "TRUE" else "FALSE"

namespace Record

def leading (r : Record) : List Text :=
  [r.domain, flagText r.tailmatch, r.path, flagText r.secure, Text.ofNat r.expires, r.name]

def text (r : Record) : Text := Text.join ['\t'] (r.leading ++ [r.value])

def cookie (r : Record) : Cookie where
  name := r.name
  value := r.value
  domain := r.domain.lower
  path := if r.path = [] then ['/'] else r.path
  expiry := if r.expires = 0 ∨ Instant.lastSecond < r.expires then none else some ⟨r.expires, 0⟩
  secure := r.secure
  domainGiven := r.tailmatch
  pathGiven := true

end Record

inductive Line
  | record (r : Record) (marked : Bool)
  | blank (text : Text) (blank : text.trimEnd = []) (single : '\n' ∉ text)
  | comment (text : Text) (unmarked : ¬ mark <+: '#' :: text) (single : '\n' ∉ text)

namespace Line

def text : Line → Text
  | .record r marked => (if marked then mark else []) ++ r.text
  | .blank text _ _ => text
  | .comment text _ _ => '#' :: text

def record? : Line → Option Record
  | .record r _ => some r
  | .blank _ _ _ | .comment _ _ _ => none

end Line

def records (lines : List Line) : List Record := lines.filterMap Line.record?

def written (lines : List Line) : Bytes := Utf8.encode (Text.join ['\n'] (lines.map Line.text))

-- ---------------------------------------------------------------------------
-- Lines that count
-- ---------------------------------------------------------------------------

section
variable {line t : Text} {lines others : List Text} {r : Record}

theorem readLines_congr (h : lines.map content? = others.map content?) (number : Nat) :
    readLines number lines = readLines number others := by
  induction lines generalizing others number with
  | nil =>
    obtain rfl := List.map_eq_nil_iff.mp h.symm
    rfl
  | cons line rest ih =>
    cases others with
    | nil => cases h
    | cons line' rest' =>
      obtain ⟨hline, hrest⟩ := List.cons.inj h
      rw [readLines, readLines, hline, ih hrest]

theorem readLines_concat_nil (number : Nat) (lines : List Text) :
    readLines number (lines ++ [[]]) = readLines number lines := by
  induction lines generalizing number with
  | nil => rfl
  | cons line rest ih => rw [List.cons_append, readLines, readLines, ih]

theorem content?_strip (line : Text) : content? ((['\r'].isSuffixOf? line).getD line) = content? line := by
  cases h : ['\r'].isSuffixOf? line with
  | none => rfl
  | some before =>
    obtain rfl := List.isSuffixOf?_eq_some_iff_append_eq.mp h
    have hend : Text.trimEnd (before ++ ['\r']) = Text.trimEnd before :=
      List.rdropWhile_concat_pos Text.isBlank _ _ (by decide)
    rw [Option.getD_some, content?, content?, hend]

/-- How lines end makes no difference. -/
theorem readLines_lines (number : Nat) (t : Text) :
    readLines number t.lines = readLines number (t.pieces '\n') := by
  obtain ⟨init, last, hsplit⟩ :=
    (List.eq_nil_or_concat (Pieces.split '\n' t)).resolve_left (Pieces.split_ne_nil '\n' t)
  have hcontent (l : List Text) :
      (l.map fun line => (['\r'].isSuffixOf? line).getD line).map content? = l.map content? := by
    rw [List.map_map]
    exact List.map_congr_left fun line _ => content?_strip line
  rw [Text.lines, Text.pieces, Pieces.lines, hsplit]
  simp only [List.concat_eq_append, List.dropLast_concat, List.getLast?_concat]
  cases last with
  | nil =>
    rw [readLines_concat_nil]
    exact readLines_congr (hcontent init) number
  | cons c rest =>
    refine readLines_congr ?_ number
    rw [List.map_append, List.map_append, hcontent]

theorem mapM_decode?_encode (lines : List Text) :
    (lines.map Utf8.encode).mapM Utf8.decode? = some lines := by
  induction lines with
  | nil => rfl
  | cons line rest ih => simp [Utf8.decode?_encode, ih]

def cookie? (line : Text) : Option Cookie := (content? line).bind fun line => (readLine line).toOption

theorem cookies_readLines (number : Nat) (lines : List Text) :
    (readLines number lines).cookies = lines.filterMap cookie? := by
  induction lines generalizing number with
  | nil => rfl
  | cons line rest ih =>
    rw [readLines, List.filterMap_cons, ← ih (number + 1), cookie?]
    cases content? line with
    | none => rfl
    | some line =>
      simp only [Option.bind_some]
      cases readLine line <;> rfl

theorem warnings_readLines_eq_nil (h : ∀ line ∈ lines, content? line = none ∨ (cookie? line).isSome)
    (number : Nat) : (readLines number lines).warnings = [] := by
  induction lines generalizing number with
  | nil => rfl
  | cons line rest ih =>
    have hrest := ih (fun line hline => h line (List.mem_cons_of_mem _ hline)) (number + 1)
    rw [readLines]
    rcases h line List.mem_cons_self with hline | hline
    · rw [hline]
      exact hrest
    · unfold cookie? at hline
      cases hcontent : content? line with
      | none => exact hrest
      | some line =>
        rw [hcontent, Option.bind_some] at hline
        simp only
        cases hread : readLine line with
        | error fault =>
          rw [hread] at hline
          cases hline
        | ok cookie => exact hrest

-- ---------------------------------------------------------------------------
-- Lines of records
-- ---------------------------------------------------------------------------

theorem tab_not_mem_flagText (b : Bool) : '\t' ∉ flagText b := by cases b <;> decide

theorem readFlag_flagText (field : Text) (b : Bool) : readFlag field (flagText b) = .ok b := by
  cases b <;> rfl

theorem expiryOf_eq (seconds : Nat) : expiryOf seconds =
    if seconds = 0 ∨ Instant.lastSecond < seconds then none else some ⟨seconds, 0⟩ := by
  have hepoch : Instant.epoch.seconds = 0 := rfl
  unfold expiryOf Instant.later?
  rw [hepoch, Int.zero_add]
  by_cases hzero : seconds = 0
  · simp [hzero]
  by_cases hlast : (seconds : Int) ≤ Instant.lastSecond
  · simp [hzero, hlast, Instant.epoch]
  · simp [hzero, hlast]

namespace Record

theorem tab_not_mem_leading (r : Record) : ∀ field ∈ r.leading, '\t' ∉ field := by
  intro field hfield
  simp only [leading, List.mem_cons, List.not_mem_nil, or_false] at hfield
  obtain rfl | rfl | rfl | rfl | rfl | rfl := hfield
  · exact r.tabless _ (by simp)
  · exact tab_not_mem_flagText _
  · exact r.tabless _ (by simp)
  · exact tab_not_mem_flagText _
  · exact Text.not_mem_ofNat (by decide)
  · exact r.tabless _ (by simp)

theorem pieces_text (r : Record) : r.text.pieces '\t' = r.leading ++ [r.value] := by
  refine Text.pieces_join (by simp) fun field hfield => ?_
  rcases List.mem_append.mp hfield with hfield | hfield
  · exact r.tab_not_mem_leading field hfield
  · exact List.mem_singleton.mp hfield ▸ r.tabless _ (by simp)

theorem text_eq (r : Record) : r.text = Text.join ['\t'] r.leading ++ '\t' :: r.value := by
  unfold text leading
  rw [List.cons_append, Text.join_cons, Text.join_cons]
  simp

theorem readLine_text (r : Record) : readLine r.text = .ok r.cookie := by
  unfold readLine
  rw [pieces_text]
  simp only [leading, List.cons_append, List.nil_append, readFlag_flagText,
    Text.Width.readNat?_ofNat r.expires_le, if_neg r.domain_ne_nil, if_neg r.name_ne_nil, expiryOf_eq]
  rfl

theorem text_cons (r : Record) : ∃ c rest, r.text = c :: rest ∧ c ≠ '#' := by
  obtain ⟨c, rest, hdomain⟩ := List.exists_cons_of_ne_nil r.domain_ne_nil
  obtain ⟨others, htext⟩ : r.domain <+: r.text := ⟨_, (Text.join_cons _ _ _).symm⟩
  rw [hdomain] at htext
  refine ⟨c, rest ++ others, htext.symm, fun hc => r.uncommented ?_⟩
  rw [hdomain, hc]
  rfl

theorem trimEnd_text (r : Record) (hvalue : r.value ≠ []) (lead : Text) :
    Text.trimEnd (lead ++ r.text) = lead ++ r.text := by
  obtain ⟨init, c, hc⟩ := (List.eq_nil_or_concat r.value).resolve_left hvalue
  rw [List.concat_eq_append] at hc
  have hblank : Text.isBlank c = false := r.unended c (by rw [hc, List.getLast?_concat])
  rw [text_eq, hc, ← List.cons_append, ← List.append_assoc, ← List.append_assoc,
    Text.trimEnd_append_cons hblank]
  rfl

/-- Without a value the tab at the end goes as well, and the fields are not seven. -/
theorem count_trimEnd_text_le (r : Record) (hvalue : r.value = []) (lead : Text) (hlead : '\t' ∉ lead) :
    (Text.trimEnd (lead ++ r.text)).count '\t' ≤ 5 := by
  have hend : Text.trimEnd (lead ++ r.text) = Text.trimEnd (lead ++ Text.join ['\t'] r.leading) := by
    rw [text_eq, hvalue, ← List.append_assoc]
    exact List.rdropWhile_concat_pos Text.isBlank _ _ (by decide)
  have hcount : (Text.join ['\t'] r.leading).count '\t' = 5 := by
    have hpieces : (Text.join ['\t'] r.leading).pieces '\t' = r.leading :=
      Text.pieces_join (by simp [leading]) r.tab_not_mem_leading
    have hlength := Text.length_pieces '\t' (Text.join ['\t'] r.leading)
    rw [hpieces] at hlength
    exact (Nat.succ.inj hlength).symm
  rw [hend]
  refine ((Text.trimEnd_isPrefix _).sublist.count_le '\t').trans ?_
  rw [List.count_append, hcount, List.count_eq_zero.mpr hlead]

end Record

theorem readLine_of_length_ne (h : (line.pieces '\t').length ≠ 7) :
    readLine line = .error (.fieldCount (line.pieces '\t').length) := by
  unfold readLine
  split
  · rename_i hfields
    rw [hfields] at h
    exact absurd rfl h
  · rfl

theorem readLine_of_count (h : line.count '\t' ≤ 5) : (readLine line).toOption = none := by
  rw [readLine_of_length_ne (by rw [Text.length_pieces]; omega)]
  rfl

theorem isSuffix_of_content? (h : content? line = some t) : t <:+ line.trimEnd := by
  have hbehind : (line.trimEnd.after? mark).getD line.trimEnd <:+ line.trimEnd := by
    cases hmark : line.trimEnd.after? mark with
    | none => exact List.suffix_rfl
    | some rest => exact ⟨mark, (Text.after?_eq_some_iff.mp hmark).symm⟩
  have hcontent : (if (line.trimEnd.after? mark).getD line.trimEnd = [] ∨
      ((line.trimEnd.after? mark).getD line.trimEnd).head? = some '#' then none
        else some ((line.trimEnd.after? mark).getD line.trimEnd)) = some t := h
  split at hcontent
  · cases hcontent
  · exact Option.some.inj hcontent ▸ hbehind

theorem content?_eq (h : (line.trimEnd.after? mark).getD line.trimEnd = t) :
    content? line = if t = [] ∨ t.head? = some '#' then none else some t := by
  subst h
  rfl

namespace Line

theorem tab_not_mem_lead (marked : Bool) : '\t' ∉ (if marked then mark else []) := by
  cases marked <;> decide

theorem content?_record (hvalue : r.value ≠ []) (marked : Bool) :
    content? (Line.record r marked).text = some r.text := by
  obtain ⟨c, rest, htext, hc⟩ := r.text_cons
  have hbehind : (((Line.record r marked).text.trimEnd.after? mark).getD
      (Line.record r marked).text.trimEnd) = r.text := by
    unfold Line.text
    rw [r.trimEnd_text hvalue]
    cases marked with
    | true =>
      have hafter : (mark ++ r.text).after? mark = some r.text := Text.after?_eq_some_iff.mpr rfl
      exact congrArg (Option.getD · _) hafter
    | false =>
      have hafter : r.text.after? mark = none := by
        rw [Option.eq_none_iff_forall_ne_some]
        intro u hu
        have heq := Text.after?_eq_some_iff.mp hu
        rw [htext] at heq
        exact hc (List.cons.inj heq).1
      exact congrArg (Option.getD · _) hafter
  rw [content?_eq hbehind, if_neg]
  rw [htext]
  simpa using hc

theorem cookie?_record (r : Record) (marked : Bool) :
    cookie? (Line.record r marked).text = if r.value = [] then none else some r.cookie := by
  unfold cookie?
  split
  · rename_i hvalue
    rw [Option.bind_eq_none_iff]
    intro t ht
    refine readLine_of_count (((isSuffix_of_content? ht).sublist.count_le '\t').trans ?_)
    exact r.count_trimEnd_text_le hvalue _ (tab_not_mem_lead marked)
  · rename_i hvalue
    rw [content?_record hvalue, Option.bind_some, r.readLine_text]
    rfl

theorem content?_of_record?_eq_none {l : Line} (h : l.record? = none) : content? l.text = none := by
  cases l with
  | record r marked => cases h
  | blank t blank single =>
    have hbehind : (t.trimEnd.after? mark).getD t.trimEnd = [] := by
      rw [blank]
      rfl
    exact content?_eq hbehind
  | comment t unmarked single =>
    have hend : Text.trimEnd ('#' :: t) = '#' :: t.trimEnd :=
      Text.trimEnd_append_cons (by decide) [] t
    have hafter : Text.after? ('#' :: t.trimEnd) mark = none := by
      rw [Option.eq_none_iff_forall_ne_some]
      intro u hu
      refine unmarked (List.IsPrefix.trans ⟨u, (Text.after?_eq_some_iff.mp hu).symm⟩ ?_)
      exact (List.prefix_cons_inj '#').mpr (Text.trimEnd_isPrefix t)
    have hbehind : ((Text.trimEnd ('#' :: t)).after? mark).getD (Text.trimEnd ('#' :: t)) =
        '#' :: t.trimEnd := by
      rw [hend, hafter]
      rfl
    exact (content?_eq hbehind).trans (if_pos (.inr rfl))

theorem cookie?_text (l : Line) :
    cookie? l.text = (l.record?.filter (·.value ≠ [])).map Record.cookie := by
  cases hrecord : l.record? with
  | none => rw [cookie?, content?_of_record?_eq_none hrecord]; rfl
  | some r =>
    cases l with
    | record r' marked =>
      obtain rfl := Option.some.inj hrecord
      rw [cookie?_record]
      by_cases hvalue : r'.value = [] <;> simp [Option.filter, hvalue]
    | _ => cases hrecord

theorem newline_not_mem_text (l : Line) : '\n' ∉ l.text := by
  cases l with
  | blank t blank single => exact single
  | comment t unmarked single => simpa [text] using single
  | record r marked =>
    have hlead : '\n' ∉ (if marked then mark else []) := by cases marked <;> decide
    have htext : '\n' ∉ r.text := by
      refine Text.not_mem_join (by decide) fun field hfield => ?_
      simp only [Record.leading, List.cons_append, List.nil_append, List.mem_cons, List.not_mem_nil,
        or_false] at hfield
      obtain rfl | rfl | rfl | rfl | rfl | rfl | rfl := hfield
      · exact (r.single _ (by simp)).1
      · cases r.tailmatch <;> decide
      · exact (r.single _ (by simp)).1
      · cases r.secure <;> decide
      · exact Text.not_mem_ofNat (by decide)
      · exact (r.single _ (by simp)).1
      · exact (r.single _ (by simp)).1
    rw [text, List.mem_append, not_or]
    exact ⟨hlead, htext⟩

end Line

end

-- ---------------------------------------------------------------------------
-- Files
-- ---------------------------------------------------------------------------

section
variable {lines : List Line}

theorem readLines_written (number : Nat) (lines : List Line) :
    readLines number (Text.join ['\n'] (lines.map Line.text)).lines =
      readLines number (lines.map Line.text) := by
  rw [readLines_lines]
  cases lines with
  | nil => rfl
  | cons l rest =>
    have hpieces : (Text.join ['\n'] ((l :: rest).map Line.text)).pieces '\n' =
        (l :: rest).map Line.text := by
      refine Text.pieces_join (by simp) fun piece hpiece => ?_
      obtain ⟨l', -, rfl⟩ := List.mem_map.mp hpiece
      exact l'.newline_not_mem_text
    rw [hpieces]

/-- The records that have a value give cookies, in order. -/
theorem cookies_written (number : Nat) (lines : List Line) :
    (readLines number (lines.map Line.text)).cookies =
      ((records lines).filter (·.value ≠ [])).map Record.cookie := by
  rw [cookies_readLines, records, List.filterMap_map, List.filter_filterMap, List.map_filterMap]
  exact List.filterMap_congr fun l _ => l.cookie?_text

theorem warnings_written_eq_nil (h : ∀ r ∈ records lines, r.value ≠ []) (number : Nat) :
    (readLines number (lines.map Line.text)).warnings = [] := by
  refine warnings_readLines_eq_nil (fun line hline => ?_) number
  obtain ⟨l, hl, rfl⟩ := List.mem_map.mp hline
  cases hrecord : l.record? with
  | none => exact .inl (Line.content?_of_record?_eq_none hrecord)
  | some r =>
    have hvalue := h r (List.mem_filterMap.mpr ⟨l, hl, hrecord⟩)
    refine .inr ?_
    rw [l.cookie?_text, hrecord]
    simp [Option.filter, hvalue]

theorem read_written (lines : List Line) : read (written lines) =
    if (readLines 1 (lines.map Line.text)).cookies = [] ∧
        (readLines 1 (lines.map Line.text)).warnings ≠ [] then
      .error (.noCookies (readLines 1 (lines.map Line.text)).warnings.length)
    else .ok (readLines 1 (lines.map Line.text)) := by
  unfold read written
  rw [Utf8.lines_encode, mapM_decode?_encode]
  simp only [readLines_written]

/-- A file is read without a warning, as the cookies of its records in order, exactly if every record
has a value. -/
theorem read_eq_ok_iff (lines : List Line) :
    read (written lines) = .ok ⟨(records lines).map Record.cookie, []⟩ ↔
      ∀ r ∈ records lines, r.value ≠ [] := by
  have hcookies := cookies_written 1 lines
  rw [read_written]
  constructor
  · intro h
    split at h
    · cases h
    · rw [Except.ok.inj h] at hcookies
      have hlength := congrArg List.length hcookies
      rw [List.length_map, List.length_map, eq_comm, List.length_filter_eq_length_iff] at hlength
      exact fun r hr => of_decide_eq_true (hlength r hr)
  · intro h
    have hwarnings := warnings_written_eq_nil h 1
    have hall : (records lines).filter (·.value ≠ []) = records lines :=
      List.filter_eq_self.mpr fun r hr => decide_eq_true (h r hr)
    rw [hall] at hcookies
    rw [if_neg fun hnone => hnone.2 hwarnings]
    exact congrArg Except.ok (congrArg₂ Reading.mk hcookies hwarnings)

end

def lastingRecord : Record where
  domain := "A.example"
  tailmatch := true
  path := []
  secure := true
  expires := 18446744073709551615
  name := "sid"
  value := "1 2"
  domain_ne_nil := by decide
  uncommented := by decide
  name_ne_nil := by decide
  unended c hc := by
    obtain rfl := Option.some.inj hc
    decide
  expires_le := by decide +kernel
  tabless := by decide
  single := by decide

def listing : List Line :=
  [.comment " cookies" (by decide) (by decide), .blank " \r" (by decide) (by decide),
    .record lastingRecord true]

theorem read_listing : read (written listing) = .ok ⟨[lastingRecord.cookie], []⟩ :=
  (read_eq_ok_iff listing).mpr (by decide)

def unvaluedRecord : Record where
  domain := "a.example"
  tailmatch := true
  path := "/"
  secure := false
  expires := 0
  name := "sid"
  value := []
  domain_ne_nil := by decide
  uncommented := by decide
  name_ne_nil := by decide
  unended := nofun
  expires_le := by decide
  tabless := by decide
  single := by decide

/-- Not every file is read as the cookies of its records. -/
theorem read_misses_empty_value :
    ¬ ∀ lines, read (written lines) = .ok ⟨(records lines).map Record.cookie, []⟩ := by
  intro hall
  have h := hall [.record unvaluedRecord false]
  have hcookies := cookies_written 1 [.record unvaluedRecord false]
  rw [read_written] at h
  split at h
  · cases h
  · rw [Except.ok.inj h] at hcookies
    exact absurd (congrArg List.length hcookies) (by decide)

end HttpSession.Cookie.File
