import HttpSession.Proofs.Cookie.ReadLaws

/-!
# One element or several

A header value with commas can be read in two ways: as one element, whose attributes swallow the commas,
or as the elements between them. Where two elements meet, the last part of the first one and the first
part of the second one are a single part of the whole. That part keeps the name of the attribute that it
begins with, if the attribute has a value, and else shows a comma in its name, so that it is never taken
for another attribute.

Main statement: if every element of a value names its version and none a date, so does the value as one
element (`isVersioned_of_readAll`).
-/

namespace HttpSession.Cookie.Element

variable {t u piece : Text} {pieces : List Text} {a : Attribute} {e : Element}

-- ---------------------------------------------------------------------------
-- Parts of an element
-- ---------------------------------------------------------------------------

def lead (t : Text) : Text := (t.splitUnquoted ';').headD []

def attributesOf (t : Text) : List Attribute := readAttributes (t.splitUnquoted ';').tail

theorem read_eq (t : Text) :
    read t = if (readPair (lead t).trim).1 = [] then .error .emptyName
      else .ok ⟨(readPair (lead t).trim).1, (readPair (lead t).trim).2, attributesOf t⟩ := by
  unfold read lead attributesOf
  cases hparts : t.splitUnquoted ';' with
  | nil => exact absurd hparts (Text.splitFrom_ne_nil _ _ _)
  | cons first rest => rfl

theorem read_ok_iff : read t = .ok e ↔
    (readPair (lead t).trim).1 ≠ [] ∧
      e = ⟨(readPair (lead t).trim).1, (readPair (lead t).trim).2, attributesOf t⟩ := by
  rw [read_eq]
  split
  · rename_i hname
    simp [hname]
  · rename_i hname
    simp [hname, eq_comm]

theorem mem_readAttributes_iff {parts : List Text} :
    a ∈ readAttributes parts ↔ ∃ part ∈ parts, part.trim ≠ [] ∧ readAttribute part.trim = a := by
  simp [readAttributes, List.mem_map, List.mem_filter, and_assoc]

theorem eq_of_equals_mem (h : '=' ∈ t) :
    ∃ before after, t = before ++ '=' :: after ∧ '=' ∉ before := by
  cases hcut : t.cut? (· = '=') with
  | none => simpa using Text.cut?_eq_none_iff.mp hcut _ h
  | some cut =>
    obtain ⟨before, after⟩ := cut
    obtain ⟨c, hc, ht, hbefore⟩ := Text.eq_of_cut? hcut
    obtain rfl := of_decide_eq_true hc
    exact ⟨before, after, ht, fun hmem => by simpa using hbefore _ hmem⟩

theorem cut?_trim {before after : Text} (hb : '=' ∉ before) :
    (before ++ '=' :: after).trim.cut? (· = '=') = some (before.trimStart, after.trimEnd) := by
  rw [Text.trim_append_cons (by decide)]
  refine Text.cut?_append_cons (fun d hd => decide_eq_false ?_) (by simp)
  rintro rfl
  exact hb ((List.dropWhile_sublist _).subset hd)

theorem readPair_trim {before after : Text} (hb : '=' ∉ before) :
    (readPair (before ++ '=' :: after).trim).1 = before.trim := by
  rw [readPair, cut?_trim hb]
  exact Text.trimStart_trim before

theorem name_readAttribute (t : Text) : (readAttribute t).name = (readPair t).1.lower := by
  unfold readAttribute readPair
  cases t.cut? (· = '=') <;> rfl

theorem cut?_of_not_mem (h : '=' ∉ t) : t.cut? (· = '=') = none := by
  rw [Text.cut?_eq_none_iff]
  intro c hc
  rw [decide_eq_false_iff_not]
  rintro rfl
  exact h hc

theorem isSome_value_iff : (readAttribute t.trim).value.isSome = true ↔ '=' ∈ t := by
  by_cases h : '=' ∈ t
  · obtain ⟨before, after, rfl, hb⟩ := eq_of_equals_mem h
    simp [readAttribute, cut?_trim hb]
  · have hcut := cut?_of_not_mem fun hmem => h (Text.mem_of_mem_trim hmem)
    simp [readAttribute, hcut, h]

-- ---------------------------------------------------------------------------
-- Where two elements meet
-- ---------------------------------------------------------------------------

section
variable {last first : Text}

/-- If the last part of the first element has no value, the comma behind it ends up in a name. -/
theorem comma_mem_meeting (h : '=' ∉ last) : ',' ∈ (readPair (last ++ ',' :: first).trim).1 := by
  by_cases hfirst : '=' ∈ first
  · obtain ⟨before, after, rfl, hb⟩ := eq_of_equals_mem hfirst
    have hlead : '=' ∉ last ++ ',' :: before := by simp [h, hb]
    rw [← List.cons_append, ← List.append_assoc, readPair_trim hlead, Text.mem_trim_iff (by decide)]
    simp
  · have hcut := cut?_of_not_mem (t := (last ++ ',' :: first).trim) fun hmem => by
      simpa [h, hfirst] using Text.mem_of_mem_trim hmem
    rw [readPair, hcut]
    exact (Text.mem_trim_iff (by decide)).mpr (by simp)

theorem comma_mem_name_meeting (h : '=' ∉ last) :
    ',' ∈ (readAttribute (last ++ ',' :: first).trim).name := by
  rw [name_readAttribute, Text.mem_lower_iff (by decide)]
  exact comma_mem_meeting h

theorem name_meeting_of_mem (h : '=' ∈ last) :
    (readAttribute (last ++ ',' :: first).trim).name = (readAttribute last.trim).name := by
  obtain ⟨before, after, rfl, hb⟩ := eq_of_equals_mem h
  rw [List.append_assoc, List.cons_append, name_readAttribute, name_readAttribute, readPair_trim hb,
    readPair_trim hb]

theorem parts_meeting (h : Text.scan .outside t = .outside) (u : Text) :
    ∃ init last first tail, t.splitUnquoted ';' = init ++ [last] ∧
      u.splitUnquoted ';' = first :: tail ∧
        Text.splitUnquoted ';' (t ++ ',' :: u) = init ++ (last ++ ',' :: first) :: tail := by
  have hquote : ';' ≠ '"' := by decide
  obtain ⟨init, last, _, tail, ht, hu, hmeet⟩ := Text.splitFrom_append hquote .outside t (',' :: u)
  -- the comma stands outside quotes, and is no separator there
  rw [h, Text.splitFrom, if_neg (by simp)] at hu
  obtain ⟨first, rest, hparts⟩ := Text.exists_splitFrom ';' .outside u
  have hnext : Text.Quoting.next .outside ',' = .outside := rfl
  rw [hnext, hparts] at hu
  obtain ⟨rfl, rfl⟩ := List.cons.inj hu
  exact ⟨init, last, first, rest, ht, hparts, hmeet⟩

end

/-- What the attributes of a whole have to do with those of its pieces: each shows a comma in its name or
is called like one of a piece, and each one of a piece that has a value is called like one of the whole
that has a value. -/
structure AttributesCorrespond (whole pieces : List Attribute) : Prop where
  known : ∀ a ∈ whole, ',' ∈ a.name ∨ ∃ b ∈ pieces, b.name = a.name
  valued : ∀ b ∈ pieces, b.value.isSome = true → ∃ a ∈ whole, a.name = b.name ∧ a.value.isSome = true

theorem AttributesCorrespond.refl (attributes : List Attribute) :
    AttributesCorrespond attributes attributes :=
  ⟨fun a ha => .inr ⟨a, ha, rfl⟩, fun b hb hvalue => ⟨b, hb, rfl, hvalue⟩⟩

theorem AttributesCorrespond.trans_append {whole first rest pieces : List Attribute}
    (h : AttributesCorrespond whole (first ++ rest)) (h' : AttributesCorrespond rest pieces) :
    AttributesCorrespond whole (first ++ pieces) := by
  constructor
  · intro a ha
    rcases h.known a ha with hcomma | ⟨b, hb, hname⟩
    · exact .inl hcomma
    · rcases List.mem_append.mp hb with hb | hb
      · exact .inr ⟨b, List.mem_append_left _ hb, hname⟩
      · rcases h'.known b hb with hcomma | ⟨d, hd, hname'⟩
        · exact .inl (hname ▸ hcomma)
        · exact .inr ⟨d, List.mem_append_right _ hd, hname'.trans hname⟩
  · intro b hb hvalue
    rcases List.mem_append.mp hb with hb | hb
    · exact h.valued b (List.mem_append_left _ hb) hvalue
    · obtain ⟨d, hd, hname, hvalue⟩ := h'.valued b hb hvalue
      obtain ⟨a, ha, hname', hvalue⟩ := h.valued d (List.mem_append_right _ hd) hvalue
      exact ⟨a, ha, hname'.trans hname, hvalue⟩

theorem attributesCorrespond_parts (init : List Text) (last first : Text) (tail : List Text) :
    AttributesCorrespond (readAttributes (init ++ (last ++ ',' :: first) :: tail))
      (readAttributes (init ++ [last]) ++ readAttributes tail) := by
  -- neither part is blank where it matters, so both are read as attributes
  have hlast (hmem : '=' ∈ last) : Text.trim last ≠ [] :=
    List.ne_nil_of_mem ((Text.mem_trim_iff (by decide)).mpr hmem)
  have hmeeting : Text.trim (last ++ ',' :: first) ≠ [] :=
    List.ne_nil_of_mem ((Text.mem_trim_iff (c := ',') (by decide)).mpr (by simp))
  constructor
  · intro a ha
    obtain ⟨part, hpart, hne, rfl⟩ := mem_readAttributes_iff.mp ha
    rcases List.mem_append.mp hpart with hpart | hpart
    · refine .inr ⟨_, List.mem_append_left _ ?_, rfl⟩
      exact mem_readAttributes_iff.mpr ⟨part, List.mem_append_left _ hpart, hne, rfl⟩
    · rcases List.mem_cons.mp hpart with rfl | hpart
      · by_cases hmem : '=' ∈ last
        · refine .inr ⟨_, List.mem_append_left _ ?_, (name_meeting_of_mem hmem).symm⟩
          exact mem_readAttributes_iff.mpr ⟨last, by simp, hlast hmem, rfl⟩
        · exact .inl (comma_mem_name_meeting hmem)
      · refine .inr ⟨_, List.mem_append_right _ ?_, rfl⟩
        exact mem_readAttributes_iff.mpr ⟨part, hpart, hne, rfl⟩
  · intro b hb hvalue
    rcases List.mem_append.mp hb with hb | hb
    · obtain ⟨part, hpart, hne, rfl⟩ := mem_readAttributes_iff.mp hb
      rcases List.mem_append.mp hpart with hpart | hpart
      · refine ⟨_, mem_readAttributes_iff.mpr ⟨part, ?_, hne, rfl⟩, rfl, hvalue⟩
        exact List.mem_append_left _ hpart
      · obtain rfl := List.mem_singleton.mp hpart
        have hmem := isSome_value_iff.mp hvalue
        refine ⟨_, mem_readAttributes_iff.mpr ⟨_, by simp, hmeeting, rfl⟩, name_meeting_of_mem hmem, ?_⟩
        exact isSome_value_iff.mpr (by simp [hmem])
    · obtain ⟨part, hpart, hne, rfl⟩ := mem_readAttributes_iff.mp hb
      exact ⟨_, mem_readAttributes_iff.mpr ⟨part, by simp [hpart], hne, rfl⟩, rfl, hvalue⟩

theorem attributesCorrespond_attributesOf (h : Text.scan .outside t = .outside) (u : Text) :
    AttributesCorrespond (attributesOf (t ++ ',' :: u)) (attributesOf t ++ attributesOf u) := by
  obtain ⟨init, last, first, tail, ht, hu, hmeet⟩ := parts_meeting h u
  rw [attributesOf, attributesOf, attributesOf, ht, hu, hmeet]
  cases init with
  -- the first element has no attributes, and where the two meet there is none of the whole
  | nil => exact AttributesCorrespond.refl _
  | cons lead init => exact attributesCorrespond_parts init last first tail

-- ---------------------------------------------------------------------------
-- Lists of elements
-- ---------------------------------------------------------------------------

theorem attributesCorrespond_join (h : Text.Parted ',' pieces) :
    AttributesCorrespond (attributesOf (Text.join [','] pieces)) (pieces.flatMap attributesOf) := by
  induction pieces with
  | nil => cases h
  | cons piece rest ih =>
    cases rest with
    | nil =>
      have hjoin : Text.join [','] [piece] = piece := by simp [Text.join]
      rw [hjoin, List.flatMap_singleton]
      exact AttributesCorrespond.refl _
    | cons next rest =>
      obtain ⟨-, hscan, hrest⟩ := h
      rw [Text.join_cons_cons, List.append_assoc, List.singleton_append, List.flatMap_cons]
      exact (attributesCorrespond_attributesOf hscan _).trans_append (ih hrest)

theorem hidden_of_trim_eq_nil (h : t.trim = []) : Text.Hidden ';' .outside t :=
  Text.hidden_of_not_mem (Text.not_mem_of_trim_eq_nil (by decide) h) _

theorem attributesOf_of_hidden (h : Text.Hidden ';' .outside t) : attributesOf t = [] := by
  rw [attributesOf, Text.splitUnquoted, (Text.splitFrom_eq_singleton_iff _ _).mpr h]
  rfl

theorem lead_meeting_of_hidden (h : Text.scan .outside t = .outside) (hh : Text.Hidden ';' .outside t)
    (u : Text) : ∃ first, lead (t ++ ',' :: u) = t ++ ',' :: first := by
  obtain ⟨init, last, first, tail, ht, -, hmeet⟩ := parts_meeting h u
  have hone : t.splitUnquoted ';' = [] ++ [t] := (Text.splitFrom_eq_singleton_iff _ _).mpr hh
  rw [hone] at ht
  obtain ⟨rfl, rfl⟩ := List.append_singleton_inj.mp ht
  exact ⟨first, by rw [lead, hmeet]; rfl⟩

theorem lead_meeting (h : Text.scan .outside t = .outside) (hh : ¬ Text.Hidden ';' .outside t)
    (u : Text) : lead (t ++ ',' :: u) = lead t := by
  obtain ⟨init, last, first, tail, ht, -, hmeet⟩ := parts_meeting h u
  rw [lead, lead, ht, hmeet]
  cases init with
  | nil =>
    have hjoin := Text.join_splitUnquoted ';' t
    rw [ht] at hjoin
    obtain rfl : last = t := by simpa [Text.join] using hjoin
    exact absurd ((Text.splitFrom_eq_singleton_iff _ _).mp ht) hh
  | cons lead init => rfl

section
variable {elements : List Element}

theorem mem_readAll (h : readAll t = .ok elements) (hp : piece ∈ t.splitUnquoted ',')
    (hblank : piece.trim ≠ []) : ∃ e ∈ elements, read piece = .ok e :=
  exists_mem_of_mapM h (List.mem_filter.mpr ⟨hp, by simpa using hblank⟩)

theorem mem_attributesOf_pieces_iff (h : readAll t = .ok elements) :
    a ∈ (t.splitUnquoted ',').flatMap attributesOf ↔ ∃ e ∈ elements, a ∈ e.attributes := by
  rw [List.mem_flatMap]
  constructor
  · rintro ⟨piece, hp, ha⟩
    by_cases hblank : piece.trim = []
    · rw [attributesOf_of_hidden (hidden_of_trim_eq_nil hblank)] at ha
      cases ha
    · obtain ⟨e, he, hread⟩ := mem_readAll h hp hblank
      obtain ⟨-, rfl⟩ := read_ok_iff.mp hread
      exact ⟨_, he, ha⟩
  · rintro ⟨e, he, ha⟩
    obtain ⟨piece, hp, hread⟩ := exists_of_mem_mapM h he
    obtain ⟨-, rfl⟩ := read_ok_iff.mp hread
    exact ⟨piece, (List.mem_filter.mp hp).1, ha⟩

theorem exists_read_of_readAll (h : readAll t = .ok elements) (hne : elements ≠ [])
    (ha : ∀ e ∈ elements, e.attributes ≠ []) : ∃ e, read t = .ok e := by
  obtain ⟨first, hfirst⟩ := List.exists_mem_of_ne_nil _ hne
  have hjoin := Text.join_splitUnquoted ',' t
  have hparted := Text.parted_splitUnquoted ',' t
  cases hpieces : t.splitUnquoted ',' with
  | nil => exact absurd hpieces (Text.splitFrom_ne_nil _ _ _)
  | cons piece rest =>
    rw [hpieces] at hjoin hparted
    cases rest with
    | nil =>
      -- there is one piece, which is the value
      obtain rfl : piece = t := by simpa [Text.join] using hjoin
      obtain ⟨piece', hp, hread⟩ := exists_of_mem_mapM h hfirst
      rw [hpieces] at hp
      obtain rfl := List.mem_singleton.mp (List.mem_filter.mp hp).1
      exact ⟨first, hread⟩
    | cons next rest =>
      obtain ⟨-, hscan, -⟩ := hparted
      rw [Text.join_cons_cons, List.append_assoc, List.singleton_append] at hjoin
      suffices hname : (readPair (lead t).trim).1 ≠ [] from ⟨_, read_ok_iff.mpr ⟨hname, rfl⟩⟩
      rw [← hjoin]
      by_cases hblank : piece.trim = []
      · -- the name begins with the comma behind the blanks
        obtain ⟨_, hlead⟩ := lead_meeting_of_hidden hscan (hidden_of_trim_eq_nil hblank)
          (Text.join [','] (next :: rest))
        rw [hlead]
        exact List.ne_nil_of_mem (comma_mem_meeting (Text.not_mem_of_trim_eq_nil (by decide) hblank))
      · -- the name is that of the first element
        obtain ⟨e, he, hread⟩ := mem_readAll h (by simp [hpieces]) hblank
        obtain ⟨hname, rfl⟩ := read_ok_iff.mp hread
        rwa [lead_meeting hscan fun hh => ha _ he (attributesOf_of_hidden hh)]

/-- A value whose elements all name their versions and no dates is versioned as one element too. -/
theorem isVersioned_of_readAll (h : readAll t = .ok elements) (hne : elements ≠ [])
    (hversion : ∀ e ∈ elements, ∃ a ∈ e.attributes, a.name = "version" ∧ a.value.isSome = true)
    (hdate : ∀ e ∈ elements, e.has "expires" = false) :
    ∃ e, read t = .ok e ∧ e.isVersioned = true := by
  obtain ⟨whole, hread⟩ := exists_read_of_readAll h hne fun e he => by
    obtain ⟨a, ha, -⟩ := hversion e he
    exact List.ne_nil_of_mem ha
  have hcorrespond : AttributesCorrespond whole.attributes ((t.splitUnquoted ',').flatMap attributesOf) := by
    have hpieces := attributesCorrespond_join (Text.parted_splitUnquoted ',' t)
    rw [Text.join_splitUnquoted] at hpieces
    obtain ⟨-, rfl⟩ := read_ok_iff.mp hread
    exact hpieces
  refine ⟨whole, hread, ?_⟩
  rw [isVersioned, Bool.and_eq_true, Bool.not_eq_true', has, List.any_eq_true, has, List.any_eq_false]
  constructor
  · obtain ⟨first, hfirst⟩ := List.exists_mem_of_ne_nil _ hne
    obtain ⟨a, ha, hname, hvalue⟩ := hversion first hfirst
    have hpiece := (mem_attributesOf_pieces_iff h).mpr ⟨first, hfirst, ha⟩
    obtain ⟨b, hb, hsame, -⟩ := hcorrespond.valued a hpiece hvalue
    exact ⟨b, hb, by simp [hsame, hname]⟩
  · intro a ha hname
    rw [decide_eq_true_eq] at hname
    rcases hcorrespond.known a ha with hcomma | ⟨b, hb, hsame⟩
    · rw [hname] at hcomma
      exact absurd hcomma (by decide)
    · obtain ⟨e, he, hb⟩ := (mem_attributesOf_pieces_iff h).mp hb
      have hno := List.any_eq_false.mp (hdate e he) b hb
      simp [hsame, hname] at hno

end

end HttpSession.Cookie.Element
