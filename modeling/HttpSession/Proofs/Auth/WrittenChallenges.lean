import HttpSession.Proofs.Auth.ParameterLaws
import HttpSession.Proofs.Text.QuotedBodies

/-!
# Challenges as they are written

A challenge with parameters is written as its scheme, a blank and the parameters, each a name, an equals
sign and a value between quotes, with commas between them and blanks wherever they may stand. The quotes
of a value are closed where it ends, whatever it holds (`Assignment.closed_text`), so the commas between
the parameters are the only ones that part them. Hence every challenge is read as it was written
(`Challenge.read_assignments`).
-/

namespace HttpSession.Auth

/-- A parameter as it may stand in a challenge: a name, a value between quotes, where a backslash stands
before each quote and backslash, and blanks on either side. -/
structure Assignment where
  before : Text
  name : Text
  value : Text
  after : Text
  blank : ∀ c ∈ before ++ after, Text.isBlank c = true
  token : IsToken name

namespace Assignment

def text (a : Assignment) : Text := a.before ++ (a.name ++ '=' :: Text.quote a.value.escape) ++ a.after

def param (a : Assignment) : Text × Text := (a.name.lower, a.value)

def join (as : List Assignment) : Text := Text.join [','] (as.map text)

variable {a : Assignment} {as : List Assignment}

theorem trim_text (a : Assignment) : a.text.trim = a.name ++ '=' :: Text.quote a.value.escape := by
  have hname : a.name.trimStart = a.name := Text.trimStart_of_trim a.token.trim_eq
  have hquote : (Text.quote a.value.escape).trimEnd = Text.quote a.value.escape :=
    Text.trimEnd_of_trim (Text.trim_quote _)
  rw [text, Text.trim_append_right fun c hc => a.blank c (List.mem_append_right _ hc),
    Text.trim_append_left fun c hc => a.blank c (List.mem_append_left _ hc),
    Text.trim_append_cons (by decide), hname, hquote]

theorem closed_blank {t : Text} (h : ∀ c ∈ t, Text.isBlank c = true) : Text.Closed ',' t := by
  refine .of_not_mem (fun hc => ?_) fun hc => ?_
  · exact absurd (h _ hc) (by decide)
  · exact absurd (h _ hc) (by decide)

theorem closed_text (a : Assignment) : Text.Closed ',' a.text := by
  have hname : Text.Closed ',' (a.name ++ ['=']) :=
    .of_not_mem (by simp [a.token.no_comma]) (by simp [a.token.no_quote])
  have hquote : Text.Closed ',' (Text.quote a.value.escape) :=
    .quote (by decide) (Text.isBody_escape _)
  have hmiddle : Text.Closed ',' (a.name ++ '=' :: Text.quote a.value.escape) := by
    simpa using hname.append hquote
  have hbefore := closed_blank fun c hc => a.blank c (List.mem_append_left _ hc)
  have hafter := closed_blank fun c hc => a.blank c (List.mem_append_right _ hc)
  exact (hbefore.append hmiddle).append hafter

theorem readParam_trim (a : Assignment) : Challenge.readParam a.text.trim = .ok a.param := by
  have hcut : Text.cut? (· = '=') (a.name ++ '=' :: Text.quote a.value.escape) =
      some (a.name, Text.quote a.value.escape) := by
    refine Text.cut?_append_cons (fun c hc => decide_eq_false ?_) (by simp)
    rintro rfl
    exact a.token.no_equals hc
  have hvalue : Challenge.readValue (Text.quote a.value.escape) = a.value := by
    have hquoted : (Text.quote a.value.escape).quoted? = some a.value.escape :=
      Text.quoted?_eq_some_iff.mpr rfl
    simp [Challenge.readValue, hquoted, Text.unescape_escape]
  simp only [Challenge.readParam, trim_text, hcut, a.token.trim_eq, if_neg a.token.1, Text.trim_quote,
    hvalue, param]

theorem quote_mem_join (hne : as ≠ []) : '"' ∈ join as := by
  obtain ⟨a, rest, rfl⟩ := List.exists_cons_of_ne_nil hne
  rw [join, List.map_cons, Text.join_cons]
  simp [text, Text.quote]

/-- The first value of a parameter, whatever the case of its name. -/
theorem lookup_param (as : List Assignment) (name : Text) :
    (as.map param).lookup name.lower = (as.find? fun a => a.name.sameLetters name).map (·.value) := by
  induction as with
  | nil => rfl
  | cons a rest ih =>
    by_cases hname : a.name.lower = name.lower
    · simp [param, Text.sameLetters, hname]
    · have hne : (name.lower == a.name.lower) = false := beq_eq_false_iff_ne.mpr (Ne.symm hname)
      rw [List.map_cons, param, List.lookup_cons, hne, ih, List.find?_cons_of_neg]
      simpa [Text.sameLetters] using hname

end Assignment

namespace Challenge

variable {as : List Assignment}

theorem readParams_trim (t : Text) : readParams t.trim = readParams t := by
  unfold readParams
  rw [Text.map_trim_splitUnquoted_trim (by decide) (by decide)]

theorem readParams_assignments (hne : as ≠ []) :
    readParams (Assignment.join as) = .ok (as.map Assignment.param) := by
  have hparted : Text.Parted ',' (as.map Assignment.text) := by
    refine Text.parted_of_closed (by simpa using hne) ?_
    simp only [List.mem_map]
    rintro _ ⟨a, -, rfl⟩
    exact a.closed_text
  have hpieces : (Assignment.join as).splitUnquoted ',' = as.map Assignment.text :=
    (Text.splitUnquoted_join_iff _ _).mpr hparted
  have hkept : ((as.map Assignment.text).map Text.trim).filter (· ≠ []) =
      (as.map Assignment.text).map Text.trim := by
    rw [List.filter_eq_self]
    simp [Assignment.trim_text]
  rw [readParams, hpieces, hkept, mapM_eq_ok_iff, List.map_map, List.forall₂_map_left_iff,
    List.forall₂_map_right_iff, List.forall₂_same]
  exact fun a _ => a.readParam_trim

theorem trim_scheme_append {scheme body : Text} (hscheme : IsToken scheme) (hbody : '"' ∈ body) :
    Text.trim (scheme ++ ' ' :: body) = scheme ++ ' ' :: body.trimEnd := by
  obtain ⟨before, after, rfl⟩ := List.append_of_mem hbody
  have hstart : Text.trimStart (scheme ++ ' ' :: before) = scheme ++ ' ' :: before := by
    rw [Text.trimStart_eq_self_iff]
    intro c hc
    rw [List.head?_append_of_ne_nil _ hscheme.1] at hc
    exact hscheme.not_blank (List.mem_of_head? hc)
  have hsplit : scheme ++ ' ' :: (before ++ '"' :: after) = (scheme ++ ' ' :: before) ++ '"' :: after := by
    simp
  rw [hsplit, Text.trim_append_cons (by decide), hstart, Text.trimEnd_append_cons (by decide)]
  simp

end Challenge

/-- A challenge is read as it was written. -/
theorem Challenge.read_assignments (side : Side) {scheme lead : Text} {as : List Assignment}
    (hlead : ∀ c ∈ lead, Text.isBlank c = true) (hscheme : IsToken scheme) (hne : as ≠ []) :
    ∃ c, Challenge.read side (lead ++ scheme ++ ' ' :: Assignment.join as) = .ok c ∧
      c.side = side ∧ c.scheme = scheme.lower ∧ c.token = none ∧
        c.params = as.map (fun a => (a.name.lower, a.value)) ∧
          ∀ name, c.param? name = (as.find? fun a => a.name.sameLetters name).map (·.value) := by
  have hquote := Assignment.quote_mem_join hne
  have hrest : '"' ∈ (Assignment.join as).trim := (Text.mem_trim_iff (by decide)).mpr hquote
  have htrim : Text.trim (lead ++ scheme ++ ' ' :: Assignment.join as) =
      scheme ++ ' ' :: (Assignment.join as).trimEnd := by
    rw [List.append_assoc, Text.trim_append_left hlead, trim_scheme_append hscheme hquote]
  have hcut : Text.cut? Text.isBlank (scheme ++ ' ' :: (Assignment.join as).trimEnd) =
      some (scheme, (Assignment.join as).trimEnd) :=
    Text.cut?_append_cons (fun c hc => hscheme.not_blank hc) (by decide)
  have htoken : ¬ (scheme = [] ∨ ¬ scheme.all isTokenChar = true) := by
    simpa [IsToken] using hscheme
  refine ⟨{ side, scheme := scheme.lower, params := as.map Assignment.param }, ?_, rfl, rfl, rfl, rfl,
    Assignment.lookup_param as⟩
  simp only [Challenge.read, htrim, hcut, Text.trimEnd_trim, if_neg htoken,
    if_neg (List.ne_nil_of_mem hrest), isToken68_eq_false hrest, readParams_trim,
    readParams_assignments hne]
  rfl

theorem Challenge.read_assignments_digest :
    (IsToken "Digest" ∧ ∀ c ∈ (" " : Text), Text.isBlank c = true) ∧
      ∃ c, Challenge.read .target " Digest Realm=\"a\\\"b, c=\\\\\"\t, realm=\"\" " = .ok c ∧
        c.params = [("realm".toList, "a\"b, c=\\".toList), ("realm".toList, [])] ∧
          c.param? "REALM" = some "a\"b, c=\\".toList := by
  have hscheme : IsToken "Digest" := by decide
  have hlead : ∀ c ∈ (" " : Text), Text.isBlank c = true := by simp [Text.isBlank]
  let as : List Assignment := [⟨[], "Realm", "a\"b, c=\\", "\t", by simp [Text.isBlank], by decide⟩,
    ⟨" ", "realm", [], " ", by simp [Text.isBlank], by decide⟩]
  obtain ⟨c, hread, -, -, -, hparams, hparam⟩ :=
    Challenge.read_assignments .target hlead hscheme (List.cons_ne_nil _ _ : as ≠ [])
  exact ⟨⟨hscheme, hlead⟩, c, hread, hparams, (hparam "REALM").trans rfl⟩

end HttpSession.Auth
