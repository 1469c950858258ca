import HttpSession.Proofs.Cookie.PolicyLaws
import HttpSession.Proofs.Cookie.ReadLaws

/-!
# Cookie headers

What best match writes for some cookies is a list of parts with semicolons between them: one for every
cookie, and around them what the policy says of its own. The strict rules put quotes around values, the
compatible ones write them as they are, and which rules write does not depend on which rules read.

Main statement: the cookies of a header can be read back from it exactly if no part shows a semicolon
outside quotes, none but the last leaves quotes open, and no value that is to be quoted is quoted
already (`Policy.format_read_iff`). Not all headers are so (`Policy.format_read_fails`).
-/

namespace HttpSession.Cookie

-- ---------------------------------------------------------------------------
-- Parts
-- ---------------------------------------------------------------------------

/-- A part of a cookie header: what is written for a cookie, or what a policy says of its own. -/
structure HeaderPart where
  cookie : Option Cookie
  text : Text

namespace HeaderPart

def own (text : Text) : HeaderPart := ⟨none, text⟩

def written (quotes : Bool) (value : Text) : Text := if quotes then '"' :: (value ++ ['"']) else value

def ofCookie (quotes : Bool) (lead : Text) (c : Cookie) : HeaderPart :=
  ⟨some c, lead ++ c.name ++ '=' :: written quotes c.value⟩

/-- Whether a part can be read from a piece of a header. The parts of a policy stand there as they are;
a cookie shows its name before the first equals sign and its value behind it, for those who take quotes
off. -/
def IsReadFrom (p : HeaderPart) (piece : Text) : Prop :=
  match p.cookie with
  | none => piece = p.text
  | some c => ∃ before after, piece.cut? (· = '=') = some (before, after) ∧ before.trim = c.name ∧
      after.unquote = c.value.unquote

end HeaderPart

open HeaderPart (own ofCookie written)

def Compatibility.parts : List Cookie → List HeaderPart
  | [] => []
  | c :: rest => ofCookie false [] c :: rest.map (ofCookie false [' '])

namespace Strict

def portPart (ports : Option (List Nat)) : Text :=
  match ports.getD [] with
  | [] => " $Port"
  | ports => " $Port=\"" ++ Text.join "," (ports.map Text.ofNat) ++ "\""

def given (c : Cookie) : List Text :=
  (if c.pathGiven then [" $Path=\"" ++ c.path ++ "\""] else []) ++
    (if c.domainGiven then [" $Domain=\"" ++ c.domain ++ "\""] else []) ++
      if c.portGiven then [portPart c.ports] else []

def partsOf (c : Cookie) : List HeaderPart := ofCookie true [' '] c :: (given c).map own

def parts (cookies : List Cookie) : List HeaderPart :=
  own ("$Version=" ++ Text.ofNat ((leastVersion? cookies).getD 0)) ::
    (cookies.mergeSort fun c d => pathSize d ≤ pathSize c).flatMap partsOf

end Strict

def Policy.writesStrict (cookies : List Cookie) : Bool := 0 < (Strict.leastVersion? cookies).getD 0

def Policy.parts (cookies : List Cookie) : List HeaderPart :=
  if writesStrict cookies then Strict.parts cookies else Compatibility.parts cookies

-- ---------------------------------------------------------------------------
-- Headers are their parts
-- ---------------------------------------------------------------------------

theorem Compatibility.format_eq (cookies : List Cookie) :
    format cookies = Text.join [';'] ((parts cookies).map (·.text)) := by
  cases cookies with
  | nil => rfl
  | cons c rest =>
    rw [format, List.map_cons, Text.join_cons, parts, List.map_cons, Text.join_cons]
    simp [List.flatMap_map, ofCookie, written]

theorem Strict.formatPorts_eq (ports : Option (List Nat)) : formatPorts ports = ';' :: portPart ports := by
  unfold formatPorts portPart
  cases ports.getD [] <;> simp

theorem Strict.formatOne_eq (c : Cookie) :
    formatOne c = ((partsOf c).map (·.text)).flatMap ([';'] ++ ·) := by
  have hone (b : Bool) (t : Text) :
      (if b then [t] else []).flatMap ([';'] ++ ·) = if b then ';' :: t else [] := by
    cases b <;> simp
  have hgiven : ((given c).map own).map (·.text) = given c := by
    simp [own, Function.comp_def]
  have hpath : ("; $Path=\"" : Text) = ';' :: " $Path=\"" := by simp
  have hdomain : ("; $Domain=\"" : Text) = ';' :: " $Domain=\"" := by simp
  have hlead : ("; " : Text) = [';', ' '] := by simp
  have hopening : ("=\"" : Text) = ['=', '"'] := by simp
  have hclosing : ("\"" : Text) = ['"'] := by simp
  rw [partsOf, List.map_cons, List.flatMap_cons, hgiven, given, List.flatMap_append,
    List.flatMap_append, hone, hone, hone]
  unfold formatOne
  simp only [formatPorts_eq, hpath, hdomain, hlead, hopening, hclosing]
  -- as long as they are literals, `simp` reads them anew for every lemma it tries
  generalize (" $Path=\"" : Text) = path, (" $Domain=\"" : Text) = domain
  simp only [ofCookie, written, if_true, List.append_assoc, List.cons_append, List.nil_append]

theorem Strict.format_eq (cookies : List Cookie) :
    format cookies = Text.join [';'] ((parts cookies).map (·.text)) := by
  have hparts (l : List Cookie) :
      l.flatMap formatOne = ((l.flatMap partsOf).map (·.text)).flatMap ([';'] ++ ·) := by
    rw [List.map_flatMap, List.flatMap_assoc]
    exact List.flatMap_congr fun c _ => formatOne_eq c
  unfold format parts
  generalize ("$Version=" : Text) ++ Text.ofNat _ = version
  rw [List.map_cons, Text.join_cons]
  exact congrArg (version ++ ·) (hparts _)

theorem Policy.text_bestMatch (cookies : List Cookie) :
    Policy.bestMatch.text cookies = some (Text.join [';'] ((parts cookies).map (·.text))) := by
  by_cases hs : 0 < (Strict.leastVersion? cookies).getD 0
  · have hw : writesStrict cookies = true := decide_eq_true hs
    rw [parts, if_pos hw, ← Strict.format_eq, text, if_pos hs]
  · have hw : ¬ writesStrict cookies = true := by simpa [writesStrict] using hs
    rw [parts, if_neg hw, ← Compatibility.format_eq, text, if_neg hs]

-- ---------------------------------------------------------------------------
-- Which parts there are
-- ---------------------------------------------------------------------------

theorem Strict.cookies_partsOf (c : Cookie) : (partsOf c).filterMap (·.cookie) = [c] := by
  simp [partsOf, ofCookie, own, List.filterMap_map, Function.comp_def]

theorem Strict.cookies_parts (cookies : List Cookie) :
    ((parts cookies).filterMap (·.cookie)).Perm cookies := by
  have hflat (l : List Cookie) : (l.flatMap partsOf).filterMap (·.cookie) = l := by
    induction l with
    | nil => rfl
    | cons c rest ih => rw [List.flatMap_cons, List.filterMap_append, cookies_partsOf, ih]; rfl
  have hparts : (parts cookies).filterMap (·.cookie) =
      cookies.mergeSort fun c d => pathSize d ≤ pathSize c := hflat _
  rw [hparts]
  exact List.mergeSort_perm _ _

theorem Compatibility.cookies_parts (cookies : List Cookie) :
    (parts cookies).filterMap (·.cookie) = cookies := by
  cases cookies with
  | nil => rfl
  | cons c rest => simp [parts, ofCookie, List.filterMap_map, Function.comp_def]

theorem Policy.cookies_parts (cookies : List Cookie) :
    ((parts cookies).filterMap (·.cookie)).Perm cookies := by
  unfold parts
  split
  · exact Strict.cookies_parts cookies
  · rw [Compatibility.cookies_parts]

theorem Policy.eq_of_mem_parts {cookies : List Cookie} {p : HeaderPart} (h : p ∈ parts cookies) :
    (∃ text, p = own text) ∨ ∃ c ∈ cookies, ∃ lead, (lead = [] ∨ lead = [' ']) ∧
      p = ofCookie (writesStrict cookies) lead c := by
  unfold parts at h
  split at h
  · rename_i hs
    rw [hs]
    rcases List.mem_cons.mp h with rfl | h
    · exact .inl ⟨_, rfl⟩
    · obtain ⟨c, hc, h⟩ := List.mem_flatMap.mp h
      rcases List.mem_cons.mp h with rfl | h
      · exact .inr ⟨c, (List.mergeSort_perm _ _).mem_iff.mp hc, [' '], .inr rfl, rfl⟩
      · obtain ⟨text, -, rfl⟩ := List.mem_map.mp h
        exact .inl ⟨text, rfl⟩
  · rename_i hs
    rw [Bool.not_eq_true] at hs
    rw [hs]
    cases cookies with
    | nil => cases h
    | cons c rest =>
      rcases List.mem_cons.mp h with rfl | h
      · exact .inr ⟨c, List.mem_cons_self, [], .inl rfl, rfl⟩
      · obtain ⟨d, hd, rfl⟩ := List.mem_map.mp h
        exact .inr ⟨d, List.mem_cons_of_mem _ hd, [' '], .inr rfl, rfl⟩

-- ---------------------------------------------------------------------------
-- Reading parts back
-- ---------------------------------------------------------------------------

namespace HeaderPart

section
variable {quotes : Bool} {lead piece : Text} {c : Cookie} {p : HeaderPart}

theorem count_written (value : Text) : (written quotes value).count ';' = value.count ';' := by
  cases quotes <;> simp [written, List.count_append]

theorem unquote_written (value : Text) :
    (written quotes value).unquote = if quotes then value else value.unquote := by
  cases quotes
  · rfl
  · exact Text.unquote_quoted value

theorem cut?_text (hl : lead = [] ∨ lead = [' ']) (hn : IsName c.name) :
    (ofCookie quotes lead c).text.cut? (· = '=') = some (lead ++ c.name, written quotes c.value) := by
  refine Text.cut?_append_cons ?_ (by simp)
  intro d hd
  rw [decide_eq_false_iff_not]
  rintro rfl
  rcases List.mem_append.mp hd with hd | hd
  · rcases hl with rfl | rfl <;> simp at hd
  · exact hn.unequal hd

/-- A cookie is read from the very part that is written for it, unless quotes are put around quotes. -/
theorem isReadFrom_text_iff (hl : lead = [] ∨ lead = [' ']) (hn : IsName c.name) :
    (ofCookie quotes lead c).IsReadFrom (ofCookie quotes lead c).text ↔
      (quotes = true → c.value.quoted? = none) := by
  have hname : (lead ++ c.name).trim = c.name := by
    rcases hl with rfl | rfl
    · exact hn.trimmed
    · exact (Text.trim_cons (by decide) _).trans hn.trimmed
  have hvalue : (written quotes c.value).unquote = c.value.unquote ↔
      (quotes = true → c.value.quoted? = none) := by
    rw [unquote_written, ← Text.unquote_eq_self_iff]
    cases quotes <;> simp [eq_comm]
  rw [← hvalue]
  constructor
  · rintro ⟨before, after, hcut, -, hafter⟩
    rw [cut?_text hl hn] at hcut
    obtain ⟨rfl, rfl⟩ := Prod.mk.inj (Option.some.inj hcut)
    exact hafter
  · exact fun h => ⟨_, _, cut?_text hl hn, hname, h⟩

/-- A piece from which a cookie is read shows as many semicolons as the part for it. -/
theorem count_of_isReadFrom (hl : lead = [] ∨ lead = [' '])
    (h : (ofCookie quotes lead c).IsReadFrom piece) :
    (ofCookie quotes lead c).text.count ';' = piece.count ';' := by
  obtain ⟨before, after, hcut, hname, hvalue⟩ := h
  obtain ⟨d, hd, rfl, -⟩ := Text.eq_of_cut? hcut
  obtain rfl := of_decide_eq_true hd
  have hbefore : c.name.count ';' = before.count ';' := by
    rw [← hname, Text.count_trim (by decide)]
  have hafter : c.value.count ';' = after.count ';' := by
    rw [← Text.count_unquote (by decide) c.value, ← hvalue, Text.count_unquote (by decide)]
  have hlead : lead.count ';' = 0 := by rcases hl with rfl | rfl <;> rfl
  simp [ofCookie, List.count_append, count_written, hbefore, hafter, hlead]

end

end HeaderPart

namespace Policy

def Admits (p : Policy) (c : Cookie) : Prop :=
  ∃ now source origin value cookies, p.read now source origin value = .ok cookies ∧ c ∈ cookies ∧
    p.validate c origin = .ok ()

theorem Admits.isName {p : Policy} {c : Cookie} (h : p.Admits c) : IsName c.name := by
  obtain ⟨now, source, origin, value, cookies, hread, hc, -⟩ := h
  exact isName_of_read hread hc

section
variable {cookies : List Cookie} {pieces : List Text}

/-- Parts can be read from no other pieces of one text than from their own. -/
theorem eq_of_isReadFrom (hj : Text.join [';'] pieces = Text.join [';'] ((parts cookies).map (·.text)))
    (h : List.Forall₂ HeaderPart.IsReadFrom (parts cookies) pieces) :
    (parts cookies).map (·.text) = pieces := by
  -- trimming and unquoting take no semicolon, so the pieces have as many as the parts, one by one
  refine Text.eq_of_join_eq hj.symm (List.forall₂_map_left_iff.mpr ?_)
  refine ((List.forall₂_and_left _ _).mpr ⟨fun p hp => hp, h⟩).imp ?_
  rintro p piece ⟨hp, hread⟩
  rcases eq_of_mem_parts hp with ⟨text, rfl⟩ | ⟨c, -, lead, hl, rfl⟩
  · exact congrArg (List.count ';') (Eq.symm hread)
  · exact HeaderPart.count_of_isReadFrom hl hread

theorem isReadFrom_texts_iff (hn : ∀ c ∈ cookies, IsName c.name) :
    List.Forall₂ HeaderPart.IsReadFrom (parts cookies) ((parts cookies).map (·.text)) ↔
      (writesStrict cookies = true → ∀ c ∈ cookies, c.value.quoted? = none) := by
  rw [List.forall₂_map_right_iff, List.forall₂_same]
  constructor
  · intro h hs c hc
    obtain ⟨p, hp, hcookie⟩ := List.mem_filterMap.mp ((cookies_parts cookies).mem_iff.mpr hc)
    have hread := h p hp
    rcases eq_of_mem_parts hp with ⟨text, rfl⟩ | ⟨d, hd, lead, hl, rfl⟩
    · cases hcookie
    · obtain rfl := Option.some.inj hcookie
      exact (HeaderPart.isReadFrom_text_iff hl (hn d hd)).mp hread hs
  · intro h p hp
    rcases eq_of_mem_parts hp with ⟨text, rfl⟩ | ⟨c, hc, lead, hl, rfl⟩
    · exact rfl
    · exact (HeaderPart.isReadFrom_text_iff hl (hn c hc)).mpr fun hs => h hs c hc

/-- The header that best match writes for cookies it admits has one part for each of them. All of them
are read back where it is split exactly if its parts are parted there and nowhere else, and no value is
quoted already that is put in quotes. -/
theorem format_read_iff {bytes : Bytes} (h : ∀ c ∈ cookies, Policy.bestMatch.Admits c)
    (hb : Policy.bestMatch.format cookies = some bytes) :
    ∃ text, Policy.bestMatch.text cookies = some text ∧ HeaderValue.ofText? text = some bytes ∧
      ((parts cookies).filterMap (·.cookie)).Perm cookies ∧
      (List.Forall₂ HeaderPart.IsReadFrom (parts cookies) (text.splitUnquoted ';') ↔
        Text.Parted ';' ((parts cookies).map (·.text)) ∧
          (writesStrict cookies = true → ∀ c ∈ cookies, c.value.quoted? = none)) := by
  have htext := text_bestMatch cookies
  have hbytes : HeaderValue.ofText? (Text.join [';'] ((parts cookies).map (·.text))) = some bytes := by
    unfold format at hb
    split at hb
    · cases hb
    · rw [htext] at hb
      exact hb
  refine ⟨_, htext, hbytes, cookies_parts cookies, ?_⟩
  rw [← Text.splitUnquoted_join_iff, ← isReadFrom_texts_iff fun c hc => (h c hc).isName]
  constructor
  · intro hread
    have heq := eq_of_isReadFrom (Text.join_splitUnquoted _ _) hread
    exact ⟨heq.symm, heq ▸ hread⟩
  · rintro ⟨hsplit, hread⟩
    rw [hsplit]
    exact hread

end

def takenFrom (value : Text) : List Cookie :=
  Cookie.acceptedFrom ⟨.bestMatch, .of "a.example" 80 "/" false⟩ .epoch .setCookie (Utf8.encode value)

theorem admits_of_mem_takenFrom {value : Text} {c : Cookie} (h : c ∈ takenFrom value) :
    Policy.bestMatch.Admits c := by
  obtain ⟨text, cookies, -, hread, hc, hvalid⟩ := mem_acceptedFrom h
  exact ⟨_, _, _, _, _, hread, hc, hvalid⟩

def quotedCookies : List Cookie := takenFrom "a=\"x;y\"" ++ takenFrom "b=2"

theorem format_read_quoted :
    List.Forall₂ HeaderPart.IsReadFrom (parts quotedCookies) (Text.splitUnquoted ';' "a=\"x;y\"; b=2") := by
  have hadmits : ∀ c ∈ quotedCookies, Policy.bestMatch.Admits c := fun c hc =>
    (List.mem_append.mp hc).elim admits_of_mem_takenFrom admits_of_mem_takenFrom
  have hbytes : Policy.bestMatch.format quotedCookies = some (Utf8.encode "a=\"x;y\"; b=2") := by
    decide +kernel
  obtain ⟨text, htext, -, -, hread⟩ := format_read_iff hadmits hbytes
  have hwritten : Policy.bestMatch.text quotedCookies = some ("a=\"x;y\"; b=2" : Text) := by
    decide +kernel
  rw [hwritten] at htext
  obtain rfl := Option.some.inj htext
  exact hread.mpr ⟨by decide +kernel, fun hs => absurd hs (by decide +kernel)⟩

/-- Cookies of one header value, which lose their quotes when they are read and do not get them back
when they are written, since one of them has no version. -/
def mixedCookies : List Cookie := takenFrom "a=\"x;y\"; Version=1, b=2; Version=0"

/-- Not every header can be read back: the value of a cookie may add another one. -/
theorem format_read_fails :
    ¬ ∀ (cookies : List Cookie) (bytes : Bytes) (text : Text),
      (∀ c ∈ cookies, Policy.bestMatch.Admits c) → Policy.bestMatch.format cookies = some bytes →
        Policy.bestMatch.text cookies = some text →
          List.Forall₂ HeaderPart.IsReadFrom (parts cookies) (text.splitUnquoted ';') := by
  intro hall
  have hread := hall mixedCookies (Utf8.encode "a=x;y; b=2") "a=x;y; b=2"
    (fun c => admits_of_mem_takenFrom) (by decide +kernel) (by decide +kernel)
  have hlength : (parts mixedCookies).length ≠ (Text.splitUnquoted ';' "a=x;y; b=2").length := by
    decide +kernel
  exact hlength hread.length_eq

/-- Quotes are put around the quotes of a value that the compatible rules read and the strict ones
write. -/
example : Policy.bestMatch.text (Cookie.acceptedFrom ⟨.bestMatch, .of "a.example" 80 "/" false⟩ .epoch
    .setCookie (Utf8.encode "a=\"x;y\"; Version=1; Expires=Wed, 21 Oct 2015 07:28:00 GMT")) =
      some ("$Version=1; a=\"\"x;y\"\"" : Text) := by
  decide +kernel

end Policy

end HttpSession.Cookie
