import HttpSession.Proofs.Cookie.ElementLaws
import HttpSession.Proofs.Cookie.PolicyLaws
import HttpSession.Proofs.Cookie.Visits

/-!
# Best match and the policies it is made of

Best match is one policy or the other, decided twice: when a header is read, by the versions that it
names as one element, and afterwards by the version of each cookie. A session whose headers all decide
the same way decides so ever after, for the cookies it keeps are of the versions that their headers
name.

Main statement: without versions a session under best match is one under compatibility, but for the
header that tells the version; with versions throughout it is one under the strict policy
(`bestMatch_refines`).
-/

namespace HttpSession.Cookie

-- ---------------------------------------------------------------------------
-- Versions
-- ---------------------------------------------------------------------------

def Element.firstVersion? (e : Element) : Option Nat :=
  (e.attributes.find? (·.name = ("version" : Text))).bind fun a =>
    (readVersion (a.value.map Text.unquote)).toOption

section
variable {now : Instant} {origin : Origin} {fromSetCookie2 : Bool} {e : Element} {c c' : Cookie}
  {a : Attribute} {attributes : List Attribute} {version : Nat}

theorem Element.firstVersion?_eq_some_iff : e.firstVersion? = some version ↔
    ∃ a, e.attributes.find? (·.name = ("version" : Text)) = some a ∧
      readVersion (a.value.map Text.unquote) = .ok version := by
  have hok (reading : Except Malformation Nat) :
      reading.toOption = some version ↔ reading = .ok version := by
    cases reading <;> simp [Except.toOption]
  simp only [firstVersion?, Option.bind_eq_some_iff, hok]

theorem Attribute.name_of_find? {name : Text} (h : attributes.find? (·.name = name) = some a) :
    a.name = name := by
  simpa using List.find?_some h

theorem Strict.firstOccurrences_eq_of_find? {name : Text}
    (h : attributes.find? (·.name = name) = some a) :
    ∃ before after, firstOccurrences attributes = before ++ a :: after ∧ ∀ b ∈ after, b.name ≠ name := by
  induction attributes with
  | nil => cases h
  | cons b rest ih =>
    by_cases hb : b.name = name
    · rw [List.find?_cons_of_pos (by simpa using hb)] at h
      obtain rfl := Option.some.inj h
      refine ⟨[], _, rfl, fun d hd => ?_⟩
      rw [← hb]
      simpa using (List.mem_filter.mp hd).2
    · rw [List.find?_cons_of_neg (by simpa using hb)] at h
      obtain ⟨before, after, heq, hafter⟩ := ih h
      have ha : a.name ≠ b.name := by
        rw [Attribute.name_of_find? h]
        exact Ne.symm hb
      refine ⟨b :: before.filter (·.name ≠ b.name), after.filter (·.name ≠ b.name), ?_, fun d hd => ?_⟩
      · simp [firstOccurrences, heq, ha]
      · exact hafter d (List.mem_filter.mp hd).1

theorem Strict.version_of_apply (ha : a.name = "version") (h : apply now origin c a = .ok c') :
    readVersion (a.value.map Text.unquote) = .ok c'.version := by
  unfold apply at h
  rw [ha] at h
  obtain ⟨version, hversion, rfl⟩ := map_ok_iff.mp h
  exact hversion

theorem Strict.version_of_ofElement (h : ofElement now fromSetCookie2 origin e = .ok c)
    (hv : e.firstVersion? = some version) : c.version = version := by
  obtain ⟨a, hfirst, hread⟩ := Element.firstVersion?_eq_some_iff.mp hv
  obtain ⟨before, after, heq, hafter⟩ := firstOccurrences_eq_of_find? hfirst
  rw [ofElement, heq, List.foldlM_append] at h
  obtain ⟨c₁, -, h⟩ := bind_ok_iff.mp h
  rw [List.foldlM_cons] at h
  obtain ⟨c₂, happly, h⟩ := bind_ok_iff.mp h
  have hkept : c.version = c₂.version :=
    aspect_version.foldlM id h (fun _ _ _ => apply_changed) fun b hb hmem =>
      hafter b hb (List.mem_singleton.mp hmem)
  have hgiven := version_of_apply (Attribute.name_of_find? hfirst) happly
  rw [hread] at hgiven
  exact hkept.trans (Except.ok.inj hgiven).symm

theorem Element.exists_of_firstVersion?_pos (h : 0 < e.firstVersion?.getD 0) :
    ∃ version, e.firstVersion? = some version ∧ 0 < version := by
  cases hfirst : e.firstVersion? with
  | none =>
    rw [hfirst] at h
    cases h
  | some version =>
    rw [hfirst] at h
    exact ⟨version, rfl, h⟩

theorem Element.valued_of_firstVersion? (h : e.firstVersion? = some version) :
    ∃ a ∈ e.attributes, a.name = "version" ∧ a.value.isSome = true := by
  obtain ⟨a, hfirst, hread⟩ := firstVersion?_eq_some_iff.mp h
  refine ⟨a, List.mem_of_find?_eq_some hfirst, Attribute.name_of_find? hfirst, ?_⟩
  cases hvalue : a.value with
  | none =>
    rw [hvalue] at hread
    cases hread
  | some value => rfl

end

-- ---------------------------------------------------------------------------
-- Values of headers
-- ---------------------------------------------------------------------------

def Unversioned (source : Source) (value : Text) : Prop :=
  source = .setCookie ∧ ∀ e, Element.read value = .ok e → e.has "version" = false

theorem Element.not_isVersioned {e : Element} (h : e.has "version" = false) : ¬ e.isVersioned = true := by
  rw [isVersioned, h]
  exact Bool.false_ne_true

/-- Whether a value has elements, each of which names a positive version first and no date. -/
def Versioned (value : Text) : Prop :=
  ∃ elements, Element.readAll value = .ok elements ∧ elements ≠ [] ∧
    ∀ e ∈ elements, 0 < e.firstVersion?.getD 0 ∧ e.has "expires" = false

section
variable {now : Instant} {source : Source} {o : Origin} {value : Text} {cookies : List Cookie}
  {c : Cookie}

namespace Unversioned

theorem read_eq (h : Unversioned source value) (now : Instant) (o : Origin) :
    Policy.bestMatch.read now source o value = Policy.compatibility.read now source o value := by
  obtain ⟨rfl, hversion⟩ := h
  show Policy.readBestMatch now .setCookie o value = Compatibility.read now o value
  cases hread : Element.read value with
  | error malformation =>
    rw [Policy.readBestMatch, Compatibility.read, hread]
    rfl
  | ok e =>
    rw [Policy.readBestMatch, hread]
    exact if_neg (Element.not_isVersioned (hversion e hread))

theorem version_eq (h : Unversioned source value)
    (hread : Policy.compatibility.read now source o value = .ok cookies) (hc : c ∈ cookies) :
    c.version = 0 := by
  obtain ⟨rfl, hversion⟩ := h
  obtain ⟨elements, helements, e, he, hmade⟩ := Compatibility.exists_of_mem_read hread hc
  obtain ⟨first, hfirst, helements⟩ := bind_ok_iff.mp helements
  have hnone := hversion first hfirst
  rw [if_neg (Element.not_isVersioned hnone)] at helements
  obtain rfl := Except.ok.inj helements
  obtain rfl := List.mem_singleton.mp he
  exact Compatibility.ofElement_aspect aspect_version hmade fun a => Element.not_mem_of_has_eq_false hnone

end Unversioned

namespace Versioned

theorem isVersioned (h : Versioned value) : ∃ e, Element.read value = .ok e ∧ e.isVersioned = true := by
  obtain ⟨elements, helements, hne, hversion⟩ := h
  refine Element.isVersioned_of_readAll helements hne (fun e he => ?_) fun e he => (hversion e he).2
  obtain ⟨version, hfirst, -⟩ := Element.exists_of_firstVersion?_pos (hversion e he).1
  exact Element.valued_of_firstVersion? hfirst

theorem read_eq (h : Versioned value) (now : Instant) (source : Source) (o : Origin) :
    Policy.bestMatch.read now source o value = Policy.strict.read now source o value := by
  cases source with
  | setCookie2 => rfl
  | setCookie =>
    obtain ⟨e, hread, hversioned⟩ := h.isVersioned
    show Policy.readBestMatch now .setCookie o value = Strict.read now false o value
    rw [Policy.readBestMatch, hread]
    exact if_pos hversioned

theorem version_pos (h : Versioned value)
    (hread : Policy.strict.read now source o value = .ok cookies) (hc : c ∈ cookies) :
    0 < c.version := by
  obtain ⟨elements, helements, -, hversion⟩ := h
  obtain ⟨elements', helements', e, he, hmade⟩ := Strict.exists_of_mem_read hread hc
  obtain rfl := Except.ok.inj (helements.symm.trans helements')
  obtain ⟨version, hfirst, hpositive⟩ := Element.exists_of_firstVersion?_pos (hversion e he).1
  rwa [Strict.version_of_ofElement hmade hfirst]

end Versioned

end

-- ---------------------------------------------------------------------------
-- Policies that agree
-- ---------------------------------------------------------------------------

/-- Whether two policies read some values alike, into some kind of cookies, and judge and write cookies
of that kind alike; a view of the headers may leave out what they write in different ways. -/
structure Policy.Agree (p q : Policy) (Kind : Cookie → Prop) (Value : Source → Text → Prop)
    (view : Headers → Headers) : Prop where
  read {source value} : Value source value → ∀ now o, p.read now source o value = q.read now source o value
  kind {now source o value cookies c} : Value source value → q.read now source o value = .ok cookies →
    c ∈ cookies → Kind c
  validate {c} : Kind c → ∀ o, p.validate c o = q.validate c o
  isSentTo {c} : Kind c → ∀ o, p.isSentTo c o = q.isSentTo c o
  attach {cookies} : (∀ c ∈ cookies, Kind c) → ∀ request,
    view (Cookie.attach request p cookies) = view (Cookie.attach request q cookies)

def Visit.Brings (Kind : Cookie → Prop) (Value : Source → Text → Prop) : Visit → Prop
  | .attach _ _ _ => True
  | .ingest _ _ response => ∀ source : Source, ∀ bytes ∈ response.values source.header, ∀ value,
    HeaderValue.text? bytes = some value → Value source value
  | .edit (.add _ c) => Kind c
  | .edit _ => True

/-- Whether two visits leave the same behind, as far as some view of the headers goes. -/
structure Outcome.EqualUnder (view : Headers → Headers) (a b : Outcome) : Prop where
  store : a.store = b.store
  accepted : a.accepted = b.accepted
  headers : view a.headers = view b.headers

theorem accepted_eq (rules : Rules) (now : Instant) (h : Headers) :
    accepted rules now h =
      (h.values HeaderName.setCookie).flatMap (acceptedFrom rules now .setCookie) ++
        (h.values HeaderName.setCookie2).flatMap (acceptedFrom rules now .setCookie2) := by
  by_cases hv : 0 < rules.policy.version
  · rw [accepted, if_pos hv]
  · -- a policy that does not look at the second header would find nothing there
    have hnone (bytes : Bytes) : acceptedFrom rules now .setCookie2 bytes = [] := by
      rw [List.eq_nil_iff_forall_not_mem]
      intro c hc
      obtain ⟨text, cookies, -, hread, hmem, -⟩ := mem_acceptedFrom hc
      obtain ⟨policy, o⟩ := rules
      cases policy with
      | bestMatch => exact hv Nat.one_pos
      | strict => exact hv Nat.one_pos
      | compatibility => cases hread
      | ignoring => exact Policy.ne_ignoring_of_read hread hmem rfl
    rw [accepted, if_neg hv, List.flatMap_eq_nil_iff.mpr fun bytes _ => hnone bytes]

namespace Policy.Agree

variable {p q : Policy} {Kind : Cookie → Prop} {Value : Source → Text → Prop}
  {view : Headers → Headers} {now : Instant} {source : Source} {o : Origin} {bytes : Bytes}
  {s : Store} {visit : Visit} {visits : List Visit} {c : Cookie} {response : Headers}

theorem kind_of_mem_acceptedFrom (h : Agree p q Kind Value view)
    (hv : ∀ value, HeaderValue.text? bytes = some value → Value source value)
    (hc : c ∈ acceptedFrom ⟨q, o⟩ now source bytes) : Kind c := by
  obtain ⟨value, cookies, hvalue, hread, hmem, -⟩ := mem_acceptedFrom hc
  exact h.kind (hv value hvalue) hread hmem

theorem acceptedFrom_eq (h : Agree p q Kind Value view)
    (hv : ∀ value, HeaderValue.text? bytes = some value → Value source value) :
    acceptedFrom ⟨p, o⟩ now source bytes = acceptedFrom ⟨q, o⟩ now source bytes := by
  unfold acceptedFrom
  cases hvalue : HeaderValue.text? bytes with
  | none => rfl
  | some value =>
    simp only [h.read (hv value hvalue)]
    cases hread : q.read now source o value with
    | error malformation => rfl
    | ok cookies =>
      refine List.filter_congr fun c hc => ?_
      rw [h.validate (h.kind (hv value hvalue) hread hc)]

theorem accepted_eq (h : Agree p q Kind Value view) (hb : (Visit.ingest o now response).Brings Kind Value) :
    accepted ⟨p, o⟩ now response = accepted ⟨q, o⟩ now response := by
  rw [Cookie.accepted_eq, Cookie.accepted_eq]
  refine congrArg₂ (· ++ ·) ?_ ?_
  · exact List.flatMap_congr fun bytes hbytes => h.acceptedFrom_eq (hb .setCookie bytes hbytes)
  · exact List.flatMap_congr fun bytes hbytes => h.acceptedFrom_eq (hb .setCookie2 bytes hbytes)

theorem kind_of_mem_accepted (h : Agree p q Kind Value view)
    (hb : (Visit.ingest o now response).Brings Kind Value) (hc : c ∈ accepted ⟨q, o⟩ now response) :
    Kind c := by
  obtain ⟨source, bytes, hbytes, hc⟩ := exists_mem_acceptedFrom hc
  exact h.kind_of_mem_acceptedFrom (hb source bytes hbytes) hc

theorem chosen_eq (h : Agree p q Kind Value view) (hs : ∀ c ∈ s.toList, Kind c) :
    s.chosen ⟨p, o⟩ now = s.chosen ⟨q, o⟩ now :=
  List.filter_congr fun c hc => by simp only [h.isSentTo (hs c hc)]

theorem outcome (h : Agree p q Kind Value view) (hs : ∀ c ∈ s.toList, Kind c)
    (hb : visit.Brings Kind Value) :
    Outcome.EqualUnder view (visit.outcome p s) (visit.outcome q s) ∧
      ∀ c ∈ (visit.outcome q s).store.toList, Kind c := by
  cases visit with
  | attach o now request =>
    refine ⟨⟨rfl, rfl, ?_⟩, hs⟩
    show view (Cookie.attach request p (s.chosen ⟨p, o⟩ now)) =
      view (Cookie.attach request q (s.chosen ⟨q, o⟩ now))
    rw [h.chosen_eq hs]
    exact h.attach (fun c hc => hs c (List.mem_filter.mp hc).1) request
  | ingest o now response =>
    have haccepted := h.accepted_eq hb
    refine ⟨⟨congrArg (s.addAll now) haccepted, haccepted, rfl⟩, fun c hc => ?_⟩
    rcases Store.mem_of_mem_addAll hc with hc | hc
    · exact h.kind_of_mem_accepted hb hc
    · exact hs c hc
  | edit change =>
    refine ⟨⟨rfl, rfl, rfl⟩, fun c hc => ?_⟩
    cases change with
    | add now d =>
      rcases Store.mem_of_mem_add hc with rfl | hc
      · exact hb
      · exact hs c hc
    | purge limit => exact hs c (List.mem_filter.mp hc).1
    | clear => cases hc

theorem outcomes (h : Agree p q Kind Value view) (hs : ∀ c ∈ s.toList, Kind c)
    (hb : ∀ visit ∈ visits, visit.Brings Kind Value) :
    List.Forall₂ (Outcome.EqualUnder view) (Cookie.outcomes p s visits) (Cookie.outcomes q s visits) := by
  -- the stores of both sessions are one, and of the kind on which the policies agree
  have hvisit {s t : Store} {visit : Visit} (hst : s = t ∧ ∀ c ∈ t.toList, Kind c)
      (hb : visit.Brings Kind Value) : Outcome.EqualUnder view (visit.outcome p s) (visit.outcome q t) ∧
        (visit.outcome p s).store = (visit.outcome q t).store ∧
          ∀ c ∈ (visit.outcome q t).store.toList, Kind c := by
    obtain ⟨rfl, hs⟩ := hst
    obtain ⟨halike, hkind⟩ := h.outcome hs hb
    exact ⟨halike, halike.store, hkind⟩
  exact forall₂_outcomes hvisit hb ⟨rfl, hs⟩

end Policy.Agree

-- ---------------------------------------------------------------------------
-- What best match agrees with
-- ---------------------------------------------------------------------------

section
variable {cookies : List Cookie}

theorem Strict.exists_of_leastVersion? {version : Nat} (h : leastVersion? cookies = some version) :
    ∃ c ∈ cookies, c.version = version :=
  List.mem_map.mp (List.min?_mem h)

theorem Policy.format_unversioned (h : ∀ c ∈ cookies, c.version = 0) :
    Policy.bestMatch.format cookies = Policy.compatibility.format cookies := by
  have hleast : (Strict.leastVersion? cookies).getD 0 = 0 := by
    cases hl : Strict.leastVersion? cookies with
    | none => rfl
    | some version =>
      obtain ⟨c, hc, rfl⟩ := Strict.exists_of_leastVersion? hl
      exact h c hc
  unfold format text
  rw [hleast]
  rfl

theorem Policy.format_versioned (h : ∀ c ∈ cookies, 0 < c.version) :
    Policy.bestMatch.format cookies = Policy.strict.format cookies := by
  unfold format text
  split
  · rfl
  · rename_i hne
    obtain ⟨version, hl⟩ : ∃ version, Strict.leastVersion? cookies = some version := by
      rw [← Option.ne_none_iff_exists', Strict.leastVersion?, ne_eq, List.min?_eq_none_iff,
        List.map_eq_nil_iff]
      exact hne
    obtain ⟨c, hc, hversion⟩ := Strict.exists_of_leastVersion? hl
    have hpos : 0 < version := hversion ▸ h c hc
    simp only [hl, Option.getD_some, hpos, if_true]

def withCookies (request : Headers) (p : Policy) (cookies : List Cookie) : Headers :=
  match p.format cookies with
  | some value => request.add HeaderName.cookie value
  | none => request

theorem remove_attach (request : Headers) (p : Policy) (cookies : List Cookie) :
    (attach request p cookies).remove HeaderName.cookie2 =
      (withCookies request p cookies).remove HeaderName.cookie2 := by
  show Headers.remove (match p.versionHeader with
    | some value =>
      if needsVersion p cookies then (withCookies request p cookies).add HeaderName.cookie2 value
      else withCookies request p cookies
    | none => withCookies request p cookies) HeaderName.cookie2 = _
  split
  · split
    · rw [Headers.remove_add, if_pos rfl, List.append_nil]
    · rfl
  · rfl

theorem Policy.agree_compatibility :
    Agree .bestMatch .compatibility (·.version = 0) Unversioned (·.remove HeaderName.cookie2) where
  read h := h.read_eq
  kind h hread hc := h.version_eq hread hc
  validate hc _ := if_neg (by simp [hc])
  isSentTo hc _ := if_neg (by simp [hc])
  attach h request := by rw [remove_attach, remove_attach, withCookies, withCookies, format_unversioned h]

theorem Policy.agree_strict :
    Agree .bestMatch .strict (0 < ·.version) (fun _ => Versioned) id where
  read {source _} h now o := h.read_eq now source o
  kind h hread hc := h.version_pos hread hc
  validate hc _ := if_pos hc
  isSentTo hc _ := if_pos hc
  attach h request := by
    unfold Cookie.attach
    rw [format_versioned h]
    rfl

end

/-- Best match refines the policies it is made of, over whole sessions. Where no header names a version
and the store has no versioned cookies, a session under best match leaves behind what one under
compatibility does, but for the header that tells the version. Where every element names a positive
version and no date, and all cookies of the store have one, it leaves behind what one under the strict
policy does. -/
theorem bestMatch_refines (s : Store) (visits : List Visit) :
    ((∀ c ∈ s.toList, c.version = 0) → (∀ visit ∈ visits, visit.Brings (·.version = 0) Unversioned) →
      List.Forall₂ (Outcome.EqualUnder (·.remove HeaderName.cookie2))
        (outcomes .bestMatch s visits) (outcomes .compatibility s visits)) ∧
    ((∀ c ∈ s.toList, 0 < c.version) → (∀ visit ∈ visits, visit.Brings (0 < ·.version) fun _ => Versioned) →
      outcomes .bestMatch s visits = outcomes .strict s visits) := by
  refine ⟨Policy.agree_compatibility.outcomes, fun hs hb => ?_⟩
  have hequal : List.Forall₂ (· = ·) (outcomes .bestMatch s visits) (outcomes .strict s visits) := by
    refine (Policy.agree_strict.outcomes hs hb).imp ?_
    rintro ⟨store, accepted, headers⟩ ⟨_, _, _⟩ ⟨rfl, rfl, rfl⟩
    rfl
  rwa [List.forall₂_eq_eq_eq] at hequal

def setThenSend (response : Headers) : List Visit :=
  [.ingest (.of "a.example" 80 "/" false) .epoch response, .attach (.of "a.example" 80 "/" false) .epoch []]

theorem brings_setThenSend {Kind : Cookie → Prop} {Value : Source → Text → Prop} {response : Headers}
    (h : ∀ source : Source, ∀ bytes ∈ response.values source.header, ∀ value,
      HeaderValue.text? bytes = some value → Value source value) :
    ∀ visit ∈ setThenSend response, visit.Brings Kind Value := by
  intro visit hvisit
  rcases List.mem_pair.mp hvisit with rfl | rfl
  · exact h
  · trivial

def plainResponse : Headers := [(HeaderName.setCookie, Utf8.encode "b=2; Path=/")]

def versionedResponse : Headers :=
  [(HeaderName.setCookie, Utf8.encode "b=\"x,y\"; Version=1, , c=3; Version=\"2\"; Version=0")]

def ofVersion (version : Nat) : Cookie := { name := "a", value := "1", domain := "a.example", version }

theorem bestMatch_refines_setThenSend :
    List.Forall₂ (Outcome.EqualUnder (·.remove HeaderName.cookie2))
      (outcomes .bestMatch ⟨[ofVersion 0]⟩ (setThenSend plainResponse))
      (outcomes .compatibility ⟨[ofVersion 0]⟩ (setThenSend plainResponse)) ∧
    outcomes .bestMatch ⟨[ofVersion 1]⟩ (setThenSend versionedResponse) =
      outcomes .strict ⟨[ofVersion 1]⟩ (setThenSend versionedResponse) := by
  constructor
  · refine (bestMatch_refines ⟨[ofVersion 0]⟩ (setThenSend plainResponse)).1 (by simp [ofVersion]) ?_
    have hvalues : ∀ source : Source, ∀ bytes ∈ plainResponse.values source.header,
        source = .setCookie ∧ HeaderValue.text? bytes = some ("b=2; Path=/" : Text) := by
      intro source
      cases source <;> decide +kernel
    have hread : Element.read "b=2; Path=/" = .ok ⟨"b", "2", [⟨"path", some "/"⟩]⟩ := by decide +kernel
    refine brings_setThenSend fun source bytes hbytes value hvalue => ?_
    obtain ⟨rfl, htext⟩ := hvalues source bytes hbytes
    obtain rfl := Option.some.inj (htext.symm.trans hvalue)
    refine ⟨rfl, fun e he => ?_⟩
    obtain rfl := Except.ok.inj (hread.symm.trans he)
    decide
  · refine (bestMatch_refines ⟨[ofVersion 1]⟩ (setThenSend versionedResponse)).2 (by simp [ofVersion]) ?_
    have hvalues : ∀ source : Source, ∀ bytes ∈ versionedResponse.values source.header,
        HeaderValue.text? bytes = some ("b=\"x,y\"; Version=1, , c=3; Version=\"2\"; Version=0" : Text) := by
      intro source
      cases source <;> decide +kernel
    refine brings_setThenSend fun source bytes hbytes value hvalue => ?_
    obtain rfl := Option.some.inj ((hvalues source bytes hbytes).symm.trans hvalue)
    refine ⟨[⟨"b", "\"x,y\"", [⟨"version", some "1"⟩]⟩,
      ⟨"c", "3", [⟨"version", some "\"2\""⟩, ⟨"version", some "0"⟩]⟩], ?_, ?_, ?_⟩ <;> decide +kernel

end HttpSession.Cookie
