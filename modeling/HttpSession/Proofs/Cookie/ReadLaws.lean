import HttpSession.Cookie.Policy
import HttpSession.Proofs.ExceptLaws
import HttpSession.Proofs.Text.Laws

/-!
# Laws of reading cookies

What a cookie that was read has from its element and what from its attributes. Either policy starts
from a cookie that its origin would set by itself, and every attribute changes what it is about and
nothing else, so what no attribute is about stays as it was.

Main statements: the name of a cookie is not empty, has no blanks around it and no equals sign in it
(`Policy.isName_of_read`); best match makes every cookie by the rules that suit the first element
(`readBestMatch_ok`).
-/

namespace HttpSession.Cookie

-- ---------------------------------------------------------------------------
-- Names
-- ---------------------------------------------------------------------------

structure IsName (name : Text) : Prop where
  nonempty : name ≠ []
  trimmed : name.trim = name
  unequal : '=' ∉ name

theorem Element.isName_readPair {t : Text} (ht : t.trim = t) (hne : (readPair t).1 ≠ []) :
    IsName (readPair t).1 := by
  refine ⟨hne, ?_, ?_⟩ <;> unfold readPair <;> split
  · exact Text.trim_trim _
  · exact ht
  · rename_i name value hcut
    obtain ⟨_, -, -, hname⟩ := Text.eq_of_cut? hcut
    intro hmem
    simpa using hname _ (Text.mem_of_mem_trim hmem)
  · rename_i hcut
    intro hmem
    simpa using Text.cut?_eq_none_iff.mp hcut _ hmem

theorem Element.isName_of_read {t : Text} {e : Element} (h : Element.read t = .ok e) :
    IsName e.name := by
  unfold Element.read at h
  split at h
  · cases h
  · rename_i first rest _
    by_cases hne : (readPair first.trim).1 = []
    · simp [hne] at h
    · simp only [hne, if_false] at h
      obtain rfl := Except.ok.inj h
      exact isName_readPair (Text.trim_trim first) hne

theorem Element.isName_of_mem_readAll {t : Text} {elements : List Element} {e : Element}
    (h : Element.readAll t = .ok elements) (he : e ∈ elements) : IsName e.name := by
  obtain ⟨piece, -, hpiece⟩ := exists_of_mem_mapM h he
  exact isName_of_read hpiece

-- ---------------------------------------------------------------------------
-- What attributes change
-- ---------------------------------------------------------------------------

def placings : List Text := ["domain", "path", "port"]

structure ElementData where
  name : Text
  value : Text
  fromSetCookie2 : Bool

def elementData (c : Cookie) : ElementData := ⟨c.name, c.value, c.fromSetCookie2⟩

structure Place where
  domain : Text
  path : Text
  domainGiven : Bool
  portGiven : Bool

def place (c : Cookie) : Place := ⟨c.domain, c.path, c.domainGiven, c.portGiven⟩

/-- Attributes leave alone what they are not about: what a cookie has from its element, and its place if
they do not say where it belongs. -/
structure Keeps (attributes : List Attribute) (c d : Cookie) : Prop where
  elementData : d.elementData = c.elementData
  place : (∀ a ∈ attributes, a.name ∉ placings) → d.place = c.place

inductive Changed (a : Attribute) (c : Cookie) : Cookie → Prop
  | path (name : a.name = "path") (path : Text) : Changed a c { c with path, pathGiven := true }
  | domain (name : a.name = "domain") (domain : Text) :
    Changed a c { c with domain, domainGiven := true }
  | port (name : a.name = "port") (ports : List Nat) :
    Changed a c { c with ports := some ports, portGiven := true }
  | expiry (expiry : Option Instant) : Changed a c { c with expiry }
  | secure : Changed a c { c with secure := true }
  | comment (comment : Option Text) : Changed a c { c with comment }
  | discard : Changed a c { c with discard := true }
  | version (name : a.name = "version") (version : Nat) : Changed a c { c with version }
  | nothing : Changed a c c

/-- Whether no attributes but those of some names change an aspect of cookies. -/
structure Aspect {β : Type} (names : List Text) (f : Cookie → β) : Prop where
  changed : ∀ {a : Attribute} {c d : Cookie}, Changed a c d → a.name ∉ names → f d = f c
  expiry : ∀ (c : Cookie) (expiry : Option Instant), f { c with expiry } = f c

theorem aspect_elementData : Aspect [] elementData where
  changed h _ := by cases h <;> rfl
  expiry _ _ := rfl

theorem aspect_place : Aspect placings place where
  changed h hn := by
    cases h with
    | path name => exact absurd (by simp [placings, name]) hn
    | domain name => exact absurd (by simp [placings, name]) hn
    | port name => exact absurd (by simp [placings, name]) hn
    | _ => rfl
  expiry _ _ := rfl

theorem aspect_domain : Aspect ["domain"] fun c => (c.domain, c.domainGiven) where
  changed h hn := by
    cases h with
    | domain name => exact absurd (by simp [name]) hn
    | _ => rfl
  expiry _ _ := rfl

theorem aspect_version : Aspect ["version"] Cookie.version where
  changed h hn := by
    cases h with
    | version name => exact absurd (by simp [name]) hn
    | _ => rfl
  expiry _ _ := rfl

section
variable {now : Instant} {origin : Origin} {e : Element} {a : Attribute} {c c' : Cookie}
  {attributes : List Attribute} {fromSetCookie2 : Bool} {β : Type} {names : List Text} {f : Cookie → β}

theorem Aspect.foldlM (hf : Aspect names f) {σ : Type} (cookieOf : σ → Cookie)
    {step : σ → Attribute → Except Malformation σ} {s t : σ} (h : attributes.foldlM step s = .ok t)
    (hstep : ∀ a s t, step s a = .ok t → Changed a (cookieOf s) (cookieOf t))
    (hn : ∀ a ∈ attributes, a.name ∉ names) : f (cookieOf t) = f (cookieOf s) := by
  refine foldlM_keeps (P := fun u => f (cookieOf u) = f (cookieOf s)) ?_ h rfl
  intro a ha u v huv hu
  exact (hf.changed (hstep a u v huv) (hn a ha)).trans hu

namespace Compatibility

theorem Draft.apply_changed {d d' : Draft} (h : d.apply now a = .ok d') :
    Changed a d.cookie d'.cookie := by
  unfold Draft.apply at h
  -- the cases are the attributes in the order of the definition
  split at h
  · rename_i hname
    obtain rfl := Except.ok.inj h
    exact .path hname _
  split at h
  · rename_i hname
    split at h
    · cases h
    · cases h
    · obtain rfl := Except.ok.inj h
      exact .domain hname _
  split at h
  · obtain ⟨expiry, -, rfl⟩ := map_ok_iff.mp h
    exact .nothing
  split at h
  · split at h
    · cases h
    · obtain rfl := Except.ok.inj h
      exact .expiry _
  split at h
  · obtain rfl := Except.ok.inj h
    exact .secure
  split at h
  · obtain rfl := Except.ok.inj h
    exact .comment _
  split at h
  · rename_i hname
    obtain ⟨version, -, rfl⟩ := map_ok_iff.mp h
    exact .version hname version
  · obtain rfl := Except.ok.inj h
    exact .nothing

theorem ofElement_aspect (hf : Aspect names f) (h : ofElement now origin e = .ok c)
    (hn : ∀ a ∈ e.attributes, a.name ∉ names) : f c = f (blank e origin) := by
  obtain ⟨d, hd, rfl⟩ := map_ok_iff.mp h
  have hcookie := hf.foldlM Draft.cookie hd (fun _ _ _ => Draft.apply_changed) hn
  unfold Draft.finish
  cases d.maxAge with
  | none => exact hcookie
  | some expiry => exact (hf.expiry d.cookie expiry).trans hcookie

theorem ofElement_keeps (h : ofElement now origin e = .ok c) :
    Keeps e.attributes (blank e origin) c :=
  ⟨ofElement_aspect aspect_elementData h (by simp), ofElement_aspect aspect_place h⟩

end Compatibility

namespace Strict

theorem mem_of_mem_firstOccurrences (h : a ∈ firstOccurrences attributes) : a ∈ attributes := by
  induction attributes with
  | nil => cases h
  | cons b rest ih =>
    rcases List.mem_cons.mp h with rfl | h
    · exact List.mem_cons_self
    · exact List.mem_cons_of_mem _ (ih (List.mem_filter.mp h).1)

theorem apply_changed (h : apply now origin c a = .ok c') : Changed a c c' := by
  simp only [apply] at h
  -- likewise
  split at h
  · rename_i hname
    split at h
    · cases h
    · obtain rfl := Except.ok.inj h
      exact .path hname _
  split at h
  · rename_i hname
    split at h
    · cases h
    · obtain rfl := Except.ok.inj h
      exact .domain hname _
  split at h
  · rename_i hname
    split at h
    · obtain rfl := Except.ok.inj h
      exact .port hname _
    · obtain ⟨ports, -, rfl⟩ := map_ok_iff.mp h
      exact .port hname ports
  split at h
  · obtain ⟨expiry, -, rfl⟩ := map_ok_iff.mp h
    exact .expiry expiry
  split at h
  · obtain rfl := Except.ok.inj h
    exact .secure
  split at h
  · obtain rfl := Except.ok.inj h
    exact .comment _
  split at h
  · obtain rfl := Except.ok.inj h
    exact .discard
  split at h
  · rename_i hname
    obtain ⟨version, -, rfl⟩ := map_ok_iff.mp h
    exact .version hname version
  · obtain rfl := Except.ok.inj h
    exact .nothing

theorem ofElement_aspect (hf : Aspect names f) (h : ofElement now fromSetCookie2 origin e = .ok c)
    (hn : ∀ a ∈ e.attributes, a.name ∉ names) : f c = f (blank e fromSetCookie2 origin) :=
  hf.foldlM id h (fun _ _ _ => apply_changed) fun a ha => hn a (mem_of_mem_firstOccurrences ha)

theorem ofElement_keeps (h : ofElement now fromSetCookie2 origin e = .ok c) :
    Keeps e.attributes (blank e fromSetCookie2 origin) c :=
  ⟨ofElement_aspect aspect_elementData h (by simp), ofElement_aspect aspect_place h⟩

end Strict

end

-- ---------------------------------------------------------------------------
-- Header values
-- ---------------------------------------------------------------------------

theorem Element.not_mem_of_has_eq_false {e : Element} {a : Attribute} {name : Text}
    (h : e.has name = false) (ha : a ∈ e.attributes) : a.name ∉ [name] := by
  simpa using List.any_eq_false.mp h a ha

/-- The elements of a header value: several if the first one is versioned, else one. -/
def Element.listed (value : Text) : Except Malformation (List Element) := do
  let element ← Element.read value
  if element.isVersioned then readAll value else .ok [element]

section
variable {now : Instant} {source : Source} {origin : Origin} {value : Text} {cookies : List Cookie}
  {c : Cookie} {fromSetCookie2 : Bool} {p : Policy}

theorem Element.isName_of_mem_listed {elements : List Element} {e : Element}
    (h : Element.listed value = .ok elements) (he : e ∈ elements) : IsName e.name := by
  obtain ⟨first, hfirst, h⟩ := bind_ok_iff.mp h
  split at h
  · exact isName_of_mem_readAll h he
  · obtain rfl := Except.ok.inj h
    obtain rfl := List.mem_singleton.mp he
    exact isName_of_read hfirst

theorem Compatibility.read_eq (now : Instant) (origin : Origin) (value : Text) :
    Compatibility.read now origin value =
      Element.listed value >>= fun elements => elements.mapM (ofElement now origin) := by
  unfold Compatibility.read Element.listed
  cases Element.read value with
  | error malformation => rfl
  | ok element =>
    show (if element.isVersioned then _ else _) = (if element.isVersioned then _ else _) >>= _
    split <;> rfl

theorem Compatibility.exists_of_mem_read (h : Compatibility.read now origin value = .ok cookies)
    (hc : c ∈ cookies) :
    ∃ elements, Element.listed value = .ok elements ∧ ∃ e ∈ elements, ofElement now origin e = .ok c := by
  rw [read_eq] at h
  obtain ⟨elements, helements, h⟩ := bind_ok_iff.mp h
  exact ⟨elements, helements, exists_of_mem_mapM h hc⟩

theorem Strict.exists_of_mem_read (h : Strict.read now fromSetCookie2 origin value = .ok cookies)
    (hc : c ∈ cookies) :
    ∃ elements, Element.readAll value = .ok elements ∧
      ∃ e ∈ elements, ofElement now fromSetCookie2 origin e = .ok c := by
  obtain ⟨elements, helements, h⟩ := bind_ok_iff.mp h
  exact ⟨elements, helements, exists_of_mem_mapM h hc⟩

/-- Whether a cookie was made of an element by the rules that suit a header value with such a first
element. -/
def MadeOf (now : Instant) (origin : Origin) (first e : Element) (c : Cookie) : Prop :=
  if first.isVersioned then Strict.ofElement now false origin e = .ok c
  else Compatibility.ofElement now origin e = .ok c

/-- Best match reads every element of a header value by the rules that suit the first one. -/
theorem readBestMatch_ok (h : Policy.readBestMatch now .setCookie origin value = .ok cookies) :
    ∃ first elements, Element.read value = .ok first ∧ Element.listed value = .ok elements ∧
      ∀ c ∈ cookies, ∃ e ∈ elements, MadeOf now origin first e c := by
  obtain ⟨first, hfirst, h⟩ := bind_ok_iff.mp h
  by_cases hv : first.isVersioned = true
  · rw [if_pos hv] at h
    obtain ⟨elements, helements, h⟩ := bind_ok_iff.mp h
    refine ⟨first, elements, hfirst, ?_, fun c hc => ?_⟩
    · exact bind_ok_iff.mpr ⟨first, hfirst, by rw [if_pos hv, helements]⟩
    · simp only [MadeOf, hv, if_true]
      exact exists_of_mem_mapM h hc
  · rw [if_neg hv, Compatibility.read_eq] at h
    obtain ⟨elements, helements, h⟩ := bind_ok_iff.mp h
    refine ⟨first, elements, hfirst, helements, fun c hc => ?_⟩
    simp only [MadeOf, hv]
    exact exists_of_mem_mapM h hc

def Policy.elements (p : Policy) (source : Source) (value : Text) : Except Malformation (List Element) :=
  match p, source with
  | .strict, _ | .bestMatch, .setCookie2 => Element.readAll value
  | _, _ => Element.listed value

def MadeBy (strict : Bool) (now : Instant) (source : Source) (origin : Origin) (e : Element)
    (c : Cookie) : Prop :=
  if strict then Strict.ofElement now (source = .setCookie2) origin e = .ok c
  else Compatibility.ofElement now origin e = .ok c

theorem MadeBy.aspect {β : Type} {names : List Text} {f : Cookie → β} {strict : Bool} {e : Element}
    (hf : Aspect names f) (h : MadeBy strict now source origin e c)
    (hn : ∀ a ∈ e.attributes, a.name ∉ names) :
    f c = f (if strict then Strict.blank e (source = .setCookie2) origin
      else Compatibility.blank e origin) := by
  cases strict with
  | true => exact Strict.ofElement_aspect hf h hn
  | false => exact Compatibility.ofElement_aspect hf h hn

theorem Policy.exists_of_mem_read (h : p.read now source origin value = .ok cookies) (hc : c ∈ cookies) :
    ∃ elements strict, p.elements source value = .ok elements ∧
      ∃ e ∈ elements, MadeBy strict now source origin e c := by
  cases p with
  | bestMatch =>
    cases source with
    | setCookie2 =>
      obtain ⟨elements, helements, e, he, hmade⟩ := Strict.exists_of_mem_read h hc
      exact ⟨elements, true, helements, e, he, hmade⟩
    | setCookie =>
      obtain ⟨first, elements, -, helements, hmade⟩ := readBestMatch_ok h
      obtain ⟨e, he, hmade⟩ := hmade c hc
      exact ⟨elements, first.isVersioned, helements, e, he, hmade⟩
  | compatibility =>
    cases source with
    | setCookie =>
      obtain ⟨elements, helements, e, he, hmade⟩ := Compatibility.exists_of_mem_read h hc
      exact ⟨elements, false, helements, e, he, hmade⟩
    | setCookie2 => cases h
  | strict =>
    obtain ⟨elements, helements, e, he, hmade⟩ := Strict.exists_of_mem_read h hc
    exact ⟨elements, true, helements, e, he, hmade⟩
  | ignoring =>
    obtain rfl := Except.ok.inj h
    cases hc

theorem Policy.isName_of_mem_elements {elements : List Element} {e : Element}
    (h : p.elements source value = .ok elements) (he : e ∈ elements) : IsName e.name := by
  unfold Policy.elements at h
  split at h
  · exact Element.isName_of_mem_readAll h he
  · exact Element.isName_of_mem_readAll h he
  · exact Element.isName_of_mem_listed h he

/-- Whatever the policy, the name of a cookie that was read shows where it ends. -/
theorem Policy.isName_of_read (h : p.read now source origin value = .ok cookies) (hc : c ∈ cookies) :
    IsName c.name := by
  obtain ⟨elements, strict, helements, e, he, hmade⟩ := exists_of_mem_read h hc
  have hessence := hmade.aspect aspect_elementData (by simp)
  have hname : c.name = e.name := by
    cases strict <;> exact congrArg ElementData.name hessence
  rw [hname]
  exact isName_of_mem_elements helements he

end

end HttpSession.Cookie
