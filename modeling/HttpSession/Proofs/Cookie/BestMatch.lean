import HttpSession.Proofs.Cookie.PolicyLaws
import HttpSession.Proofs.Cookie.ReadLaws

/-!
# What best match makes and judges

Best match makes the cookies of a header by the rules that suit its first element, and judges each
cookie by the rules that suit its version. The two need not agree; where they differ, the rules know
the host by different names, unless it has a dot.

Main statement: a cookie that says nothing about where it belongs is valid for the very origin that
set it, and sent back to it, exactly if the rules that judge it suit those that made it
(`Policy.judges_own_iff`). They do not always (`Policy.judges_own_fails`).
-/

namespace HttpSession.Cookie

-- ---------------------------------------------------------------------------
-- Paths
-- ---------------------------------------------------------------------------

theorem pathMatch_before_slash (before after : Text) (hb : before ≠ []) :
    pathMatch (before ++ '/' :: after) before = true := by
  have hfolder : ∃ rest, before ++ '/' :: after = folder before ++ rest ∧
      ((folder before).getLast? = some '/' ∨ rest.head? = some '/') := by
    unfold folder
    split
    · rename_i hroot
      obtain rfl := hroot.resolve_left hb
      exact ⟨'/' :: after, rfl, .inl rfl⟩
    · cases hslash : before.before? ['/'] with
      | none => exact ⟨'/' :: after, rfl, .inr rfl⟩
      | some bare =>
        obtain rfl := Text.before?_eq_some_iff.mp hslash
        exact ⟨'/' :: '/' :: after, by simp, .inr rfl⟩
  obtain ⟨rest, heq, hend⟩ := hfolder
  rw [pathMatch, Text.after?_eq_some_iff.mpr heq]
  rcases hend with hend | hend <;> simp [hend]

theorem pathMatch_defaultPath {path : Text} (h : path.head? = some '/') :
    pathMatch path (defaultPath path) = true := by
  have hroot : pathMatch path "/" = true := by
    cases path with
    | nil => cases h
    | cons c rest =>
      obtain rfl := Option.some.inj h
      have hafter : Text.after? ('/' :: rest) ['/'] = some rest := Text.after?_eq_some_iff.mpr rfl
      simp [pathMatch, folder, hafter]
  unfold defaultPath
  split
  · exact hroot
  · exact hroot
  · rename_i before after hne hcut
    obtain ⟨c, hc, rfl⟩ := Text.eq_of_cutLast? hcut
    obtain rfl := of_decide_eq_true hc
    refine pathMatch_before_slash before after ?_
    rintro rfl
    exact hne rfl

-- ---------------------------------------------------------------------------
-- Hosts
-- ---------------------------------------------------------------------------

section
variable {host : Text}

theorem Strict.effectiveHost_eq_self_iff : effectiveHost host = host ↔ '.' ∈ host := by
  unfold effectiveHost
  by_cases h : '.' ∈ host <;> simp [h]

theorem Strict.lower_effectiveHost (h : host.lower = host) :
    (effectiveHost host).lower = effectiveHost host := by
  unfold effectiveHost
  split
  · exact h
  · have hlocal : Text.lower ".local" = ".local" := by decide
    rw [Text.lower, List.map_append, ← Text.lower, ← Text.lower, h, hlocal]

theorem Compatibility.domainMatch_self (h : host ≠ []) : domainMatch host host = true := by
  rw [domainMatch_iff]
  refine ⟨h, ?_⟩
  unfold bareDomain
  cases hdot : host.after? ['.'] with
  | none => exact .inl rfl
  | some rest =>
    obtain rfl := Text.after?_eq_some_iff.mp hdot
    exact .inr (List.suffix_refl _)

theorem length_le_bareDomain (domain : Text) : domain.length ≤ (bareDomain domain).length + 1 := by
  unfold bareDomain
  cases hdot : domain.after? ['.'] with
  | none => simp
  | some rest =>
    obtain rfl := Text.after?_eq_some_iff.mp hdot
    simp

-- Neither kind of rules matches a host with the name that the other kind has for it, unless the host has
-- a dot: else the strict name is longer than the host, and the host does not start like a strict domain.

theorem Compatibility.domainMatch_effectiveHost_iff :
    domainMatch host (Strict.effectiveHost host) = true ↔ '.' ∈ host := by
  by_cases hdot : '.' ∈ host
  · rw [Strict.effectiveHost_eq_self_iff.mpr hdot]
    simp [domainMatch_self (List.ne_nil_of_mem hdot), hdot]
  · have hlonger : host.length < (bareDomain (Strict.effectiveHost host)).length := by
      have hbare := length_le_bareDomain (Strict.effectiveHost host)
      have hlength : (Strict.effectiveHost host).length = host.length + 6 := by
        simp [Strict.effectiveHost, hdot]
      omega
    rw [domainMatch_iff]
    simp only [hdot, iff_false]
    rintro ⟨-, heq | hsuffix⟩
    · exact absurd (congrArg List.length heq) (by omega)
    · have hlength := hsuffix.length_le
      rw [List.length_cons] at hlength
      omega

theorem Strict.domainMatch_effectiveHost_iff :
    domainMatch (effectiveHost host) host = true ↔ '.' ∈ host := by
  have hhead : host.head? = some '.' → '.' ∈ host := List.mem_of_mem_head?
  simp only [domainMatch, Bool.or_eq_true, decide_eq_true_eq, Bool.and_eq_true, effectiveHost_eq_self_iff]
  exact ⟨fun h => h.elim id fun h => hhead h.1, .inl⟩

theorem lower_knownAs (h : host.lower = host) (strict : Bool) :
    (knownAs strict host).lower = knownAs strict host := by
  cases strict
  · exact h
  · exact Strict.lower_effectiveHost h

theorem knownAs_eq_iff {make judge : Bool} :
    knownAs make host = knownAs judge host ↔ '.' ∈ host ∨ judge = make := by
  rw [← Strict.effectiveHost_eq_self_iff]
  cases make <;> cases judge <;> simp [knownAs, eq_comm]

/-- A host is taken in by the name that some rules know it by if and only if those that judge know it by
that name too. -/
theorem takesIn_knownAs_iff (h : host ≠ []) {make judge : Bool} :
    takesIn judge host (knownAs make host) = true ↔ '.' ∈ host ∨ judge = make := by
  cases make <;> cases judge <;> simp only [takesIn, knownAs, if_true, reduceIte, Bool.false_eq_true]
  · simp [Compatibility.domainMatch_self h]
  · simp [Strict.domainMatch_effectiveHost_iff]
  · simp [Compatibility.domainMatch_effectiveHost_iff]
  · simp [Strict.domainMatch]

end

-- ---------------------------------------------------------------------------
-- Cookies that say nothing about where they belong
-- ---------------------------------------------------------------------------

def isUnplaced (value : Text) : Bool :=
  match Element.listed value with
  | .ok elements => elements.all fun e => e.attributes.all fun a => !placings.contains a.name
  | .error _ => true

/-- Whether a cookie belongs where its origin puts it by itself, by the strict rules or by the
compatible ones. -/
structure IsHome (make : Bool) (o : Origin) (c : Cookie) : Prop where
  domain : c.domain = knownAs make o.host
  path : c.path = defaultPath o.path
  domainGiven : c.domainGiven = false
  portGiven : c.portGiven = false
  fromSetCookie2 : c.fromSetCookie2 = false

section
variable {now : Instant} {o : Origin} {first e : Element} {c : Cookie} {value : Text} {make : Bool}
  {cookies : List Cookie}

theorem IsHome.of_eq {d : Cookie} (hc : IsHome make o c) (he : d.elementData = c.elementData)
    (hp : d.place = c.place) : IsHome make o d where
  domain := (congrArg Place.domain hp).trans hc.domain
  path := (congrArg Place.path hp).trans hc.path
  domainGiven := (congrArg Place.domainGiven hp).trans hc.domainGiven
  portGiven := (congrArg Place.portGiven hp).trans hc.portGiven
  fromSetCookie2 := (congrArg ElementData.fromSetCookie2 he).trans hc.fromSetCookie2

theorem MadeOf.isHome (h : MadeOf now o first e c) (ho : o.host.lower = o.host)
    (he : ∀ a ∈ e.attributes, a.name ∉ placings) : IsHome first.isVersioned o c := by
  unfold MadeOf at h
  cases hv : first.isVersioned with
  | true =>
    rw [if_pos hv] at h
    have hblank : IsHome true o (Strict.blank e false o) := ⟨lower_knownAs ho true, rfl, rfl, rfl, rfl⟩
    have hkeeps := Strict.ofElement_keeps h
    exact hblank.of_eq hkeeps.elementData (hkeeps.place he)
  | false =>
    rw [if_neg (by simp [hv])] at h
    have hblank : IsHome false o (Compatibility.blank e o) :=
      ⟨lower_knownAs ho false, rfl, rfl, rfl, rfl⟩
    have hkeeps := Compatibility.ofElement_keeps h
    exact hblank.of_eq hkeeps.elementData (hkeeps.place he)

/-- At home, a cookie is valid exactly if its domain takes the host in by the rules that judge it. -/
theorem IsHome.validate_iff (hc : IsHome make o c) (ho : o.host ≠ []) (hp : o.path.head? = some '/') :
    Policy.bestMatch.validate c o = .ok () ↔
      '.' ∈ o.host ∨ Policy.bestMatch.isStrictFor c = make := by
  have hpath : pathMatch o.path c.path = true := hc.path ▸ pathMatch_defaultPath hp
  rw [Policy.validate_eq (by simp)]
  cases hs : Policy.bestMatch.isStrictFor c with
  | true =>
    have hdomain : Strict.validateDomain c (Strict.effectiveHost o.host) = .ok () ↔
        knownAs make o.host = knownAs true o.host := by
      simp [Strict.validateDomain, hc.domainGiven, hc.domain, knownAs]
    rw [if_pos rfl, Strict.validate_ok, hdomain, knownAs_eq_iff]
    simp [hc.fromSetCookie2, Strict.allowsPort, hc.portGiven, hpath]
  | false =>
    have hdomain : Compatibility.domainMatch o.host c.domain =
        takesIn false o.host (knownAs make o.host) := by
      rw [hc.domain]
      rfl
    rw [if_neg (by simp), Compatibility.validate_ok, hdomain, takesIn_knownAs_iff ho]
    simp [hpath]

theorem IsHome.isSentTo_iff (hc : IsHome make o c) (ho : o.host ≠ []) (hp : o.path.head? = some '/') :
    Policy.bestMatch.isSentTo c o = true ↔
      ('.' ∈ o.host ∨ Policy.bestMatch.isStrictFor c = make) ∧ (c.secure = true → o.secure = true) := by
  have hpath : pathMatch o.path c.path = true := hc.path ▸ pathMatch_defaultPath hp
  rw [Policy.isSentTo_eq (by simp), ← secure_iff]
  cases hs : Policy.bestMatch.isStrictFor c with
  | true =>
    have hdomain : (Strict.domainMatch (Strict.effectiveHost o.host) c.domain &&
        Strict.isOneLabelAbove (Strict.effectiveHost o.host) c.domain) = true ↔
          '.' ∈ o.host ∨ true = make := by
      rw [Bool.and_eq_true, hc.domain]
      constructor
      · exact fun h => (takesIn_knownAs_iff ho).mp h.1
      · intro h
        refine ⟨(takesIn_knownAs_iff ho).mpr h, ?_⟩
        rw [knownAs_eq_iff.mpr h]
        exact Strict.isOneLabelAbove_self _
    have hport : Strict.allowsPort c o.port = true := by simp [Strict.allowsPort, hc.portGiven]
    rw [if_pos rfl, Strict.isSentTo, hport, hpath, Bool.and_true, Bool.and_true, Bool.and_eq_true, hdomain]
  | false =>
    have hdomain : Compatibility.domainMatch o.host c.domain =
        takesIn false o.host (knownAs make o.host) := by
      rw [hc.domain]
      rfl
    rw [if_neg (by simp), Compatibility.isSentTo, hdomain, Bool.and_eq_true, Bool.and_eq_true,
      takesIn_knownAs_iff ho]
    simp [hpath]

theorem isUnplaced_listed {elements : List Element} (h : isUnplaced value = true)
    (hl : Element.listed value = .ok elements) (he : e ∈ elements) :
    ∀ a ∈ e.attributes, a.name ∉ placings := by
  unfold isUnplaced at h
  rw [hl] at h
  simp only [List.all_eq_true, Bool.not_eq_true', ← Bool.not_eq_true, List.contains_iff_mem] at h
  exact h e he

namespace Policy

/-- A cookie that says nothing about where it belongs is judged by the very origin that set it: it is
valid, and it is sent back where the way is secure if it must be, exactly if the rules for its version
are those for the first element of its header, or the host has a dot. -/
theorem judges_own_iff {host path : Text} {port : Nat} {secure : Bool} (hhost : host ≠ [])
    (hpath : path.head? = some '/') (hvalue : isUnplaced value = true)
    (h : Policy.bestMatch.read now .setCookie (.of host port path secure) value = .ok cookies) :
    ∃ first, Element.read value = .ok first ∧ ∀ c ∈ cookies,
      (Policy.bestMatch.validate c (.of host port path secure) = .ok () ↔
        '.' ∈ host ∨ (0 < c.version ↔ first.isVersioned = true)) ∧
      (Policy.bestMatch.isSentTo c (.of host port path secure) = true ↔
        ('.' ∈ host ∨ (0 < c.version ↔ first.isVersioned = true)) ∧ (c.secure = true → secure = true)) := by
  obtain ⟨first, elements, hfirst, helements, hmade⟩ := readBestMatch_ok h
  refine ⟨first, hfirst, fun c hc => ?_⟩
  obtain ⟨e, he, hmade⟩ := hmade c hc
  have hhome := hmade.isHome (Text.lower_lower host) (isUnplaced_listed hvalue helements he)
  have hne : host.lower ≠ [] := by simpa [Text.lower] using hhost
  have hstart : (Origin.of host port path secure).path.head? = some '/' := by
    have hsome : path ≠ [] := by
      rintro rfl
      cases hpath
    simp only [Origin.of, if_neg hsome, hpath]
  have hsame : ('.' ∈ host.lower ∨ Policy.bestMatch.isStrictFor c = first.isVersioned) ↔
      ('.' ∈ host ∨ (0 < c.version ↔ first.isVersioned = true)) := by
    rw [Text.mem_lower_iff (by decide), Bool.eq_iff_iff]
    simp [isStrictFor]
  exact ⟨(hhome.validate_iff hne hstart).trans hsame,
    (hhome.isSentTo_iff hne hstart).trans (and_congr hsame Iff.rfl)⟩

def versionedCookie : Cookie := { name := "a", value := "b", domain := "intranet.local", version := 1 }

theorem judges_own_versioned :
    Policy.bestMatch.validate versionedCookie (.of "intranet" 80 "/" false) = .ok () ∧
      Policy.bestMatch.isSentTo versionedCookie (.of "intranet" 80 "/" false) = true := by
  have hread : Policy.bestMatch.read .epoch .setCookie (.of "intranet" 80 "/" false) "a=b; Version=1" =
      .ok [versionedCookie] := by
    decide +kernel
  obtain ⟨first, hfirst, hjudges⟩ :=
    judges_own_iff (by decide) (by decide) (by decide +kernel) hread
  have helement : Element.read "a=b; Version=1" = .ok ⟨"a", "b", [⟨"version", some "1"⟩]⟩ := by
    decide +kernel
  rw [helement] at hfirst
  obtain rfl := Except.ok.inj hfirst
  obtain ⟨hvalid, hsent⟩ := hjudges versionedCookie List.mem_cons_self
  exact ⟨hvalid.mpr (.inr (by decide +kernel)), hsent.mpr ⟨.inr (by decide +kernel), by decide⟩⟩

/-- What the host sets by the compatible rules, since it dates the cookie, but names a version. -/
def datedCookie : Cookie :=
  { name := "a", value := "b", domain := "intranet", version := 1, expiry := some ⟨2524608000, 0⟩ }

/-- Not every cookie is valid for the origin that set it and said nothing else about it. -/
theorem judges_own_fails :
    ¬ ∀ (now : Instant) (host : Text) (port : Nat) (path : Text) (secure : Bool) (value : Text)
      (cookies : List Cookie), host ≠ [] → path.head? = some '/' → isUnplaced value = true →
        Policy.bestMatch.read now .setCookie (.of host port path secure) value = .ok cookies →
          ∀ c ∈ cookies, Policy.bestMatch.validate c (.of host port path secure) = .ok () ∧
            ((c.secure = true → secure = true) →
              Policy.bestMatch.isSentTo c (.of host port path secure) = true) := by
  intro hall
  have hvalid := (hall .epoch "intranet" 80 "/" false
    "a=b; Version=1; Expires=Sat, 01 Jan 2050 00:00:00 GMT" [datedCookie] (by decide) (by decide)
    (by decide +kernel) (by decide +kernel) datedCookie List.mem_cons_self).1
  have hforeign : Policy.bestMatch.validate datedCookie (.of "intranet" 80 "/" false) ≠ .ok () := by
    decide +kernel
  exact hforeign hvalid

end Policy

end

end HttpSession.Cookie
