import HttpSession.Proofs.Cookie.BestMatch
import HttpSession.Proofs.Cookie.Refinement

/-!
# Cookies as their origin sets them

A cookie that names no domain, path or port belongs to the host that set it and to everything next to
the page that set it. The policy that put it there finds it valid there, whatever the host and the path
look like: a host may begin or end with dots or have none, and a path may have empty names.

Main statement: the compatible rules and the strict ones accept all such cookies that they read, but for
those of the header of versioned cookies that name no version (`Policy.accepts_own_defaults`).
-/

namespace HttpSession.Cookie

-- ---------------------------------------------------------------------------
-- Elements of a value
-- ---------------------------------------------------------------------------

def Element.isUnplaced (e : Element) : Bool := e.attributes.all fun a => !placings.contains a.name

def Element.isNumbered (e : Element) : Bool := 0 < e.firstVersion?.getD 0

def Policy.passesAll (p : Policy) (source : Source) (test : Element → Bool) (value : Text) : Bool :=
  match p.elements source value with
  | .ok elements => elements.all test
  | .error _ => true

section
variable {p : Policy} {now : Instant} {source : Source} {o : Origin} {value : Text} {c : Cookie}
  {cookies : List Cookie} {elements : List Element} {e : Element} {test : Element → Bool}
  {fromSetCookie2 : Bool}

theorem Element.isUnplaced_iff : e.isUnplaced = true ↔ ∀ a ∈ e.attributes, a.name ∉ placings := by
  simp [isUnplaced]

theorem Policy.passes_of_mem (h : p.passesAll source test value = true)
    (hl : p.elements source value = .ok elements) (he : e ∈ elements) : test e = true := by
  unfold passesAll at h
  rw [hl] at h
  exact List.all_eq_true.mp h e he

-- ---------------------------------------------------------------------------
-- Validity
-- ---------------------------------------------------------------------------

/-- The path of its page, up to the last slash, takes a page in. -/
theorem Compatibility.validate_of_place (hhost : o.host ≠ []) (hlower : o.host.lower = o.host)
    (hpath : o.path.head? = some '/') (h : c.place = (blank e o).place) : validate c o = .ok () := by
  have hdomain : c.domain = o.host := (congrArg Place.domain h).trans hlower
  have hfolder : c.path = defaultPath o.path := congrArg Place.path h
  rw [validate_ok, hdomain, hfolder]
  exact ⟨domainMatch_self hhost, pathMatch_defaultPath hpath⟩

/-- Where the origin has put a cookie, the strict rules ask for nothing but its version. -/
theorem Strict.validate_of_place_iff (hlower : o.host.lower = o.host)
    (hpath : o.path.head? = some '/') (h : c.place = (blank e fromSetCookie2 o).place) :
    validate c o = .ok () ↔ (c.fromSetCookie2 = true → 0 < c.version) := by
  have hdomain : c.domain = effectiveHost o.host :=
    (congrArg Place.domain h).trans (lower_effectiveHost hlower)
  have hfolder : c.path = defaultPath o.path := congrArg Place.path h
  have hgiven : c.domainGiven = false := congrArg Place.domainGiven h
  have hport : c.portGiven = false := congrArg Place.portGiven h
  rw [validate_ok, validateDomain_ok_iff, hfolder]
  simp [hgiven, hdomain, allowsPort, hport, pathMatch_defaultPath hpath, Nat.pos_iff_ne_zero]

theorem Compatibility.validate_of_read (hhost : o.host ≠ []) (hlower : o.host.lower = o.host)
    (hpath : o.path.head? = some '/')
    (hplace : Policy.compatibility.passesAll .setCookie Element.isUnplaced value = true)
    (h : Compatibility.read now o value = .ok cookies) (hc : c ∈ cookies) : validate c o = .ok () := by
  obtain ⟨elements, helements, e, he, hmade⟩ := exists_of_mem_read h hc
  have hunplaced := Element.isUnplaced_iff.mp (Policy.passes_of_mem hplace helements he)
  exact validate_of_place hhost hlower hpath ((ofElement_keeps hmade).place hunplaced)

theorem Strict.validate_of_read (hlower : o.host.lower = o.host) (hpath : o.path.head? = some '/')
    (hplace : Policy.strict.passesAll source Element.isUnplaced value = true)
    (hversion : source = .setCookie2 → Policy.strict.passesAll source Element.isNumbered value = true)
    (h : Strict.read now (source = .setCookie2) o value = .ok cookies) (hc : c ∈ cookies) :
    validate c o = .ok () := by
  obtain ⟨elements, helements, e, he, hmade⟩ := exists_of_mem_read h hc
  have hkeeps := ofElement_keeps hmade
  have hunplaced := Element.isUnplaced_iff.mp (Policy.passes_of_mem hplace helements he)
  refine (validate_of_place_iff hlower hpath (hkeeps.place hunplaced)).mpr fun hkind => ?_
  -- the kind of a cookie is that of its header, whose elements have versions
  have hsource : decide (source = .setCookie2) = c.fromSetCookie2 :=
    (congrArg ElementData.fromSetCookie2 hkeeps.elementData).symm
  have hnumbered := Policy.passes_of_mem (hversion (of_decide_eq_true (hsource.trans hkind))) helements he
  obtain ⟨version, hfirst, hpos⟩ := Element.exists_of_firstVersion?_pos (of_decide_eq_true hnumbered)
  exact version_of_ofElement hmade hfirst ▸ hpos

end

/-- A policy accepts from an origin what the origin sets without saying where it belongs: the compatible
rules and the strict ones find every cookie valid that they read from a value whose elements name no
domain, path or port, where the header of versioned cookies asks for a version in each. -/
theorem Policy.accepts_own_defaults {p : Policy} {now : Instant} {source : Source}
    {host path value : Text} {port : Nat} {secure : Bool} {cookies : List Cookie}
    (hp : p = .compatibility ∨ p = .strict) (hhost : host ≠ []) (hpath : path.head? = some '/')
    (hplace : p.passesAll source Element.isUnplaced value = true)
    (hversion : source = .setCookie2 → p.passesAll source Element.isNumbered value = true)
    (h : p.read now source (.of host port path secure) value = .ok cookies) :
    ∀ c ∈ cookies, p.validate c (.of host port path secure) = .ok () := by
  intro c hc
  have hne : (Origin.of host port path secure).host ≠ [] := by simpa [Origin.of, Text.lower] using hhost
  have hlower : (Origin.of host port path secure).host.lower = (Origin.of host port path secure).host :=
    Text.lower_lower host
  have hstart : (Origin.of host port path secure).path.head? = some '/' := by
    cases path with
    | nil => cases hpath
    | cons slash rest => exact hpath
  rcases hp with rfl | rfl
  · cases source with
    | setCookie => exact Compatibility.validate_of_read hne hlower hstart hplace h hc
    | setCookie2 => cases h
  · exact Strict.validate_of_read hlower hstart hplace hversion h hc

def dottedCookie : Cookie :=
  { name := "a", value := "b", domain := ".intranet.", path := "/docs/", version := 1,
    fromSetCookie2 := true }

theorem Policy.accepts_own_defaults_dotted :
    Policy.strict.read .epoch .setCookie2 (.of ".Intranet." 80 "/docs//" false) "a=b; Version=1; Version=0" =
        .ok [dottedCookie] ∧
      Policy.strict.validate dottedCookie (.of ".Intranet." 80 "/docs//" false) = .ok () := by
  have hread : Policy.strict.read .epoch .setCookie2 (.of ".Intranet." 80 "/docs//" false)
      "a=b; Version=1; Version=0" = .ok [dottedCookie] := by
    decide +kernel
  exact ⟨hread, accepts_own_defaults (.inr rfl) (by decide) (by decide) (by decide +kernel)
    (fun _ => by decide +kernel) hread _ List.mem_cons_self⟩

end HttpSession.Cookie
