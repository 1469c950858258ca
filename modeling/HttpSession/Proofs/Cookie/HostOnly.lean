import HttpSession.Cookie.File
import HttpSession.Proofs.Cookie.BestMatch

/-!
# Cookies without a domain

A header that names no domain, and a line of a cookie file that says that hosts below its domain do not
count, give cookies whose domain was not given. Nothing that sends cookies asks whether it was: only the
text of the domain counts, and how the rules for the cookie's version read it.

Main statement: such a cookie gets exactly where its domain reaches, which is the name by which the rules
that judge the cookie know the host that set it, or the domain of the line
(`undomained_reaches`). So it does not stay on its host (`undomained_leaves_host`): the compatible rules take it
to every host below, and the strict ones to a host of the same effective name.
-/

namespace HttpSession.Cookie

def Policy.namesNoDomain (p : Policy) (source : Source) (value : Text) : Bool :=
  match p.elements source value with
  | .ok elements => elements.all fun e => !e.has "domain"
  | .error _ => true

section
variable {p : Policy} {now : Instant} {source : Source} {o : Origin} {value : Text}
  {cookies : List Cookie} {c : Cookie} {strict : Bool} {e : Element}

theorem MadeBy.domain (h : MadeBy strict now source o e c) (ho : o.host.lower = o.host)
    (he : e.has "domain" = false) : c.domain = knownAs strict o.host ∧ c.domainGiven = false := by
  have hsame := h.aspect aspect_domain fun a => Element.not_mem_of_has_eq_false he
  have hlower := lower_knownAs ho strict
  cases strict with
  | true => exact Prod.mk.inj (hsame.trans (congrArg (·, false) hlower))
  | false => exact Prod.mk.inj (hsame.trans (congrArg (·, false) hlower))

theorem Policy.domain_of_read (h : p.read now source o value = .ok cookies) (hc : c ∈ cookies)
    (ho : o.host.lower = o.host) (hvalue : p.namesNoDomain source value = true) :
    ∃ strict, c.domain = knownAs strict o.host ∧ c.domainGiven = false := by
  obtain ⟨elements, strict, helements, e, he, hmade⟩ := exists_of_mem_read h hc
  unfold namesNoDomain at hvalue
  rw [helements] at hvalue
  have hnone : e.has "domain" = false := by simpa using List.all_eq_true.mp hvalue e he
  exact ⟨strict, hmade.domain ho hnone⟩

/-- The rules that find a cookie valid know its origin by the name that the cookie has for a domain, if
it has that name from either kind of rules. -/
theorem Policy.domain_eq_knownAs (hp : p ≠ .ignoring) (hd : c.domain = knownAs strict o.host)
    (hgiven : c.domainGiven = false) (h : p.validate c o = .ok ()) :
    c.domain = knownAs (p.isStrictFor c) o.host := by
  rw [validate_eq hp] at h
  cases hs : p.isStrictFor c with
  | true =>
    rw [if_pos hs] at h
    have hvalid := Strict.validateDomain_ok_iff.mp (Strict.validate_ok.mp h).2.1
    rw [if_neg (by simp [hgiven])] at hvalid
    exact hvalid
  | false =>
    rw [if_neg (by simp [hs])] at h
    have hm := (Compatibility.validate_ok.mp h).1
    cases strict with
    | false => exact hd
    | true =>
      -- the compatible rules know the strict name of a host only if it is the host's own
      rw [hd] at hm
      have hdot := Compatibility.domainMatch_effectiveHost_iff.mp hm
      exact hd.trans (Strict.effectiveHost_eq_self_iff.mpr hdot)

end

theorem File.readLine_ok {line domain tailmatch path secure expires name value : Text} {c : Cookie}
    (hl : line.pieces '\t' = [domain, tailmatch, path, secure, expires, name, value])
    (h : File.readLine line = .ok c) : c.domain = domain.lower ∧ c.version = 0 := by
  unfold File.readLine at h
  rw [hl] at h
  obtain ⟨given, -, h⟩ := bind_ok_iff.mp h
  obtain ⟨secure, -, h⟩ := bind_ok_iff.mp h
  obtain ⟨seconds, -, h⟩ := bind_ok_iff.mp h
  simp only at h
  split at h
  · cases h
  · split at h
    · cases h
    · obtain rfl := Except.ok.inj h
      exact ⟨rfl, rfl⟩

/-- A cookie that an origin set by a header without a domain gets exactly where the name of that origin
reaches, and a cookie of a file where the domain of its line does, whatever the line says of the hosts
below it. -/
theorem undomained_reaches :
    (∀ (p : Policy) (now : Instant) (source : Source) (host path value : Text) (port : Nat)
      (secure : Bool) (cookies : List Cookie) (c : Cookie) (o : Origin),
      p.namesNoDomain source value = true →
        p.read now source (.of host port path secure) value = .ok cookies → c ∈ cookies →
          p.validate c (.of host port path secure) = .ok () →
            (p.isSentTo c o = true ↔
              Reaches (p.isStrictFor c) o.host (knownAs (p.isStrictFor c) host.lower) ∧ p.Suits c o)) ∧
    ∀ (p : Policy) (line domain tailmatch path secure expires name value : Text) (c : Cookie)
      (o : Origin), p ≠ .ignoring →
      line.pieces '\t' = [domain, tailmatch, path, secure, expires, name, value] →
        File.readLine line = .ok c →
          (p.isSentTo c o = true ↔ Reaches (p = .strict) o.host domain.lower ∧ p.Suits c o) := by
  constructor
  · intro p now source host path value port secure cookies c o hvalue hread hc hvalid
    have hp := Policy.ne_ignoring_of_read hread hc
    have hlower : (Origin.of host port path secure).host.lower = (Origin.of host port path secure).host :=
      Text.lower_lower host
    obtain ⟨strict, hdomain, hgiven⟩ := Policy.domain_of_read hread hc hlower hvalue
    rw [Policy.isSentTo_iff hp, Policy.domain_eq_knownAs hp hdomain hgiven hvalid]
    exact Iff.rfl
  · intro p line domain tailmatch path secure expires name value c o hp hl h
    obtain ⟨hdomain, hversion⟩ := File.readLine_ok hl h
    have hstrict : p.isStrictFor c = decide (p = .strict) := by
      cases p <;> simp [Policy.isStrictFor, hversion]
    rw [Policy.isSentTo_iff hp, hdomain, hstrict]

def lineCookie : Cookie := { name := "sid", value := "1", domain := "a.example", pathGiven := true }

theorem undomained_reaches_others :
    Policy.bestMatch.isSentTo Policy.versionedCookie (.of "intranet.local" 80 "/" false) = true ∧
      Policy.compatibility.isSentTo lineCookie (.of "www.a.example" 80 "/" false) = true := by
  obtain ⟨hheader, hline⟩ := undomained_reaches
  constructor
  · refine (hheader .bestMatch .epoch .setCookie "intranet" "/" "a=b; Version=1" 80 false
      [Policy.versionedCookie] _ _ (by decide +kernel) (by decide +kernel) List.mem_cons_self
      (by decide +kernel)).mpr ⟨.inl (by decide +kernel), ?_⟩
    exact ⟨fun _ => by decide, by decide +kernel, by decide⟩
  · refine (hline .compatibility "a.example\tFALSE\t/\tFALSE\t0\tsid\t1" "a.example" "FALSE" "/" "FALSE"
      "0" "sid" "1" _ _ (by decide) (by decide +kernel) (by decide +kernel)).mpr ⟨?_, ?_⟩
    · exact Compatibility.domainMatch_iff.mp (by decide +kernel)
    · exact ⟨fun _ => by decide, by decide +kernel, by decide⟩

/-- Whether a policy leaves cookies whose headers name no domain on the very host that set them, those
that it judges by the strict rules or those that it judges by the compatible ones. -/
def Policy.KeepsOnHost (p : Policy) (strict : Bool) : Prop :=
  ∀ (now : Instant) (source : Source) (host path value : Text) (port : Nat) (secure : Bool)
    (cookies : List Cookie) (c : Cookie) (o : Origin), p.isStrictFor c = strict →
    p.namesNoDomain source value = true →
      p.read now source (.of host port path secure) value = .ok cookies → c ∈ cookies →
        p.validate c (.of host port path secure) = .ok () → p.isSentTo c o = true → o.host = host.lower

/-- Whether a policy leaves cookies of a file on the very host that their line names, if the line says
so. -/
def Policy.KeepsOnLine (p : Policy) : Prop :=
  ∀ (line domain path secure expires name value : Text) (c : Cookie) (o : Origin),
    line.pieces '\t' = [domain, "FALSE", path, secure, expires, name, value] →
      File.readLine line = .ok c → p.isSentTo c o = true → o.host = domain.lower

/-- No such cookies stay on their host: by the compatible rules they get to the hosts below, and by the
strict ones to a host that is known by the same name. -/
theorem undomained_leaves_host :
    ¬ Policy.compatibility.KeepsOnHost false ∧ ¬ Policy.bestMatch.KeepsOnHost false ∧
      ¬ Policy.bestMatch.KeepsOnHost true ∧ ¬ Policy.compatibility.KeepsOnLine ∧
        ¬ Policy.bestMatch.KeepsOnLine := by
  have hbelow : (Origin.of "www.a.example" 80 "/" false).host ≠ Text.lower "a.example" := by decide
  have hlocal : (Origin.of "intranet.local" 80 "/" false).host ≠ Text.lower "intranet" := by decide
  have hplain (p : Policy) (hp : p = .compatibility ∨ p = .bestMatch) : ¬ p.KeepsOnHost false := by
    intro h
    rcases hp with rfl | rfl <;>
      exact hbelow (h .epoch .setCookie "a.example" "/" "sid=1" 80 false
        [{ lineCookie with pathGiven := false }] _ _ (by decide +kernel) (by decide +kernel)
        (by decide +kernel) List.mem_cons_self (by decide +kernel) (by decide +kernel))
  have hversioned : ¬ Policy.bestMatch.KeepsOnHost true := by
    intro h
    exact hlocal (h .epoch .setCookie "intranet" "/" "a=b; Version=1" 80 false
      [Policy.versionedCookie] _ _ (by decide +kernel) (by decide +kernel) (by decide +kernel)
      List.mem_cons_self (by decide +kernel) (by decide +kernel))
  have hline (p : Policy) (hp : p = .compatibility ∨ p = .bestMatch) : ¬ p.KeepsOnLine := by
    intro h
    rcases hp with rfl | rfl <;>
      exact hbelow (h "a.example\tFALSE\t/\tFALSE\t0\tsid\t1" "a.example" "/" "FALSE" "0" "sid" "1"
        lineCookie _ (by decide +kernel) (by decide +kernel) (by decide +kernel))
  exact ⟨hplain _ (.inl rfl), hplain _ (.inr rfl), hversioned, hline _ (.inl rfl), hline _ (.inr rfl)⟩

end HttpSession.Cookie
