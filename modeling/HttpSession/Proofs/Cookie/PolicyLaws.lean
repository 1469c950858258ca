import HttpSession.Cookie.Session
import HttpSession.Proofs.Text.Laws

/-!
# Laws of the cookie policies

What each policy asks of a cookie, whichever rules it goes by: a cookie is sent to an origin, or set by
one, only if its domain takes the host in, and it is sent to insecure origins only if it is not secure.
Best match goes by the rules of the cookie's version.

Main statements: the domain of a cookie that an origin may set takes the host of that origin in
(`Policy.takesIn_of_validate`), which puts the host at the domain or below it (`below_of_takesIn`); what
a response adds to a store was named by it and is valid (`setBy_of_mem_accepted`).
-/

namespace HttpSession.Cookie

-- ---------------------------------------------------------------------------
-- Hosts and domains
-- ---------------------------------------------------------------------------

def bareDomain (domain : Text) : Text := (domain.after? ['.']).getD domain

def Below (host domain : Text) : Prop :=
  domain ≠ [] ∧ (host = bareDomain domain ∨ '.' :: bareDomain domain <:+ host)

theorem bareDomain_cons_dot (rest : Text) : bareDomain ('.' :: rest) = rest := by
  have h : Text.after? ('.' :: rest) ['.'] = some rest := Text.after?_eq_some_iff.mpr rfl
  rw [bareDomain, h]
  rfl

theorem Compatibility.domainMatch_iff {host domain : Text} :
    domainMatch host domain = true ↔ Below host domain := by
  unfold domainMatch Below
  by_cases hd : domain = []
  · simp [hd]
  · have hsuffix : (host.before? (bareDomain domain)).bind (·.getLast?) = some '.' ↔
        '.' :: bareDomain domain <:+ host := by
      simp only [Option.bind_eq_some_iff, Text.before?_eq_some_iff, List.getLast?_eq_some_iff]
      constructor
      · rintro ⟨_, rfl, before, rfl⟩
        exact ⟨before, by simp⟩
      · rintro ⟨before, rfl⟩
        exact ⟨before ++ ['.'], by simp, before, rfl⟩
    simp only [hd, if_false, Bool.or_eq_true, decide_eq_true_eq, not_false_eq_true, true_and, ne_eq]
    exact or_congr Iff.rfl hsuffix

theorem Strict.below_of_domainMatch {host domain : Text} (hd : domain ≠ [])
    (h : domainMatch host domain = true) : Below host domain := by
  simp only [domainMatch, Bool.or_eq_true, decide_eq_true_eq, Bool.and_eq_true,
    List.isSuffixOf_iff_suffix] at h
  refine ⟨hd, ?_⟩
  cases domain with
  | nil => exact absurd rfl hd
  | cons c rest =>
    by_cases hc : c = '.'
    · subst hc
      rw [bareDomain_cons_dot]
      rcases h with rfl | ⟨-, h⟩
      · exact .inr (List.suffix_refl _)
      · exact .inr h
    · have hbare : bareDomain (c :: rest) = c :: rest := by
        have hnone : Text.after? (c :: rest) ['.'] = none := by
          rw [Option.eq_none_iff_forall_not_mem]
          intro rest' h'
          have he := Text.after?_eq_some_iff.mp h'
          simp [hc] at he
        rw [bareDomain, hnone]
        rfl
      rcases h with rfl | ⟨h, -⟩
      · exact .inl hbare.symm
      · simp [hc] at h

def knownAs (strict : Bool) (host : Text) : Text := if strict then Strict.effectiveHost host else host

def takesIn (strict : Bool) (host domain : Text) : Bool :=
  if strict then Strict.domainMatch (knownAs strict host) domain
  else Compatibility.domainMatch (knownAs strict host) domain

theorem below_of_takesIn {strict : Bool} {host domain : Text} (h : takesIn strict host domain = true)
    (hd : domain ≠ []) : Below (knownAs strict host) domain := by
  cases strict
  · exact Compatibility.domainMatch_iff.mp h
  · exact Strict.below_of_domainMatch hd h

/-- Whether cookies of a domain get to a host. By the compatible rules they get to the domain and to all
hosts below it; by the strict ones to the host that is known by that name, and if the name begins with a
dot to the hosts one label before it. -/
def Reaches (strict : Bool) (host domain : Text) : Prop :=
  if strict then
    knownAs true host = domain ∨
      (domain.head? = some '.' ∧ ∃ label, '.' ∉ label ∧ knownAs true host = label ++ domain)
  else Below host domain

theorem Strict.reaches_iff {host domain : Text} :
    (domainMatch (effectiveHost host) domain && isOneLabelAbove (effectiveHost host) domain) = true ↔
      Reaches true host domain := by
  show _ ↔ effectiveHost host = domain ∨
    (domain.head? = some '.' ∧ ∃ label, '.' ∉ label ∧ effectiveHost host = label ++ domain)
  generalize effectiveHost host = host
  simp only [domainMatch, isOneLabelAbove, Bool.and_eq_true, Bool.or_eq_true, decide_eq_true_eq,
    List.isSuffixOf_iff_suffix, Bool.not_eq_true']
  constructor
  · rintro ⟨rfl | ⟨hdot, label, rfl⟩, -, hlabel⟩
    · exact .inl rfl
    · exact .inr ⟨hdot, label, by simpa using hlabel, rfl⟩
  · rintro (rfl | ⟨hdot, label, hlabel, rfl⟩)
    · simp
    · exact ⟨.inr ⟨hdot, List.suffix_append _ _⟩, by simp, by simpa using hlabel⟩

theorem secure_iff {c : Cookie} {o : Origin} :
    (!c.secure || o.secure) = true ↔ (c.secure = true → o.secure = true) := by
  cases c.secure <;> simp

namespace Policy

/-- Whether best match goes by the strict rules for a cookie, as the strict policy does for all. -/
def isStrictFor (p : Policy) (c : Cookie) : Bool :=
  match p with
  | .bestMatch => 0 < c.version
  | .strict => true
  | .compatibility | .ignoring => false

end Policy

theorem Compatibility.validate_ok {c : Cookie} {o : Origin} :
    validate c o = .ok () ↔ domainMatch o.host c.domain = true ∧ pathMatch o.path c.path = true := by
  unfold validate
  by_cases hd : c.domain = []
  · simp [hd, domainMatch]
  · by_cases hm : domainMatch o.host c.domain = true <;>
      by_cases hp : pathMatch o.path c.path = true <;> simp [hd, hm, hp]

theorem Strict.effectiveHost_ne_nil (host : Text) : effectiveHost host ≠ [] := by
  unfold effectiveHost
  split
  · rename_i h
    rintro rfl
    cases h
  · simp

theorem Strict.validateDomain_ok_iff {c : Cookie} {host : Text} :
    validateDomain c host = .ok () ↔
      if c.domainGiven then
        c.domain.head? = some '.' ∧ (hasEmbeddedDot c.domain = true ∨ c.domain = ".local") ∧
          domainMatch host c.domain = true ∧ isOneLabelAbove host c.domain = true
      else c.domain = host := by
  unfold validateDomain
  generalize (".local" : Text) = localDomain
  cases c.domainGiven with
  | false => by_cases he : c.domain = host <;> simp [he]
  | true =>
    simp only [ne_eq, ← not_or]
    by_cases hdot : c.domain.head? = some '.' <;>
      by_cases hembedded : hasEmbeddedDot c.domain = true ∨ c.domain = localDomain <;>
        by_cases hm : domainMatch host c.domain = true <;> simp [-not_or, hdot, hembedded, hm]

theorem Strict.isOneLabelAbove_self (host : Text) : isOneLabelAbove host host = true := by
  simp [isOneLabelAbove]

theorem Strict.validateDomain_ok {c : Cookie} {host : Text} (hh : host ≠ [])
    (h : validateDomain c host = .ok ()) : domainMatch host c.domain = true ∧ c.domain ≠ [] := by
  rw [validateDomain_ok_iff] at h
  split at h
  · obtain ⟨hdot, -, hm, -⟩ := h
    refine ⟨hm, fun hd => ?_⟩
    simp [hd] at hdot
  · exact ⟨by simp [domainMatch, h], h ▸ hh⟩

theorem Strict.domainMatch_of_validateDomain {c : Cookie} {host : Text}
    (h : validateDomain c host = .ok ()) :
    domainMatch host c.domain = true ∧ isOneLabelAbove host c.domain = true := by
  rw [validateDomain_ok_iff] at h
  split at h
  · exact h.2.2
  · rw [h]
    exact ⟨by simp [domainMatch], isOneLabelAbove_self host⟩

theorem Strict.validate_ok {c : Cookie} {o : Origin} :
    validate c o = .ok () ↔ ¬ (c.fromSetCookie2 = true ∧ c.version = 0) ∧
      validateDomain c (effectiveHost o.host) = .ok () ∧ allowsPort c o.port = true ∧
      pathMatch o.path c.path = true := by
  unfold validate
  by_cases hv : c.fromSetCookie2 = true ∧ c.version = 0
  · simp [hv, bind, Except.bind, throw, throwThe, MonadExceptOf.throw]
  · cases hd : validateDomain c (effectiveHost o.host) with
    | error rejection => simp [hv, bind, Except.bind]
    | ok u =>
      by_cases hp : allowsPort c o.port = true <;> by_cases hm : pathMatch o.path c.path = true <;>
        simp [hv, hp, hm, bind, Except.bind, pure, Except.pure, throw, throwThe, MonadExceptOf.throw]

namespace Policy

variable {p : Policy} {c : Cookie} {o : Origin}

theorem validate_eq (hp : p ≠ .ignoring) :
    p.validate c o = if p.isStrictFor c then Strict.validate c o else Compatibility.validate c o := by
  cases p with
  | bestMatch => simp [validate, isStrictFor]
  | compatibility => rfl
  | strict => rfl
  | ignoring => exact absurd rfl hp

theorem isSentTo_eq (hp : p ≠ .ignoring) :
    p.isSentTo c o = if p.isStrictFor c then Strict.isSentTo c o else Compatibility.isSentTo c o := by
  cases p with
  | bestMatch => simp [isSentTo, isStrictFor]
  | compatibility => rfl
  | strict => rfl
  | ignoring => exact absurd rfl hp

structure Suits (p : Policy) (c : Cookie) (o : Origin) : Prop where
  port : p.isStrictFor c = true → Strict.allowsPort c o.port = true
  path : pathMatch o.path c.path = true
  secure : c.secure = true → o.secure = true

theorem isSentTo_iff (hp : p ≠ .ignoring) :
    p.isSentTo c o = true ↔ Reaches (p.isStrictFor c) o.host c.domain ∧ p.Suits c o := by
  have hsuits : p.Suits c o ↔ (p.isStrictFor c = true → Strict.allowsPort c o.port = true) ∧
      pathMatch o.path c.path = true ∧ (c.secure = true → o.secure = true) :=
    ⟨fun h => ⟨h.port, h.path, h.secure⟩, fun ⟨port, path, secure⟩ => ⟨port, path, secure⟩⟩
  rw [isSentTo_eq hp, hsuits]
  cases hs : p.isStrictFor c with
  | true =>
    rw [if_pos rfl, Strict.isSentTo, Bool.and_assoc, Bool.and_assoc, Bool.and_eq_true,
      Strict.reaches_iff, Bool.and_eq_true, Bool.and_eq_true, secure_iff]
    simp
  | false =>
    rw [if_neg (by simp), Compatibility.isSentTo, Bool.and_assoc, Bool.and_eq_true,
      Compatibility.domainMatch_iff, Bool.and_eq_true, secure_iff]
    simp [Reaches]

theorem secure_of_isSentTo (h : p.isSentTo c o = true) (hc : c.secure = true) : o.secure = true := by
  have hp : p ≠ .ignoring := by
    rintro rfl
    cases h
  rw [isSentTo_eq hp] at h
  split at h <;> simp only [Strict.isSentTo, Compatibility.isSentTo, hc, Bool.and_eq_true,
    Bool.not_true, Bool.false_or] at h
  · exact h.2
  · exact h.2

theorem takesIn_of_validate (hp : p ≠ .ignoring) (h : p.validate c o = .ok ()) :
    takesIn (p.isStrictFor c) o.host c.domain = true ∧ c.domain ≠ [] := by
  rw [validate_eq hp] at h
  cases hs : p.isStrictFor c with
  | true =>
    rw [if_pos hs] at h
    exact Strict.validateDomain_ok (Strict.effectiveHost_ne_nil _) (Strict.validate_ok.mp h).2.1
  | false =>
    rw [if_neg (by simp [hs])] at h
    have hm := (Compatibility.validate_ok.mp h).1
    exact ⟨hm, (Compatibility.domainMatch_iff.mp hm).1⟩

end Policy

-- ---------------------------------------------------------------------------
-- What a response sets
-- ---------------------------------------------------------------------------

def Source.header : Source → Text
  | .setCookie => HeaderName.setCookie
  | .setCookie2 => HeaderName.setCookie2

/-- Whether headers set a cookie by some rules at some moment: one of their values is read to it, and
it is valid for the origin, whose host its domain takes in. -/
structure SetBy (c : Cookie) (rules : Rules) (now : Instant) (h : Headers) : Prop where
  read : ∃ source : Source, ∃ value ∈ h.values source.header, ∃ text cookies,
    HeaderValue.text? value = some text ∧
      rules.policy.read now source rules.origin text = .ok cookies ∧ c ∈ cookies
  valid : rules.policy.validate c rules.origin = .ok ()
  takenIn : takesIn (rules.policy.isStrictFor c) rules.origin.host c.domain = true
  below : Below (knownAs (rules.policy.isStrictFor c) rules.origin.host) c.domain

theorem Policy.ne_ignoring_of_read {p : Policy} {now : Instant} {source : Source} {o : Origin}
    {text : Text} {cookies : List Cookie} {c : Cookie} (h : p.read now source o text = .ok cookies)
    (hc : c ∈ cookies) : p ≠ .ignoring := by
  rintro rfl
  obtain rfl := Except.ok.inj h
  cases hc

section
variable {c : Cookie} {rules : Rules} {now : Instant} {source : Source} {h : Headers} {value : Bytes}

theorem SetBy.ne_ignoring (hs : c.SetBy rules now h) : rules.policy ≠ .ignoring := by
  obtain ⟨source, value, -, text, cookies, -, hread, hc⟩ := hs.read
  exact Policy.ne_ignoring_of_read hread hc

theorem mem_acceptedFrom (hm : c ∈ acceptedFrom rules now source value) :
    ∃ text cookies, HeaderValue.text? value = some text ∧
      rules.policy.read now source rules.origin text = .ok cookies ∧ c ∈ cookies ∧
      rules.policy.validate c rules.origin = .ok () := by
  unfold acceptedFrom at hm
  split at hm
  · cases hm
  · rename_i text htext
    split at hm
    · cases hm
    · rename_i cookies hread
      obtain ⟨hc, hvalid⟩ := List.mem_filter.mp hm
      refine ⟨text, cookies, htext, hread, hc, ?_⟩
      cases hv : rules.policy.validate c rules.origin with
      | ok u => rfl
      | error rejection => simp [hv, Except.isOk, Except.toBool] at hvalid

theorem exists_mem_acceptedFrom (hm : c ∈ accepted rules now h) :
    ∃ source : Source, ∃ value ∈ h.values source.header, c ∈ acceptedFrom rules now source value := by
  rcases List.mem_append.mp hm with hm | hm
  · obtain ⟨value, hv, hc⟩ := List.mem_flatMap.mp hm
    exact ⟨.setCookie, value, hv, hc⟩
  · split at hm
    · obtain ⟨value, hv, hc⟩ := List.mem_flatMap.mp hm
      exact ⟨.setCookie2, value, hv, hc⟩
    · cases hm

theorem setBy_of_mem_accepted (hm : c ∈ accepted rules now h) : c.SetBy rules now h := by
  obtain ⟨source, value, hv, hc⟩ := exists_mem_acceptedFrom hm
  obtain ⟨text, cookies, htext, hread, hmem, hvalid⟩ := mem_acceptedFrom hc
  obtain ⟨htaken, hd⟩ := Policy.takesIn_of_validate (Policy.ne_ignoring_of_read hread hmem) hvalid
  exact ⟨⟨source, value, hv, text, cookies, htext, hread, hmem⟩, hvalid, htaken,
    below_of_takesIn htaken hd⟩

end

end HttpSession.Cookie
