import HttpSession.Proofs.Cookie.PolicyLaws
import HttpSession.Proofs.Cookie.StoreLaws

/-!
# What is sent back

Each policy says twice what belongs together: which cookies an origin may set, and which ones are sent
to it. The two checks are written apart, but a cookie that passes the first one passes the second, but
for what only the second one asks: a secure way for a secure cookie.

Main statement: of the cookies that a response sets, the last one of each identity is chosen for the
next request to the same origin, once and no other in its place (`accepted_sent_back`).
-/

namespace HttpSession.Cookie

section
variable {p : Policy} {c : Cookie} {o : Origin}

theorem Compatibility.isSentTo_iff_of_validate (h : validate c o = .ok ()) :
    isSentTo c o = true ↔ (c.secure = true → o.secure = true) := by
  obtain ⟨hdomain, hpath⟩ := validate_ok.mp h
  rw [isSentTo, hdomain, hpath, Bool.true_and, Bool.true_and, secure_iff]

theorem Strict.isSentTo_iff_of_validate (h : validate c o = .ok ()) :
    isSentTo c o = true ↔ (c.secure = true → o.secure = true) := by
  obtain ⟨-, hvalid, hport, hpath⟩ := validate_ok.mp h
  obtain ⟨hdomain, hlabel⟩ := domainMatch_of_validateDomain hvalid
  simp only [isSentTo, hdomain, hlabel, hport, hpath, Bool.true_and, secure_iff]

/-- An origin is sent every cookie that it may set, on a secure way if it must be. -/
theorem Policy.isSentTo_iff_of_validate (hp : p ≠ .ignoring) (h : p.validate c o = .ok ()) :
    p.isSentTo c o = true ↔ (c.secure = true → o.secure = true) := by
  rw [validate_eq hp] at h
  rw [isSentTo_eq hp]
  cases hs : p.isStrictFor c with
  | true =>
    rw [if_pos hs] at h
    exact Strict.isSentTo_iff_of_validate h
  | false =>
    rw [if_neg (by simp [hs])] at h
    exact Compatibility.isSentTo_iff_of_validate h

end

section
variable {rules : Rules} {now : Instant} {h : Headers} {s : Store} {c : Cookie}
  {earlier later : List Cookie}

theorem Store.filter_chosen (s : Store) (rules : Rules) (now : Instant) (q : Cookie → Bool) :
    (s.chosen rules now).filter q =
      (s.toList.filter q).filter fun c => !c.expiredAt now && rules.policy.isSentTo c rules.origin := by
  rw [chosen, List.filter_filter, List.filter_filter]
  exact List.filter_congr fun c _ => Bool.and_comm _ _

theorem filter_key_chosen (hp : rules.policy ≠ .ignoring) (hs : s.Ordered)
    (hc : accepted rules now h = earlier ++ c :: later) (hl : ∀ d ∈ later, d.key ≠ c.key) :
    ((s.addAll now (accepted rules now h)).chosen rules now).filter (·.key = c.key) =
      if c.expiredAt now = false ∧ (c.secure = true → rules.origin.secure = true) then [c] else [] := by
  have hmem : c ∈ accepted rules now h := by simp [hc]
  have hsent := Policy.isSentTo_iff_of_validate hp (setBy_of_mem_accepted hmem).valid
  rw [Store.filter_chosen, hc, hs.filter_key_addAll hl]
  cases hexpired : c.expiredAt now with
  | true => simp
  | false => simp [List.filter_singleton, hexpired, ← hsent]

end

/-- An origin is sent every cookie that it may set, unless the cookie is secure and the way is not. So
after a response was taken in, the request that follows at the same time carries for each identity the
last cookie that was accepted, once and no other in its place; it carries none if that cookie is expired
or would need a secure way. -/
theorem accepted_sent_back {p : Policy} (hp : p ≠ .ignoring) :
    (∀ c o, p.validate c o = .ok () →
      (p.isSentTo c o = true ↔ (c.secure = true → o.secure = true))) ∧
    ∀ (s : Store) (o : Origin) (now : Instant) (h : Headers) (c : Cookie) (earlier later : List Cookie),
      s.Ordered → accepted ⟨p, o⟩ now h = earlier ++ c :: later → (∀ d ∈ later, d.key ≠ c.key) →
        ((s.addAll now (accepted ⟨p, o⟩ now h)).chosen ⟨p, o⟩ now).filter (·.key = c.key) =
          if c.expiredAt now = false ∧ (c.secure = true → o.secure = true) then [c] else [] :=
  ⟨fun _ _ => Policy.isSentTo_iff_of_validate hp,
    fun _ _ _ _ _ _ _ hs hc hl => filter_key_chosen hp hs hc hl⟩

def resetting : Headers :=
  [(HeaderName.setCookie, Utf8.encode "a=1"), (HeaderName.setCookie, Utf8.encode "a=2"),
    (HeaderName.setCookie, Utf8.encode "b=3")]

def ofExample (name value : Text) : Cookie := { name, value, domain := "a.example" }

theorem accepted_sent_back_reset :
    Policy.bestMatch.isSentTo (ofExample "a" "2") (.of "a.example" 80 "/" false) = true ∧
      ((Store.addAll ⟨[ofExample "a" "0"]⟩ .epoch
        (accepted ⟨.bestMatch, .of "a.example" 80 "/" false⟩ .epoch resetting)).chosen
          ⟨.bestMatch, .of "a.example" 80 "/" false⟩ .epoch).filter (·.key = (ofExample "a" "2").key) =
        [ofExample "a" "2"] := by
  obtain ⟨hsent, hchosen⟩ := accepted_sent_back (p := .bestMatch) (by decide)
  have haccepted : accepted ⟨.bestMatch, .of "a.example" 80 "/" false⟩ .epoch resetting =
      [ofExample "a" "1"] ++ ofExample "a" "2" :: [ofExample "b" "3"] := by
    decide +kernel
  have hvalid : Policy.bestMatch.validate (ofExample "a" "2") (.of "a.example" 80 "/" false) = .ok () := by
    decide +kernel
  have hordered : Store.Ordered ⟨[ofExample "a" "0"]⟩ := List.pairwise_singleton _ _
  refine ⟨(hsent _ _ hvalid).mpr (by decide), ?_⟩
  exact (hchosen _ _ _ _ _ _ _ hordered haccepted (by decide)).trans (if_pos (by decide))

end HttpSession.Cookie
