import HttpSession.Proofs.Exchange.Histories

/-!
# What an attempt carries

An attempt is the request of its hop with cookies added and with the answers put in place of whatever
its headers said to that side. Nothing else is changed, so every value of a header is the request's own,
or formatted from the cookies of the attempt, or an answer.

Main statements: the headers of an attempt as a whole (`Prepared.carries`), and what becomes of the
values of each header that may hold a secret (`Attempt.Carries.values_answer`, `values_cookie`).
-/

namespace HttpSession

open Auth (Side Answer)

def Url.endpoint? (url : Url) : Option Endpoint := (Endpoint.ofUrl? url).map Endpoint.normalized

/-- The answer that stands in the header of a side. The target is answered last. -/
def Attempt.answerFor (a : Attempt) (side : Side) : Option Answer :=
  (a.targetAnswer.filter (·.side = side)).or (a.proxyAnswer.filter (·.side = side))

-- ---------------------------------------------------------------------------
-- Headers
-- ---------------------------------------------------------------------------

theorem Auth.Side.answerHeader_injective {side other : Side}
    (h : side.answerHeader = other.answerHeader) : side = other := by
  cases side <;> cases other <;> first | rfl | exact absurd h (by decide)

theorem HeaderName.cookie_ne_answerHeader (side : Side) : HeaderName.cookie ≠ side.answerHeader := by
  cases side <;> decide

theorem HeaderName.cookie2_ne_answerHeader (side : Side) : HeaderName.cookie2 ≠ side.answerHeader := by
  cases side <;> decide

/-- An answer stands in place of all that its header said. -/
theorem Auth.Negotiation.values_attach (h : Headers) (answer : Option Answer) (name : Text) :
    (Auth.Negotiation.attach h answer).values name =
      match answer with
      | some a => if a.side.answerHeader = name then [a.value] else h.values name
      | none => h.values name := by
  cases answer with
  | none => rfl
  | some a => exact Headers.values_replace h _ _ _

theorem Request.values_answering (r : Request) (answer : Option Answer) (side : Side) :
    (r.answering answer).headers.values side.answerHeader =
      match answer.filter (·.side = side) with
      | some a => [a.value]
      | none => r.headers.values side.answerHeader := by
  rw [Request.answering, Auth.Negotiation.values_attach]
  cases answer with
  | none => rfl
  | some a =>
    by_cases hs : a.side = side
    · simp [Option.filter, hs]
    · have hn : a.side.answerHeader ≠ side.answerHeader := fun h => hs (Side.answerHeader_injective h)
      simp [Option.filter, hs, hn]

/-- Cookies come behind the values that were there, and touch no other header. -/
theorem Cookie.values_attach (h : Headers) (p : Policy) (cookies : List Cookie) (name : Text) :
    (Cookie.attach h p cookies).values name =
      h.values name ++ (if HeaderName.cookie = name then (p.format cookies).toList else []) ++
        if HeaderName.cookie2 = name ∧ needsVersion p cookies = true then p.versionHeader.toList
        else [] := by
  unfold Cookie.attach
  cases p.format cookies <;> cases p.versionHeader <;> by_cases hv : needsVersion p cookies = true <;>
    simp [hv]

def Request.withCookies (r : Request) (rules : Option Cookie.Rules) (cookies : List Cookie) : Request :=
  match rules with
  | some rules => { r with headers := Cookie.attach r.headers rules.policy cookies }
  | none => r

theorem Request.values_answering_ne (r : Request) (answer : Option Answer) {name : Text}
    (h : ∀ side : Side, name ≠ side.answerHeader) :
    (r.answering answer).headers.values name = r.headers.values name := by
  rw [Request.answering, Auth.Negotiation.values_attach]
  cases answer with
  | none => rfl
  | some answer => exact if_neg (Ne.symm (h answer.side))

def Cookie.Policy.versionFor? (p : Cookie.Policy) (cookies : List Cookie) : Option Bytes :=
  if Cookie.needsVersion p cookies then p.versionHeader else none

theorem Request.values_withCookies (r : Request) (rules : Option Cookie.Rules) (cookies : List Cookie)
    (name : Text) : (r.withCookies rules cookies).headers.values name =
      r.headers.values name ++
        (if HeaderName.cookie = name then (rules.bind (·.policy.format cookies)).toList else []) ++
        if HeaderName.cookie2 = name then (rules.bind (·.policy.versionFor? cookies)).toList else [] := by
  cases rules with
  | none => simp [Request.withCookies]
  | some rules =>
    rw [Request.withCookies, Cookie.values_attach]
    by_cases hn : HeaderName.cookie2 = name <;>
      by_cases hv : Cookie.needsVersion rules.policy cookies = true <;>
      simp [hn, hv, Cookie.Policy.versionFor?]

theorem Request.values_cookie_withCookies (r : Request) (rules : Option Cookie.Rules)
    (cookies : List Cookie) : (r.withCookies rules cookies).headers.values HeaderName.cookie =
      r.headers.values HeaderName.cookie ++ (rules.bind (·.policy.format cookies)).toList := by
  have hversion : HeaderName.cookie2 ≠ HeaderName.cookie := by decide
  rw [Request.values_withCookies, if_pos rfl, if_neg hversion, List.append_nil]

/-- A request gets the cookies that the rules for it choose, and the rules are kept. -/
theorem Jar.attach_made {jar : Jar} {context : Context} {now : Instant} {request : Request}
    {c : Jar.Carrying} (h : jar.attach context now request = .ok c) :
    ∃ rules, jar.rulesFor context request = .ok rules ∧
      c.cookies = rules.elim [] (jar.store.chosen · now) ∧
      c.request = request.withCookies rules c.cookies ∧
      c.context = { context with rules := rules.or context.rules } := by
  unfold Jar.attach at h
  cases hr : jar.rulesFor context request with
  | error error => simp [hr, Except.map] at h
  | ok rules =>
    rw [hr] at h
    refine ⟨rules, rfl, ?_⟩
    cases rules <;> obtain rfl := Except.ok.inj h <;> exact ⟨rfl, rfl, rfl⟩

-- ---------------------------------------------------------------------------
-- Attempts
-- ---------------------------------------------------------------------------

/-- Whether an attempt is the request of a hop, with cookies that some rules chose and with answers. -/
structure Attempt.Carries (a : Attempt) (route : Route) (request : Request) : Prop where
  taken : a.route = route
  made : ∃ rules, a.request =
    ((request.withCookies rules a.cookies).answering a.proxyAnswer).answering a.targetAnswer
  /-- A proxy that does not see the headers is not answered. -/
  seen : a.proxyAnswer.isSome → route.isForwarded = true

namespace Exchange

/-- An attempt is its request with the cookies that the rules choose now, and with the answers. -/
theorem Prepared.made {route : Route} {request : Request} {s t : Session} {a : Attempt}
    (h : Prepared route request s (.ok a) t) :
    ∃ rules, s.jar.rulesFor s.context request = .ok rules ∧
      a.cookies = rules.elim [] (s.jar.store.chosen · s.now) ∧
      a.request = ((request.withCookies rules a.cookies).answering a.proxyAnswer).answering
        a.targetAnswer := by
  cases h with
  | bare hc =>
    obtain ⟨rules, hr, hcookies, hrequest, -⟩ := Jar.attach_made hc
    exact ⟨rules, hr, hcookies, hrequest⟩
  | answered hc _ hp =>
    obtain ⟨rules, hr, hcookies, hrequest, -⟩ := Jar.attach_made hc
    exact ⟨rules, hr, hcookies, by rw [← hrequest]⟩

theorem Prepared.carries {route : Route} {request : Request} {s t : Session} {a : Attempt}
    (h : Prepared route request s (.ok a) t) : a.Carries route request := by
  obtain ⟨rules, -, -, hmade⟩ := h.made
  cases h with
  | bare => exact ⟨rfl, ⟨rules, hmade⟩, by simp⟩
  | answered _ _ hp =>
    refine ⟨rfl, ⟨rules, hmade⟩, ?_⟩
    cases hp with
    | asked hr => exact fun _ => hr
    | passed => simp

end Exchange

namespace Attempt.Carries

variable {a : Attempt} {route : Route} {request : Request}

theorem url (h : a.Carries route request) : a.request.url = request.url := by
  obtain ⟨rules, hr⟩ := h.made
  rw [hr]
  cases rules <;> rfl

theorem method (h : a.Carries route request) : a.request.method = request.method := by
  obtain ⟨rules, hr⟩ := h.made
  rw [hr]
  cases rules <;> rfl

theorem body (h : a.Carries route request) : a.request.body = request.body := by
  obtain ⟨rules, hr⟩ := h.made
  rw [hr]
  cases rules <;> rfl

theorem values_cookie (h : a.Carries route request) :
    ∃ policy : Option Cookie.Policy, a.request.headers.values HeaderName.cookie =
      request.headers.values HeaderName.cookie ++ (policy.bind (·.format a.cookies)).toList := by
  obtain ⟨rules, hr⟩ := h.made
  refine ⟨rules.map (·.policy), ?_⟩
  rw [hr, Request.values_answering_ne _ _ HeaderName.cookie_ne_answerHeader,
    Request.values_answering_ne _ _ HeaderName.cookie_ne_answerHeader, Request.values_cookie_withCookies]
  cases rules <;> rfl

theorem values_answer (h : a.Carries route request) (side : Side) :
    a.request.headers.values side.answerHeader =
      match a.answerFor side with
      | some answer => [answer.value]
      | none => request.headers.values side.answerHeader := by
  obtain ⟨rules, hr⟩ := h.made
  have hcookies : (request.withCookies rules a.cookies).headers.values side.answerHeader =
      request.headers.values side.answerHeader := by
    simp [Request.values_withCookies, HeaderName.cookie_ne_answerHeader,
      HeaderName.cookie2_ne_answerHeader]
  rw [hr, Request.values_answering, Request.values_answering, hcookies, Attempt.answerFor]
  cases a.targetAnswer.filter (·.side = side) <;> rfl

end Attempt.Carries

end HttpSession
