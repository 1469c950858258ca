import Mathlib.Logic.Relation
import HttpSession.Proofs.Exchange.RunLaws

/-!
# Exchanges step by step

The loops of an exchange as a machine. Its points say where the exchange is; it counts the redirects
followed and the rounds done upwards from zero and compares them with the bounds of the configuration,
so nothing but the peer decides how long it runs. A moment also holds the history: what was recorded
since the exchange began, the latest first.

Main statements: the machine gets from the start of an exchange to its end, with the same result and the
same session (`exchange_steps`), and to no other end (`Steps.ends`). What one step keeps, any number of
steps keeps (`Steps.keeps`).
-/

namespace HttpSession

open Auth (Side)

/-- A route on which a proxy sees the headers of requests. -/
def Route.isForwarded (r : Route) : Bool := r.proxy.isSome && !r.tunnelled

def Route.partner (r : Route) (target : Endpoint) : Side → Endpoint
  | .target => target
  | .proxy => r.proxy.getD r.target

def Request.answering (r : Request) (answer : Option Auth.Answer) : Request :=
  { r with headers := Auth.Negotiation.attach r.headers answer }

namespace Session

def carried (s : Session) (c : Jar.Carrying) : Session := { s with context := c.context }

def heardBoth (s : Session) (target : Endpoint) (route : Route) (status : Nat) : Session :=
  (s.heard .target (route.partner target .target) status).heard .proxy (route.partner target .proxy) status

def located (s : Session) (url : Url) : Session :=
  { s with context := { s.context with locations := s.context.locations ++ [url] } }

@[simp] theorem fixed_located (s : Session) (url : Url) : (s.located url).fixed = s.fixed := rfl

@[simp] theorem negotiation_located (s : Session) (url : Url) (side : Side) :
    Run.negotiation (s.located url) side = Run.negotiation s side := by
  cases side <;> rfl

@[simp] theorem negotiation_heardBoth (s : Session) (target : Endpoint) (route : Route) (status : Nat)
    (side : Side) : Run.negotiation (s.heardBoth target route status) side =
      ((Run.negotiation s side).hear side status).2.1 := by
  cases side <;> rfl

@[simp] theorem plain_heardBoth (s : Session) (target : Endpoint) (route : Route) (status : Nat) :
    (s.heardBoth target route status).plain = s.plain := by
  simp [heardBoth]

end Session

/-- Cookies are added to a request and the rules kept in the context; nothing else changes. -/
theorem Jar.attach_ok {jar : Jar} {context : Context} {now : Instant} {request : Request}
    {c : Jar.Carrying} (h : jar.attach context now request = .ok c) :
    c.context = { context with rules := c.context.rules } ∧
      c.request = { request with headers := c.request.headers } := by
  unfold Jar.attach at h
  cases hr : jar.rulesFor context request with
  | error error => simp [hr, Except.map] at h
  | ok rules =>
    rw [hr] at h
    cases rules <;> obtain rfl := Except.ok.inj h <;> exact ⟨rfl, rfl⟩

/-- Only a policy that is not known keeps cookies from being chosen. -/
theorem Jar.attach_error {jar : Jar} {context : Context} {now : Instant} {request : Request}
    {error : ExchangeError} (h : jar.attach context now request = .error error) :
    ∃ name, error = .unsupportedPolicy name := by
  unfold Jar.attach at h
  cases hr : jar.rulesFor context request with
  | ok rules => simp [hr, Except.map] at h
  | error other =>
    rw [hr] at h
    obtain rfl := Except.error.inj h
    unfold Jar.rulesFor at hr
    split at hr
    · cases hr
    · split at hr
      · simp only at hr
        split at hr
        · cases hr
        · exact ⟨_, (Except.error.inj hr).symm⟩
      · cases hr

namespace Exchange

-- ---------------------------------------------------------------------------
-- What an attempt is made of
-- ---------------------------------------------------------------------------

inductive Forwarded (route : Route) (request : Request) (s : Session) :
    Option Auth.Answer → Session → Prop
  | asked {answer : Option Auth.Answer} (hr : route.isForwarded = true)
      (ha : (s.outcome .proxy request).answer = .ok answer) :
      Forwarded route request s answer (s.answered .proxy request)
  | passed (hr : route.isForwarded = false) : Forwarded route request s none s

/-- The attempt for a request, or why there is none, and the session behind it. -/
inductive Prepared (route : Route) (request : Request) (s : Session) :
    Except ExchangeError Attempt → Session → Prop
  | refused {error : ExchangeError} (hc : s.jar.attach s.context s.now request = .error error) :
      Prepared route request s (.error error) s
  | bare {c : Jar.Carrying} (hc : s.jar.attach s.context s.now request = .ok c)
      (ha : s.context.config.authenticates = false) :
      Prepared route request s (.ok ⟨route, c.request, c.cookies, none, none⟩) (s.carried c)
  | proxyFault {c : Jar.Carrying} {fault : Auth.Fault}
      (hc : s.jar.attach s.context s.now request = .ok c)
      (ha : s.context.config.authenticates = true) (hr : route.isForwarded = true)
      (hp : ((s.carried c).outcome .proxy c.request).answer = .error fault) :
      Prepared route request s (.error (.auth fault)) ((s.carried c).answered .proxy c.request)
  | targetFault {c : Jar.Carrying} {p : Option Auth.Answer} {u : Session} {fault : Auth.Fault}
      (hc : s.jar.attach s.context s.now request = .ok c)
      (ha : s.context.config.authenticates = true) (hp : Forwarded route c.request (s.carried c) p u)
      (ht : (u.outcome .target (c.request.answering p)).answer = .error fault) :
      Prepared route request s (.error (.auth fault)) (u.answered .target (c.request.answering p))
  | answered {c : Jar.Carrying} {p a : Option Auth.Answer} {u : Session}
      (hc : s.jar.attach s.context s.now request = .ok c)
      (ha : s.context.config.authenticates = true) (hp : Forwarded route c.request (s.carried c) p u)
      (ht : (u.outcome .target (c.request.answering p)).answer = .ok a) :
      Prepared route request s
        (.ok ⟨route, (c.request.answering p).answering a, c.cookies, p, a⟩)
        (u.answered .target (c.request.answering p))

private theorem prepared_answer {route : Route} {request : Request} {s u : Session}
    {c : Jar.Carrying} {p : Option Auth.Answer}
    (hc : s.jar.attach s.context s.now request = .ok c)
    (ha : s.context.config.authenticates = true) (hp : Forwarded route c.request (s.carried c) p u)
    {run : Run Attempt}
    (hrun : run = do
      let a ← Run.answer .target (c.request.answering p)
      pure ⟨route, (c.request.answering p).answering a, c.cookies, p, a⟩) :
    Prepared route request s (run u).1 (run u).2 := by
  simp only [hrun, Run.run_bind, Run.answer_run]
  cases ht : (u.outcome .target (c.request.answering p)).answer with
  | error fault => exact .targetFault hc ha hp ht
  | ok a => exact .answered hc ha hp ht

theorem prepared_prepare (route : Route) (request : Request) (s : Session) :
    Prepared route request s ((Run.prepare route request) s).1 ((Run.prepare route request) s).2 := by
  simp only [Run.prepare, Run.run_bind, Run.run_get, Run.run_liftExcept]
  cases hc : s.jar.attach s.context s.now request with
  | error error => exact .refused hc
  | ok c =>
    have hs : ({ s with context := c.context } : Session) = s.carried c := rfl
    simp only [Run.changeContext_run, hs]
    cases ha : s.context.config.authenticates with
    | false => exact .bare hc ha
    | true =>
      simp only [not_true_eq_false, if_false]
      cases hr : route.isForwarded with
      | false =>
        rw [if_neg (by simpa [Route.isForwarded] using hr)]
        exact prepared_answer hc ha (.passed hr) rfl
      | true =>
        rw [if_pos (by simpa [Route.isForwarded] using hr), Run.run_bind, Run.answer_run]
        cases hp : ((s.carried c).outcome .proxy c.request).answer with
        | error fault => exact .proxyFault hc ha hr hp
        | ok p => exact prepared_answer hc ha (.asked hr hp) rfl

theorem Forwarded.plain {route : Route} {request : Request} {s u : Session}
    {p : Option Auth.Answer} (h : Forwarded route request s p u) : u.plain = s.plain := by
  cases h with
  | asked => simp
  | passed => rfl

/-- Answering the proxy leaves the negotiation with the target alone. -/
theorem Forwarded.negotiation_target {route : Route} {request : Request} {s u : Session}
    {p : Option Auth.Answer} (h : Forwarded route request s p u) :
    Run.negotiation u .target = Run.negotiation s .target := by
  cases h with
  | asked => exact Session.negotiation_answered_ne _ _ (by decide)
  | passed => rfl

/-- Preparing an attempt changes the context and the negotiations alone. -/
theorem Prepared.plain {route : Route} {request : Request} {s t : Session}
    {result : Except ExchangeError Attempt} (h : Prepared route request s result t) :
    t.plain = s.plain ∨ ∃ c, s.jar.attach s.context s.now request = .ok c ∧
      t.plain = (s.carried c).plain := by
  cases h with
  | refused => exact .inl rfl
  | bare hc => exact .inr ⟨_, hc, rfl⟩
  | proxyFault hc => exact .inr ⟨_, hc, by simp⟩
  | targetFault hc _ hp => exact .inr ⟨_, hc, by simp [hp.plain]⟩
  | answered hc _ hp => exact .inr ⟨_, hc, by simp [hp.plain]⟩

theorem negotiation_carried {s : Session} {request : Request} {c : Jar.Carrying}
    (h : s.jar.attach s.context s.now request = .ok c) (side : Side) :
    Run.negotiation (s.carried c) side = Run.negotiation s side := by
  have hc := (Jar.attach_ok h).1
  cases side <;> simp only [Run.negotiation, Session.carried] <;> rw [hc]

theorem fixed_carried {s : Session} {request : Request} {c : Jar.Carrying}
    (h : s.jar.attach s.context s.now request = .ok c) : (s.carried c).fixed = s.fixed := by
  have hc : c.context.config = s.context.config := by rw [(Jar.attach_ok h).1]
  simp [Session.fixed, Session.plain, Session.carried, hc]

theorem Prepared.fixed {route : Route} {request : Request} {s t : Session}
    {result : Except ExchangeError Attempt} (h : Prepared route request s result t) :
    t.fixed = s.fixed := by
  rcases h.plain with hp | ⟨c, hc, hp⟩
  · exact Session.fixed_of_plain hp
  · exact (Session.fixed_of_plain hp).trans (fixed_carried hc)

theorem Prepared.log {route : Route} {request : Request} {s t : Session}
    {result : Except ExchangeError Attempt} (h : Prepared route request s result t) :
    t.log = s.log := by
  rcases h.plain with hp | ⟨c, -, hp⟩
  · exact Session.log_of_plain hp
  · exact (Session.log_of_plain hp).trans rfl

theorem Prepared.attempts {route : Route} {request : Request} {s t : Session}
    {result : Except ExchangeError Attempt} (h : Prepared route request s result t) :
    t.attempts = s.attempts := by
  rcases h.plain with hp | ⟨c, -, hp⟩
  · exact Session.attempts_of_plain hp
  · exact (Session.attempts_of_plain hp).trans rfl

theorem Prepared.negotiation_of_disabled {route : Route} {request : Request} {s t : Session}
    {result : Except ExchangeError Attempt} (h : Prepared route request s result t)
    (ha : s.context.config.authenticates = false) (side : Side) :
    Run.negotiation t side = Run.negotiation s side := by
  cases h with
  | refused => rfl
  | bare hc => exact negotiation_carried hc side
  | proxyFault _ hn => rw [ha] at hn; cases hn
  | targetFault _ hn => rw [ha] at hn; cases hn
  | answered _ hn => rw [ha] at hn; cases hn

-- ---------------------------------------------------------------------------
-- What becomes of a response
-- ---------------------------------------------------------------------------

/-- The side whose challenge is worth answering, and the session behind it. -/
inductive Judged (target : Endpoint) (route : Route) (response : Response) (s : Session) :
    Option Side → Session → Prop
  | disabled (ha : s.context.config.authenticates = false) : Judged target route response s none s
  | asked {side : Side} (ha : s.context.config.authenticates = true)
      (hr : response.status = side.status) :
      Judged target route response s
        (if ((s.heardBoth target route response.status).reaction side (route.partner target side)
          response).1 then some side else none)
        ((s.heardBoth target route response.status).reacted side (route.partner target side) response)
  | noTunnelChallenge (ha : s.context.config.authenticates = true)
      (hr : ∀ side : Side, response.status ≠ side.status) :
      Judged target route response s none (s.heardBoth target route response.status)

/-- Judging a response never fails. -/
theorem judged_challenger? (target : Endpoint) (route : Route) (response : Response) (s : Session) :
    ∃ side u, (Run.challenger? target route response) s = (.ok side, u) ∧
      Judged target route response s side u := by
  unfold Run.challenger?
  simp only [Run.run_bind, Run.run_get]
  cases ha : s.context.config.authenticates with
  | false => exact ⟨none, s, rfl, .disabled ha⟩
  | true =>
    simp only [not_true_eq_false, if_false, Run.run_bind, Run.hear_run, decide_eq_true_eq]
    by_cases ht : response.status = Side.target.status
    · rw [if_pos ht, Run.run_bind, Run.react_run]
      exact ⟨_, _, rfl, .asked ha ht⟩
    · rw [if_neg ht]
      by_cases hp : response.status = Side.proxy.status
      · rw [if_pos hp, Run.run_bind, Run.react_run]
        exact ⟨_, _, rfl, .asked ha hp⟩
      · rw [if_neg hp]
        refine ⟨_, _, rfl, .noTunnelChallenge ha ?_⟩
        intro side
        cases side
        · exact ht
        · exact hp

theorem Judged.plain {target : Endpoint} {route : Route} {response : Response} {s t : Session}
    {side : Option Side} (h : Judged target route response s side t) : t.plain = s.plain := by
  cases h <;> simp

theorem Judged.fixed {target : Endpoint} {route : Route} {response : Response} {s t : Session}
    {side : Option Side} (h : Judged target route response s side t) : t.fixed = s.fixed :=
  Session.fixed_of_plain h.plain

theorem Judged.of_disabled {target : Endpoint} {route : Route} {response : Response} {s t : Session}
    {side : Option Side} (h : Judged target route response s side t)
    (ha : s.context.config.authenticates = false) : side = none ∧ t = s := by
  cases h with
  | disabled => exact ⟨rfl, rfl⟩
  | asked hn => rw [ha] at hn; cases hn
  | noTunnelChallenge hn => rw [ha] at hn; cases hn

theorem Judged.authenticates {target : Endpoint} {route : Route} {response : Response} {s t : Session}
    {side : Side} (h : Judged target route response s (some side) t) :
    s.context.config.authenticates = true := by
  cases ha : s.context.config.authenticates with
  | true => rfl
  | false => cases (h.of_disabled ha).1

theorem resolve?_ok {proxy : Option Endpoint} {target : Endpoint} {route : Route}
    (h : Route.resolve? proxy target = some route) :
    route.target = target.normalized ∧ route.proxy = proxy.map Endpoint.normalized := by
  unfold Route.resolve? at h
  split at h
  · cases h
  · cases proxy <;> cases h <;> exact ⟨rfl, rfl⟩

theorem status_of_follows {client : Client} {c : Config} {request : Request} {r : Response}
    (h : client.follows c request r = true) (side : Side) : r.status ≠ side.status := by
  intro hs
  simp only [Client.follows, Bool.and_eq_true] at h
  have hr := h.2
  cases side <;> simp [Redirect.isRedirected, hs, Side.status] at hr

/-- Where a response leads, or why nowhere, and the session behind it. -/
inductive Led (client : Client) (first current : Request) (route : Route) (response : Response)
    (s : Session) : Except ExchangeError Run.Onward → Session → Prop
  | unlocated {error : ExchangeError}
      (hl : Redirect.nextLocation s.context.config s.context.locations current response.status
        response.headers = .error error) :
      Led client first current route response s (.error error) s
  | hostless {url : Url}
      (hl : Redirect.nextLocation s.context.config s.context.locations current response.status
        response.headers = .ok url)
      (ht : Endpoint.ofUrl? url = none) :
      Led client first current route response s (.error (.redirectWithoutHost url.href))
        (s.located url)
  | nameless {url : Url} {target : Endpoint}
      (hl : Redirect.nextLocation s.context.config s.context.locations current response.status
        response.headers = .ok url)
      (ht : Endpoint.ofUrl? url = some target) (hr : Route.resolve? client.proxy target = none) :
      Led client first current route response s (.error (.protocol .emptyHostName))
        ((s.located url).left route target)
  | onward {url : Url} {target : Endpoint} {next : Route}
      (hl : Redirect.nextLocation s.context.config s.context.locations current response.status
        response.headers = .ok url)
      (ht : Endpoint.ofUrl? url = some target) (hr : Route.resolve? client.proxy target = some next) :
      Led client first current route response s
        (.ok ⟨next, { Redirect.requestTo url current response.status with headers := first.headers }⟩)
        ((s.located url).left route target)

@[simp] theorem url_requestTo (url : Url) (request : Request) (status : Nat) :
    (Redirect.requestTo url request status).url = url := by
  unfold Redirect.requestTo
  split
  · rfl
  · split <;> rfl

theorem led_onward (client : Client) (first current : Request) (route : Route) (response : Response)
    (s : Session) :
    Led client first current route response s
      ((Run.onward client first current route response) s).1
      ((Run.onward client first current route response) s).2 := by
  simp only [Run.onward, Run.onwardRequest, Run.run_bind, Run.run_get, Run.run_liftExcept]
  cases hl : Redirect.nextLocation s.context.config s.context.locations current response.status
      response.headers with
  | error error => exact .unlocated hl
  | ok url =>
    simp only [Run.changeContext_run, Run.run_pure, url_requestTo]
    cases ht : Endpoint.ofUrl? url with
    | none => exact .hostless hl ht
    | some target =>
      simp only [Run.run_bind, Run.leave_run]
      cases hr : Route.resolve? client.proxy target with
      | none => exact .nameless hl ht hr
      | some next =>
        have h : Led client first current route response s _ _ := .onward hl ht hr
        simp only [url_requestTo] at h
        exact h

theorem locationOf_error {c : Config} {request : Request} {status : Nat} {h : Headers}
    {error : ExchangeError} (hl : Redirect.locationOf c request status h = .error error) :
    ∃ violation, error = .protocol violation := by
  unfold Redirect.locationOf at hl
  split at hl
  · exact ⟨_, (Except.error.inj hl).symm⟩
  · rename_i location _
    cases hr : Redirect.readLocation c request.url location with
    | ok url =>
      rw [hr] at hl
      cases hl
    | error other =>
      rw [hr] at hl
      obtain rfl := Except.error.inj hl
      unfold Redirect.readLocation at hr
      repeat' split at hr
      all_goals cases hr
      all_goals exact ⟨_, rfl⟩

/-- A response leads nowhere if it breaks the protocol, leads in a circle, or leads to no host. -/
theorem Led.error_cases {client : Client} {first current : Request} {route : Route}
    {response : Response} {s t : Session} {error : ExchangeError}
    (h : Led client first current route response s (.error error) t) :
    (∃ violation, error = .protocol violation) ∨ (∃ url, error = .circularRedirect url) ∨
      ∃ url, error = .redirectWithoutHost url := by
  cases h with
  | unlocated hl =>
    unfold Redirect.nextLocation at hl
    cases hlocation : Redirect.locationOf s.context.config current response.status response.headers with
    | error other =>
      rw [hlocation] at hl
      obtain rfl := Except.error.inj hl
      exact .inl (locationOf_error hlocation)
    | ok url =>
      simp only [hlocation, bind, Except.bind] at hl
      split at hl
      · exact .inr (.inl ⟨_, (Except.error.inj hl).symm⟩)
      · cases hl
  | hostless => exact .inr (.inr ⟨_, rfl⟩)
  | nameless => exact .inl ⟨_, rfl⟩

theorem Led.fixed {client : Client} {first current : Request} {route : Route} {response : Response}
    {s t : Session} {result : Except ExchangeError Run.Onward}
    (h : Led client first current route response s result t) : t.fixed = s.fixed := by
  cases h <;> simp

theorem Led.log {client : Client} {first current : Request} {route : Route} {response : Response}
    {s t : Session} {result : Except ExchangeError Run.Onward}
    (h : Led client first current route response s result t) : t.log = s.log := by
  cases h with
  | unlocated => rfl
  | hostless => rfl
  | nameless => exact Session.log_left _ _ _
  | onward => exact Session.log_left _ _ _

theorem Led.attempts {client : Client} {first current : Request} {route : Route} {response : Response}
    {s t : Session} {result : Except ExchangeError Run.Onward}
    (h : Led client first current route response s result t) : t.attempts = s.attempts := by
  cases h with
  | unlocated => rfl
  | hostless => rfl
  | nameless => exact Session.attempts_left _ _ _
  | onward => exact Session.attempts_left _ _ _

-- ---------------------------------------------------------------------------
-- The machine
-- ---------------------------------------------------------------------------

/-- A hop: how many redirects led to it, its route and its request. -/
structure Leg where
  followed : Nat
  route : Route
  request : Request

inductive Point
  /-- A hop is to begin. -/
  | hopping (leg : Leg)
  /-- An attempt is to be prepared, after some rounds of the hop. -/
  | attempting (leg : Leg) (rounds : Nat)
  /-- An attempt is to be sent. -/
  | waiting (leg : Leg) (rounds : Nat) (attempt : Attempt)
  /-- The cookies of a response were kept, and its challenges are to be judged. -/
  | judging (leg : Leg) (rounds : Nat) (response : Response)
  /-- A hop ended with a response. -/
  | answered (leg : Leg) (response : Response)
  | ended (result : Except ExchangeError Response)

structure Moment where
  point : Point
  session : Session
  /-- What was recorded since the exchange began, the latest first. -/
  history : List Event

inductive Step (client : Client) (first : Request) : Moment → Moment → Prop
  | stray {leg : Leg} {s : Session} {h : List Event}
      (ht : Endpoint.ofUrl? leg.request.url = none) :
      Step client first ⟨.hopping leg, s, h⟩
        ⟨.ended (.error (.protocol (.noHost leg.request.url.href))),
          s.recorded [.hop leg.route leg.request.url], .hop leg.route leg.request.url :: h⟩
  | enter {leg : Leg} {s : Session} {h : List Event} {target : Endpoint}
      (ht : Endpoint.ofUrl? leg.request.url = some target) :
      Step client first ⟨.hopping leg, s, h⟩
        ⟨.attempting leg 0, (s.recorded [.hop leg.route leg.request.url]).entered leg.route target,
          .hop leg.route leg.request.url :: h⟩
  | unprepared {leg : Leg} {k : Nat} {s t : Session} {h : List Event} {error : ExchangeError}
      (hp : Prepared leg.route leg.request s (.error error) t) :
      Step client first ⟨.attempting leg k, s, h⟩ ⟨.ended (.error error), t, h⟩
  | prepared {leg : Leg} {k : Nat} {s t : Session} {h : List Event} {attempt : Attempt}
      (hp : Prepared leg.route leg.request s (.ok attempt) t) :
      Step client first ⟨.attempting leg k, s, h⟩ ⟨.waiting leg k attempt, t, h⟩
  | unreceived {leg : Leg} {k : Nat} {s : Session} {h : List Event} {attempt : Attempt}
      {error : ExchangeError}
      (hr : Run.receive (s.attempts + 1) attempt.request.url (client.peer (s.attempts + 1)) =
        .error error) :
      Step client first ⟨.waiting leg k attempt, s, h⟩
        ⟨.ended (.error error), (s.sent attempt).waited client, .sent attempt :: h⟩
  | received {leg : Leg} {k : Nat} {s u : Session} {h : List Event} {attempt : Attempt}
      {response : Response}
      (hr : Run.receive (s.attempts + 1) attempt.request.url (client.peer (s.attempts + 1)) =
        .ok response)
      (hu : u = ((s.sent attempt).waited client).recorded [.received (s.attempts + 1) response]) :
      Step client first ⟨.waiting leg k attempt, s, h⟩
        ⟨.judging leg k response, u.ingested response,
          .stored u.context.rules (u.jar.ingest u.context.rules u.now response.headers).1 ::
            .received (s.attempts + 1) response :: .sent attempt :: h⟩
  | settled {leg : Leg} {k : Nat} {s t : Session} {h : List Event} {response : Response}
      {target : Endpoint} (ht : Endpoint.ofUrl? leg.request.url = some target)
      (hj : Judged target.normalized leg.route response s none t) :
      Step client first ⟨.judging leg k response, s, h⟩ ⟨.answered leg response, t, h⟩
  | spent {leg : Leg} {k : Nat} {s t : Session} {h : List Event} {response : Response}
      {target : Endpoint} {side : Side} (ht : Endpoint.ofUrl? leg.request.url = some target)
      (hj : Judged target.normalized leg.route response s (some side) t)
      (hk : t.context.config.maxRounds ≤ k + 1) :
      Step client first ⟨.judging leg k response, s, h⟩ ⟨.answered leg response, t.gaveUp side, h⟩
  | unread {leg : Leg} {k : Nat} {s t : Session} {h : List Event} {response : Response}
      {target : Endpoint} {side : Side} {error : ExchangeError}
      (ht : Endpoint.ofUrl? leg.request.url = some target)
      (hj : Judged target.normalized leg.route response s (some side) t)
      (hk : k + 1 < t.context.config.maxRounds) (hb : response.contents = .error error) :
      Step client first ⟨.judging leg k response, s, h⟩
        ⟨.ended (.error error), t.recorded response.reading, response.reading ++ h⟩
  | again {leg : Leg} {k : Nat} {s t : Session} {h : List Event} {response : Response}
      {target : Endpoint} {side : Side} {bytes : Bytes}
      (ht : Endpoint.ofUrl? leg.request.url = some target)
      (hj : Judged target.normalized leg.route response s (some side) t)
      (hk : k + 1 < t.context.config.maxRounds) (hb : response.contents = .ok bytes) :
      Step client first ⟨.judging leg k response, s, h⟩
        ⟨.attempting leg (k + 1), t.recorded response.reading, response.reading ++ h⟩
  | final {leg : Leg} {s : Session} {h : List Event} {response : Response}
      (hf : client.follows s.context.config leg.request response = false) :
      Step client first ⟨.answered leg response, s, h⟩ ⟨.ended (.ok response), s, h⟩
  | limit {leg : Leg} {s : Session} {h : List Event} {response : Response} {error : ExchangeError}
      (hf : client.follows s.context.config leg.request response = true)
      (hm : s.context.config.maxRedirects ≤ leg.followed)
      (he : error = .redirectLimit s.context.config.maxRedirects) :
      Step client first ⟨.answered leg response, s, h⟩
        ⟨.ended (.error error), s.recorded (response.releasing error), response.releasing error ++ h⟩
  | unfollowable {leg : Leg} {s t : Session} {h : List Event} {response : Response} {error : ExchangeError}
      (hf : client.follows s.context.config leg.request response = true)
      (hm : leg.followed < s.context.config.maxRedirects)
      (hl : Led client first leg.request leg.route response s (.error error) t) :
      Step client first ⟨.answered leg response, s, h⟩
        ⟨.ended (.error error), t.recorded (response.releasing error), response.releasing error ++ h⟩
  | stuck {leg : Leg} {s t : Session} {h : List Event} {response : Response} {next : Run.Onward}
      {error : ExchangeError}
      (hf : client.follows s.context.config leg.request response = true)
      (hm : leg.followed < s.context.config.maxRedirects)
      (hl : Led client first leg.request leg.route response s (.ok next) t)
      (hb : response.contents = .error error) :
      Step client first ⟨.answered leg response, s, h⟩
        ⟨.ended (.error error), t.recorded response.reading, response.reading ++ h⟩
  | onward {leg : Leg} {s t : Session} {h : List Event} {response : Response} {next : Run.Onward}
      {bytes : Bytes}
      (hf : client.follows s.context.config leg.request response = true)
      (hm : leg.followed < s.context.config.maxRedirects)
      (hl : Led client first leg.request leg.route response s (.ok next) t)
      (hb : response.contents = .ok bytes) :
      Step client first ⟨.answered leg response, s, h⟩
        ⟨.hopping ⟨leg.followed + 1, next.route, next.request⟩, t.recorded response.reading,
          response.reading ++ h⟩

theorem Step.fixed {client : Client} {first : Request} {m n : Moment} (h : Step client first m n) :
    n.session.fixed = m.session.fixed := by
  cases h with
  | stray => rfl
  | enter => rfl
  | unprepared hp => exact hp.fixed
  | prepared hp => exact hp.fixed
  | unreceived => rfl
  | received _ hu => subst hu; simp
  | settled _ hj => exact hj.fixed
  | spent _ hj => exact (Session.fixed_of_plain (Session.plain_gaveUp _ _)).trans hj.fixed
  | unread _ hj => exact hj.fixed
  | again _ hj => exact hj.fixed
  | final => rfl
  | limit => rfl
  | unfollowable _ _ hl => exact hl.fixed
  | stuck _ _ hl => exact hl.fixed
  | onward _ _ hl => exact hl.fixed

/-- The history of a moment is what the log holds beyond some base. -/
def Moment.Tracks (base : List Event) (m : Moment) : Prop :=
  m.session.log = base ++ m.history.reverse

theorem Step.tracks {client : Client} {first : Request} {m n : Moment} {base : List Event}
    (h : Step client first m n) (hm : m.Tracks base) : n.Tracks base := by
  obtain ⟨point, s, history⟩ := m
  simp only [Moment.Tracks] at hm ⊢
  cases h with
  | stray => simp [hm]
  | enter => simp [Session.entered, hm]
  | unprepared hp => exact hp.log.trans hm
  | prepared hp => exact hp.log.trans hm
  | unreceived => simp [Session.sent, hm]
  | received _ hu => subst hu; simp [Session.ingested, Session.sent, hm]
  | settled _ hj => exact (Session.log_of_plain hj.plain).trans hm
  | spent _ hj =>
    exact (Session.log_of_plain ((Session.plain_gaveUp _ _).trans hj.plain)).trans hm
  | unread _ hj => simp [Session.log_of_plain hj.plain, hm]
  | again _ hj => simp [Session.log_of_plain hj.plain, hm]
  | final => exact hm
  | limit => simp [hm]
  | unfollowable _ _ hl => simp [hl.log, hm]
  | stuck _ _ hl => simp [hl.log, hm]
  | onward _ _ hl => simp [hl.log, hm]

-- ---------------------------------------------------------------------------
-- Exchanges are runs of the machine
-- ---------------------------------------------------------------------------

abbrev Steps (client : Client) (first : Request) : Moment → Moment → Prop :=
  Relation.ReflTransGen (Step client first)

theorem Steps.keeps {client : Client} {first : Request} {I : Moment → Prop} {m n : Moment}
    (hI : ∀ {m n}, Step client first m n → I m → I n) (h : Steps client first m n) (hm : I m) :
    I n := by
  induction h with
  | refl => exact hm
  | tail _ hs ih => exact hI hs ih

theorem Steps.fixed {client : Client} {first : Request} {m n : Moment}
    (h : Steps client first m n) : n.session.fixed = m.session.fixed :=
  h.keeps (I := fun n => n.session.fixed = m.session.fixed) (fun hs hm => hs.fixed.trans hm) rfl

def Point.behind (leg : Leg) : Except ExchangeError Response → Point
  | .ok response => .answered leg response
  | .error error => .ended (.error error)

theorem round_steps (client : Client) (first : Request) (leg : Leg) (target : Endpoint) (k : Nat)
    (s : Session) (h : List Event) :
    (∃ error t h', (Run.round client leg.route leg.request target) s = (.error error, t) ∧
      Steps client first ⟨.attempting leg k, s, h⟩ ⟨.ended (.error error), t, h'⟩) ∨
    ∃ response side u t h', (Run.round client leg.route leg.request target) s = (.ok (response, side), t) ∧
      Steps client first ⟨.attempting leg k, s, h⟩ ⟨.judging leg k response, u, h'⟩ ∧
      Judged target leg.route response u side t := by
  have hp := prepared_prepare leg.route leg.request s
  simp only [Run.round, Run.run_bind, Run.send_run, Run.ingest_run]
  rcases hrun : (Run.prepare leg.route leg.request) s with ⟨error | attempt, t⟩
  · rw [hrun] at hp
    exact .inl ⟨error, t, h, rfl, .single (.unprepared hp)⟩
  · rw [hrun] at hp
    cases hr : Run.receive (t.attempts + 1) attempt.request.url (client.peer (t.attempts + 1)) with
    | error error =>
      exact .inl ⟨error, _, _, by simp only [hr], .tail (.single (.prepared hp)) (.unreceived hr)⟩
    | ok response =>
      obtain ⟨side, v, hv, hj⟩ := judged_challenger? target leg.route response
        ((((t.sent attempt).waited client).recorded
          [.received (t.attempts + 1) response]).ingested response)
      refine .inr ⟨response, side, _, v, _, ?_, .tail (.single (.prepared hp)) (.received hr rfl), hj⟩
      simp only [hr, hv, Run.run_pure]

theorem rounds_steps (client : Client) (first : Request) {leg : Leg} {target : Endpoint}
    (ht : Endpoint.ofUrl? leg.request.url = some target) (n k : Nat) (s : Session) (h : List Event)
    (hn : n = s.context.config.maxRounds - (k + 1)) :
    ∃ h', Steps client first ⟨.attempting leg k, s, h⟩
      ⟨.behind leg ((Run.rounds client leg.route leg.request target.normalized n) s).1,
        ((Run.rounds client leg.route leg.request target.normalized n) s).2, h'⟩ := by
  -- The loop counts down what the machine counts up.
  induction n generalizing k s h with
  | zero =>
    unfold Run.rounds
    rw [Run.run_bind]
    obtain ⟨error, t, h', hr, hs⟩ | ⟨response, side, u, t, h', hr, hs, hj⟩ :=
      round_steps client first leg target.normalized k s h
    · rw [hr]
      exact ⟨h', hs⟩
    · rw [hr]
      cases side with
      | none => exact ⟨h', hs.tail (.settled ht hj)⟩
      | some side =>
        simp only [Run.run_bind, Run.giveUp_run, Run.run_pure]
        have hc : t.context.config = s.context.config :=
          Session.config_of_fixed (hj.fixed.trans hs.fixed)
        exact ⟨h', hs.tail (.spent ht hj (by rw [hc]; omega))⟩
  | succ n ih =>
    unfold Run.rounds
    rw [Run.run_bind]
    obtain ⟨error, t, h', hr, hs⟩ | ⟨response, side, u, t, h', hr, hs, hj⟩ :=
      round_steps client first leg target.normalized k s h
    · rw [hr]
      exact ⟨h', hs⟩
    · rw [hr]
      cases side with
      | none => exact ⟨h', hs.tail (.settled ht hj)⟩
      | some side =>
        have hc : t.context.config = s.context.config :=
          Session.config_of_fixed (hj.fixed.trans hs.fixed)
        have hk : k + 1 < t.context.config.maxRounds := by rw [hc]; omega
        simp only [Run.run_bind, Run.readBody_run]
        cases hb : response.contents with
        | error error => exact ⟨_, hs.tail (.unread ht hj hk hb)⟩
        | ok bytes =>
          have hn' : n = (t.recorded response.reading).context.config.maxRounds - (k + 1 + 1) := by
            show n = t.context.config.maxRounds - (k + 1 + 1)
            rw [hc]; omega
          obtain ⟨h'', hs'⟩ := ih (k + 1) _ _ hn'
          exact ⟨h'', (hs.tail (.again ht hj hk hb)).trans hs'⟩

theorem hop_steps (client : Client) (first : Request) (leg : Leg) (s : Session) (h : List Event) :
    ∃ h', Steps client first ⟨.hopping leg, s, h⟩
      ⟨.behind leg ((Run.hop client leg.route leg.request) s).1,
        ((Run.hop client leg.route leg.request) s).2, h'⟩ := by
  simp only [Run.hop, Run.run_bind, Run.record_run]
  cases ht : Endpoint.ofUrl? leg.request.url with
  | none => exact ⟨_, .single (.stray ht)⟩
  | some target =>
    simp only [Run.run_bind, Run.changeContext_run, Run.run_get]
    obtain ⟨h', hs⟩ := rounds_steps client first ht _ 0
      ((s.recorded [.hop leg.route leg.request.url]).entered leg.route target)
      (.hop leg.route leg.request.url :: h) rfl
    exact ⟨h', .head (.enter ht) hs⟩

theorem releasing_run {α : Type} (response : Response) (run : Run α) (s : Session) :
    (Run.releasing response run) s =
      match run s with
      | (.ok a, t) => (.ok a, t)
      | (.error error, t) => (.error error, t.recorded (response.releasing error)) := by
  simp only [Run.releasing, Run.run_tryCatch]
  rcases run s with ⟨error | a, t⟩
  · simp only [Run.run_bind, Run.release_run, Run.run_throw]
  · rfl

theorem hops_steps (client : Client) (first : Request) (n : Nat) (leg : Leg) (s : Session)
    (h : List Event) (hn : n = s.context.config.maxRedirects - leg.followed) :
    ∃ h', Steps client first ⟨.hopping leg, s, h⟩
      ⟨.ended ((Run.hops client first n leg.route leg.request) s).1,
        ((Run.hops client first n leg.route leg.request) s).2, h'⟩ := by
  induction n generalizing leg s h with
  | zero =>
    unfold Run.hops
    rw [Run.run_bind]
    obtain ⟨h', hs⟩ := hop_steps client first leg s h
    rcases hr : (Run.hop client leg.route leg.request) s with ⟨error | response, t⟩ <;> rw [hr] at hs
    · exact ⟨h', hs⟩
    · have hc : t.context.config = s.context.config := Session.config_of_fixed hs.fixed
      simp only [Run.run_bind, Run.isFollowed_run]
      cases hf : client.follows t.context.config leg.request response with
      | false => exact ⟨h', hs.tail (.final hf)⟩
      | true =>
        simp only [if_true, Run.run_bind, Run.run_get, releasing_run, Run.run_throw]
        exact ⟨_, hs.tail (.limit hf (by rw [hc]; omega) rfl)⟩
  | succ n ih =>
    unfold Run.hops
    rw [Run.run_bind]
    obtain ⟨h', hs⟩ := hop_steps client first leg s h
    rcases hr : (Run.hop client leg.route leg.request) s with ⟨error | response, t⟩ <;> rw [hr] at hs
    · exact ⟨h', hs⟩
    · have hc : t.context.config = s.context.config := Session.config_of_fixed hs.fixed
      have hm : leg.followed < t.context.config.maxRedirects := by rw [hc]; omega
      simp only [Run.run_bind, Run.isFollowed_run]
      cases hf : client.follows t.context.config leg.request response with
      | false => exact ⟨h', hs.tail (.final hf)⟩
      | true =>
        simp only [if_true, Run.run_bind, releasing_run]
        have hl := led_onward client first leg.request leg.route response t
        rcases ho : (Run.onward client first leg.request leg.route response) t with
          ⟨error | next, u⟩ <;> rw [ho] at hl
        -- Where the way on fails, the response is released; else it is read before the next hop.
        · exact ⟨_, hs.tail (.unfollowable hf hm hl)⟩
        · simp only [Run.readBody_run]
          cases hb : response.contents with
          | error error => exact ⟨_, hs.tail (.stuck hf hm hl hb)⟩
          | ok bytes =>
            have hu : u.context.config = s.context.config :=
              Session.config_of_fixed (hl.fixed.trans hs.fixed)
            have hn' : n = (u.recorded response.reading).context.config.maxRedirects -
                (leg.followed + 1) := by
              show n = u.context.config.maxRedirects - (leg.followed + 1)
              rw [hu]; omega
            obtain ⟨h'', hs'⟩ := ih ⟨leg.followed + 1, next.route, next.request⟩ _ _ hn'
            exact ⟨h'', (hs.tail (.onward hf hm hl hb)).trans hs'⟩

def start (s : Session) (route : Route) (request : Request) : Moment :=
  ⟨.hopping ⟨0, route, request⟩, { s with context := { s.context with locations := [] } }, []⟩

/-- The log of a moment is what was recorded before the exchange and its history. -/
theorem Steps.log {client : Client} {first request : Request} {s : Session} {route : Route} {m : Moment}
    (h : Steps client first (start s route request) m) : m.session.log = s.log ++ m.history.reverse :=
  h.keeps (I := Moment.Tracks s.log) Step.tracks (by simp [Moment.Tracks, start])

/-- An exchange that finds no way to its target ends where it is; every other one is a run of the
machine, with the same result and the same session. -/
theorem exchange_steps (client : Client) (request : Request) (s : Session) :
    (∃ violation, (Run.exchange client request) s = (.error (.protocol violation), s) ∧
      (Endpoint.ofUrl? request.url).bind (Route.resolve? client.proxy) = none) ∨
    ∃ route h, (Endpoint.ofUrl? request.url).bind (Route.resolve? client.proxy) = some route ∧
      Steps client request (start s route request)
        ⟨.ended ((Run.exchange client request) s).1, ((Run.exchange client request) s).2, h⟩ := by
  unfold Run.exchange
  cases ht : Endpoint.ofUrl? request.url with
  | none => exact .inl ⟨_, rfl, rfl⟩
  | some target =>
    cases hr : Route.resolve? client.proxy target with
    | none => exact .inl ⟨.emptyHostName, by simp [hr], by simp [hr]⟩
    | some route =>
      refine .inr ⟨route, ?_⟩
      simp only [hr, Run.run_bind, Run.changeContext_run, Run.run_get, Option.bind_some, true_and]
      exact hops_steps client request _ ⟨0, route, request⟩ _ _ rfl

-- ---------------------------------------------------------------------------
-- There is one end only
-- ---------------------------------------------------------------------------

theorem status_injective {side other : Side} (h : side.status = other.status) : side = other := by
  cases side <;> cases other <;> first | rfl | exact absurd h (by decide)

theorem Forwarded.unique {route : Route} {request : Request} {s t t' : Session}
    {p p' : Option Auth.Answer} (h : Forwarded route request s p t)
    (h' : Forwarded route request s p' t') : p = p' ∧ t = t' := by
  cases h <;> cases h' <;> simp_all

theorem Prepared.unique {route : Route} {request : Request} {s t t' : Session}
    {result result' : Except ExchangeError Attempt} (h : Prepared route request s result t)
    (h' : Prepared route request s result' t') : result = result' ∧ t = t' := by
  cases h with
  | refused => cases h' <;> simp_all
  | bare => cases h' <;> simp_all
  | proxyFault => cases h' <;> grind [cases Forwarded]
  | targetFault => cases h' <;> grind [Forwarded.unique, cases Forwarded]
  | answered => cases h' <;> grind [Forwarded.unique, cases Forwarded]

theorem Judged.unique {target : Endpoint} {route : Route} {response : Response} {s t t' : Session}
    {side side' : Option Side} (h : Judged target route response s side t)
    (h' : Judged target route response s side' t') : side = side' ∧ t = t' := by
  cases h with
  | disabled => cases h' <;> simp_all
  | asked _ hr =>
    cases h' with
    | disabled => simp_all
    | asked _ hr' =>
      obtain rfl := status_injective (hr.symm.trans hr')
      exact ⟨rfl, rfl⟩
    | noTunnelChallenge _ hr' => exact absurd hr (hr' _)
  | noTunnelChallenge _ hr =>
    cases h' with
    | disabled => simp_all
    | asked _ hr' => exact absurd hr' (hr _)
    | noTunnelChallenge => exact ⟨rfl, rfl⟩

theorem Led.unique {client : Client} {first current : Request} {route : Route} {response : Response}
    {s t t' : Session} {result result' : Except ExchangeError Run.Onward}
    (h : Led client first current route response s result t)
    (h' : Led client first current route response s result' t') : result = result' ∧ t = t' := by
  cases h <;> cases h' <;> simp_all

/-- At most one step is possible at each moment. -/
theorem Step.unique {client : Client} {first : Request} {m n n' : Moment} (h : Step client first m n)
    (h' : Step client first m n') : n = n' := by
  cases h with
  | stray => cases h' <;> simp_all
  | enter => cases h' <;> simp_all
  | unprepared => cases h' <;> grind [Prepared.unique]
  | prepared => cases h' <;> grind [Prepared.unique]
  | unreceived => cases h' <;> simp_all
  | received => cases h' <;> simp_all
  | settled => cases h' <;> grind [Judged.unique]
  | spent => cases h' <;> grind [Judged.unique]
  | unread => cases h' <;> grind [Judged.unique]
  | again => cases h' <;> grind [Judged.unique]
  | final => cases h' <;> simp_all
  | limit => cases h' <;> grind
  | unfollowable => cases h' <;> grind [Led.unique]
  | stuck => cases h' <;> grind [Led.unique]
  | onward => cases h' <;> grind [Led.unique]

/-- An exchange has one end only, whichever moment it comes to before. -/
theorem Steps.ends {client : Client} {first : Request} {o m : Moment} {t t' : Session}
    {result result' : Except ExchangeError Response} {h h' : List Event}
    (he : Steps client first o ⟨.ended result, t, h⟩) (hm : Steps client first o m)
    (hs : Step client first m ⟨.ended result', t', h'⟩) : result = result' ∧ t = t' ∧ h = h' := by
  have hunique : Relator.RightUnique (Step client first) := fun _ _ _ => Step.unique
  have hstops {result : Except ExchangeError Response} {t : Session} {h : List Event} {n : Moment}
      (hn : Steps client first ⟨.ended result, t, h⟩ n) : n = ⟨.ended result, t, h⟩ := by
    rcases hn.cases_head with heq | ⟨_, hstep, -⟩
    · exact heq.symm
    · cases hstep
  have heq : (⟨.ended result, t, h⟩ : Moment) = ⟨.ended result', t', h'⟩ := by
    rcases Relation.ReflTransGen.total_of_right_unique hunique he (hm.tail hs) with hn | hn
    · exact (hstops hn).symm
    · exact hstops hn
  simpa using heq

end Exchange

-- ---------------------------------------------------------------------------
-- Exchanges that begin with nothing held
-- ---------------------------------------------------------------------------

namespace Session

/-- Whether an exchange in a session would begin with nothing held, and know the usual schemes. -/
structure IsFresh (s : Session) : Prop where
  context : s.context = { config := s.context.config }
  side : ∀ side, (Run.strategy s side).side = side
  schemes : ∀ side, ∃ limits, (Run.strategy s side).schemes = (Auth.Schemes.known limits : Auth.Registry)

def opened (config : Config) (vault : Auth.Vault) : Session where
  context := { config }
  target := { side := .target, schemes := Auth.Schemes.known {}, vault }
  proxy := { side := .proxy, schemes := Auth.Schemes.known {}, vault }
  now := .epoch
  draws := ⟨[], 0⟩

theorem IsFresh.negotiation_start {s : Session} (hs : s.IsFresh) (route : Route) (request : Request)
    (side : Auth.Side) : Run.negotiation (Exchange.start s route request).session side = {} := by
  have hcontext := hs.context
  cases side <;> simp only [Run.negotiation, Exchange.start] <;> rw [hcontext]

theorem isFresh_opened (config : Config) (vault : Auth.Vault) : (opened config vault).IsFresh := by
  refine ⟨rfl, ?_, ?_⟩
  · intro side
    cases side <;> rfl
  · intro side
    exact ⟨{}, by cases side <;> rfl⟩

end Session

def Client.replying (replies : List Reply) : Client where
  peer number := replies.getD (number - 1) .timeout

def Request.to (scheme host : Text) : Request where
  method := Method.get
  url := ⟨scheme, some ⟨[], [], some (.name host), none⟩, "/", none, none⟩

def Exchange.passwordSession : Session := .opened {} [({}, ⟨"u", "p", none⟩)]

end HttpSession
