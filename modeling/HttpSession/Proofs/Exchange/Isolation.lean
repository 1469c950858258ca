import HttpSession.Proofs.Auth.NegotiationLaws
import HttpSession.Proofs.Exchange.Attempts

/-!
# Credentials are isolated by endpoint

Credentials sit in a negotiation through rounds and through redirects, so what may be held depends on what
was received and on where the exchange has been since. The invariant says that with the target, everything
held has a scheme that the present endpoint offered since the exchange came to it, and credentials for
that endpoint; with the proxy, that it has credentials for the proxy.

Main statement: no attempt of an exchange answers with credentials for another endpoint than its own
(`exchange_isolates`).
-/

namespace HttpSession

open Auth (Side Answer Credentials Challenge Negotiation)

-- ---------------------------------------------------------------------------
-- Endpoints, offers and credentials
-- ---------------------------------------------------------------------------

@[simp] theorem Endpoint.normalized_normalized (e : Endpoint) :
    e.normalized.normalized = e.normalized := rfl

def Auth.Scope.Names (scope : Auth.Scope) (e : Endpoint) : Prop :=
  scope.host = some e.hostname.lower ∧ scope.port = some e.effectivePort

def Auth.Provider.Gives (v : Auth.Provider) (e : Endpoint) (credentials : Credentials) : Prop :=
  ∃ scope : Auth.Scope, scope.Names e ∧ v.find? scope = some credentials

def Response.Offers (r : Response) (side : Side) (scheme : Text) : Prop :=
  ∃ value ∈ r.headers.values side.challengeHeader, ∃ text c,
    HeaderValue.text? value = some text ∧ Challenge.read side text = .ok c ∧ c.scheme = scheme

/-- What a strategy with the usual schemes selects serves its side, by a scheme that was offered and with
credentials for the host. -/
theorem Auth.Strategy.select_serves {s : Auth.Strategy} {limits : Auth.Ntlm.Limits} {host : Endpoint}
    {preferred : Option (List Text)} {r : Response} {cs : List Challenge} {candidate : Auth.Candidate}
    (hs : s.schemes = (Auth.Schemes.known limits : Auth.Registry)) (hcs : s.challenges r.headers = .ok cs)
    (hm : candidate ∈ s.select host preferred cs) :
    candidate.Serves s.side fun scheme credentials =>
      r.Offers s.side scheme ∧ s.vault.Gives host credentials := by
  obtain ⟨c, hc, hside, hname, hfind⟩ := select_known hs hcs hm
  obtain ⟨value, hvalue, text, htext, hread⟩ := mem_challenges hcs hc
  refine ⟨hside, ⟨value, hvalue, text, c, htext, hread, hname.symm⟩, ?_⟩
  exact ⟨scopeFor host candidate.scheme, ⟨rfl, rfl⟩, hfind⟩

-- ---------------------------------------------------------------------------
-- What a session holds
-- ---------------------------------------------------------------------------

namespace Session

variable {P Q : Side → Text → Credentials → Prop} {s t : Session}

def Serves (P : Side → Text → Credentials → Prop) (s : Session) : Prop :=
  ∀ side, (Run.negotiation s side).Serves side (P side)

theorem Serves.mono (h : s.Serves P) (hPQ : ∀ side name credentials,
    P side name credentials → Q side name credentials) : s.Serves Q :=
  fun side => (h side).mono (hPQ side)

theorem Serves.withNegotiation (h : s.Serves P) {side : Side} {n : Negotiation}
    (hn : n.Serves side (P side)) : (s.withNegotiation side n).Serves P := by
  intro other
  by_cases ho : other = side
  · subst ho
    rw [negotiation_withNegotiation]
    exact hn
  · rw [negotiation_withNegotiation_ne _ _ _ ho]
    exact h other

theorem Serves.noted (h : s.Serves P) (side : Side) (host : Endpoint) (notices : List Auth.Notice) :
    (s.noted side host notices).Serves P := by
  intro other
  rw [negotiation_noted]
  exact h other

theorem Serves.answered (h : s.Serves P) (side : Side) (request : Request) :
    (s.answered side request).Serves P := by
  have hd : ({ s with draws := (s.outcome side request).draws } : Session).Serves P := h
  exact hd.withNegotiation (Negotiation.answer_serves (h side)).1

theorem Serves.answer (h : s.Serves P) {side : Side} {request : Request} {a : Answer}
    (ha : (s.outcome side request).answer = .ok (some a)) :
    a.side = side ∧ P side a.scheme a.credentials :=
  (Negotiation.answer_serves (h side)).2 a ha

theorem Serves.heard (h : s.Serves P) (side : Side) (host : Endpoint) (status : Nat) :
    (s.heard side host status).Serves P :=
  (h.withNegotiation ((h side).of_holding (Negotiation.holding_hear _ _ _))).noted _ _ _

theorem Serves.heardBoth (h : s.Serves P) (target : Endpoint) (route : Route) (status : Nat) :
    (s.heardBoth target route status).Serves P :=
  (h.heard _ _ _).heard _ _ _

theorem Serves.gaveUp (h : s.Serves P) (side : Side) : (s.gaveUp side).Serves P :=
  h.withNegotiation ((h side).of_holding rfl)

theorem Serves.carried (h : s.Serves P) {request : Request} {c : Jar.Carrying}
    (hc : s.jar.attach s.context s.now request = .ok c) : (s.carried c).Serves P := by
  intro side
  rw [Exchange.negotiation_carried hc]
  exact h side

/-- What a session holds behind a response served before, or was selected from its challenges. -/
theorem Serves.reacted_of_select (h : s.Serves P) {side : Side} {host : Endpoint} {r : Response}
    (hside : (Run.strategy s side).side = side)
    (hs : ∀ cs, (Run.strategy s side).challenges r.headers = .ok cs →
      ∀ c ∈ (Run.strategy s side).select host (Run.preferred s.context.config side) cs,
        c.Serves side (P side)) : (s.reacted side host r).Serves P :=
  (h.withNegotiation (Negotiation.serves_react (h side) hside hs)).noted _ _ _

/-- What the usual schemes select was offered, and has credentials for the host. -/
theorem Serves.reacted (h : s.Serves P) {side : Side} {host : Endpoint} {r : Response}
    {limits : Auth.Ntlm.Limits} (hside : (Run.strategy s side).side = side)
    (hschemes : (Run.strategy s side).schemes = (Auth.Schemes.known limits : Auth.Registry))
    (hP : ∀ scheme credentials, r.Offers side scheme →
      (Run.strategy s side).vault.Gives host credentials → P side scheme credentials) :
    (s.reacted side host r).Serves P := by
  refine h.reacted_of_select hside fun cs hcs c hc => ?_
  have hserves := Auth.Strategy.select_serves hschemes hcs hc
  rw [hside] at hserves
  exact ⟨hserves.1, hP _ _ hserves.2.1 hserves.2.2⟩

theorem strategy_of_fixed (h : t.fixed = s.fixed) (side : Side) :
    { Run.strategy t side with cache := [] } = { Run.strategy s side with cache := [] } := by
  cases side
  · exact congrArg (·.target) h
  · exact congrArg (·.proxy) h

end Session

namespace Exchange

variable {P : Side → Text → Credentials → Prop} {route : Route} {request : Request} {s t : Session}

theorem Forwarded.serves {p : Option Answer} (h : Forwarded route request s p t) (hs : s.Serves P) :
    t.Serves P ∧ ∀ a, p = some a → a.side = .proxy ∧ P .proxy a.scheme a.credentials := by
  cases h with
  | asked _ ha =>
    refine ⟨hs.answered _ _, ?_⟩
    rintro a rfl
    exact hs.answer ha
  | passed => exact ⟨hs, by simp⟩

theorem Prepared.serves {result : Except ExchangeError Attempt} (h : Prepared route request s result t)
    (hs : s.Serves P) :
    t.Serves P ∧ ∀ a, result = .ok a → ∀ side answer, a.answerFor side = some answer →
      P side answer.scheme answer.credentials ∧ (side = .proxy → route.isForwarded = true) := by
  cases h with
  | refused => exact ⟨hs, by simp⟩
  | bare hc =>
    refine ⟨hs.carried hc, ?_⟩
    rintro a ha side answer hanswer
    obtain rfl := Except.ok.inj ha
    simp [Attempt.answerFor] at hanswer
  | proxyFault hc => exact ⟨(hs.carried hc).answered _ _, by simp⟩
  | targetFault hc _ hp => exact ⟨(hp.serves (hs.carried hc)).1.answered _ _, by simp⟩
  | @answered c p target u hc _ hp ht =>
    obtain ⟨hu, hproxy⟩ := hp.serves (hs.carried hc)
    refine ⟨hu.answered _ _, ?_⟩
    rintro a ha side answer hanswer
    obtain rfl := Except.ok.inj ha
    simp only [Attempt.answerFor, Option.or_eq_some_iff, Option.filter_eq_some_iff,
      decide_eq_true_eq] at hanswer
    rcases hanswer with ⟨rfl, hside⟩ | ⟨-, rfl, hside⟩
    · obtain ⟨htarget, hP⟩ := hu.answer ht
      obtain rfl : Side.target = side := htarget.symm.trans hside
      exact ⟨hP, by simp⟩
    · obtain ⟨hp', hP⟩ := hproxy answer rfl
      obtain rfl : Side.proxy = side := hp'.symm.trans hside
      refine ⟨hP, fun _ => ?_⟩
      cases hp with
      | asked hr => exact hr

theorem Judged.serves {target : Endpoint} {r : Response} {asked : Option Side}
    (h : Judged target route r s asked t) (hs : s.Serves P)
    (hside : ∀ side, (Run.strategy s side).side = side)
    (hschemes : ∀ side, ∃ limits, (Run.strategy s side).schemes = (Auth.Schemes.known limits : Auth.Registry))
    (hP : ∀ side scheme credentials, r.status = side.status → r.Offers side scheme →
      (Run.strategy s side).vault.Gives (route.partner target side) credentials →
      P side scheme credentials) : t.Serves P := by
  cases h with
  | disabled => exact hs
  | noTunnelChallenge => exact hs.heardBoth _ _ _
  | @asked side _ hr =>
    have hstrategy := Session.strategy_of_fixed
      (Session.fixed_of_plain (s.plain_heardBoth target route r.status)) side
    obtain ⟨limits, hl⟩ := hschemes side
    have hsides := congrArg (·.side) hstrategy
    have hknown := congrArg (·.schemes) hstrategy
    have hvault := congrArg (·.vault) hstrategy
    refine (hs.heardBoth _ _ _).reacted (hsides.trans (hside side)) (hknown.trans hl) ?_
    intro scheme credentials ho hg
    simp only at hvault
    rw [hvault] at hg
    exact hP side scheme credentials hr ho hg

end Exchange

-- ---------------------------------------------------------------------------
-- What may be used where
-- ---------------------------------------------------------------------------

def Event.StaysAt (e : Endpoint) : Event → Prop
  | .hop _ url => url.endpoint? = some e
  | .sent a => a.request.url.endpoint? = some e
  | _ => True

/-- Whether an endpoint asked for a scheme since the exchange came to it: it refused an attempt for
that scheme among others, and the exchange has stayed with it. -/
inductive OfferedSince (e : Endpoint) (scheme : Text) : List Event → Prop
  | now {reply : Nat} {r : Response} {a : Attempt} {earlier : List Event}
      (he : a.request.url.endpoint? = some e) (hr : r.status = Side.target.status)
      (ho : r.Offers .target scheme) :
      OfferedSince e scheme (.received reply r :: .sent a :: earlier)
  | later {event : Event} {earlier : List Event} (he : event.StaysAt e)
      (ho : OfferedSince e scheme earlier) : OfferedSince e scheme (event :: earlier)

theorem OfferedSince.append {e : Endpoint} {scheme : Text} {events earlier : List Event}
    (he : ∀ event ∈ events, event.isOfBody = true) (ho : OfferedSince e scheme earlier) :
    OfferedSince e scheme (events ++ earlier) := by
  induction events with
  | nil => exact ho
  | cons event rest ih =>
    refine .later ?_ (ih fun other hm => he other (List.mem_cons_of_mem _ hm))
    have hevent := he event List.mem_cons_self
    cases event with
    | bodyRead => trivial
    | bodyDropped => trivial
    | _ => cases hevent

/-- The answers of an attempt have credentials for the endpoint that it goes to, given what was recorded
before it. Where there is no answer, a header holds what the first request said. -/
structure Attempt.Isolates (a : Attempt) (first : Request) (origin : Session) (earlier : List Event) :
    Prop where
  target : ∀ answer, a.answerFor .target = some answer →
    ∃ e, a.request.url.endpoint? = some e ∧ a.route.target = e ∧
      OfferedSince e answer.scheme earlier ∧ origin.target.vault.Gives e answer.credentials
  proxy : ∀ answer, a.answerFor .proxy = some answer →
    ∃ p, a.route.proxy = some p ∧ a.route.tunnelled = false ∧
      origin.proxy.vault.Gives p answer.credentials
  header : ∀ side : Side, a.request.headers.values side.answerHeader =
    match a.answerFor side with
    | some answer => [answer.value]
    | none => first.headers.values side.answerHeader

namespace Exchange

/-- What may be held for a side at an endpoint: with the target what it has offered since, with the
proxy anything that is for the proxy. -/
def MayHold (client : Client) (origin : Session) (e : Endpoint) (h : List Event) :
    Side → Text → Credentials → Prop
  | .target, scheme, credentials => OfferedSince e scheme h ∧ origin.target.vault.Gives e credentials
  | .proxy, _, credentials =>
    ∀ p, client.proxy = some p → origin.proxy.vault.Gives p.normalized credentials

theorem MayHold.later {client : Client} {origin : Session} {e : Endpoint} {h h' : List Event}
    {side : Side} {scheme : Text} {credentials : Credentials}
    (hh : ∀ scheme, OfferedSince e scheme h → OfferedSince e scheme h')
    (hm : MayHold client origin e h side scheme credentials) :
    MayHold client origin e h' side scheme credentials := by
  cases side with
  | target => exact ⟨hh _ hm.1, hm.2⟩
  | proxy => exact hm

structure HopInvariant (client : Client) (first : Request) (origin : Session) (e : Endpoint) (leg : Leg)
    (s : Session) (h : List Event) : Prop where
  headers : leg.request.headers = first.headers
  endpoint : leg.request.url.endpoint? = some e
  target : leg.route.target = e
  proxy : leg.route.proxy = client.proxy.map Endpoint.normalized
  serves : s.Serves (MayHold client origin e h)

def Point.Keeps (client : Client) (first : Request) (origin s : Session) (h : List Event) :
    Point → Prop
  | .hopping leg | .attempting leg _ | .answered leg _ => ∃ e, HopInvariant client first origin e leg s h
  | .waiting leg _ a =>
    (∃ e, HopInvariant client first origin e leg s h) ∧ a.request.url = leg.request.url ∧
      a.Isolates first origin h
  | .judging leg _ r =>
    ∃ e, HopInvariant client first origin e leg s h ∧ ∀ scheme, r.status = Side.target.status →
      r.Offers .target scheme → OfferedSince e scheme h
  | .ended _ => True

structure IsolationInvariant (client : Client) (first : Request) (origin : Session) (m : Moment) : Prop where
  fixed : m.session.fixed = origin.fixed
  sends : Sends (fun earlier a => a.Isolates first origin earlier) m.history
  here : m.point.Keeps client first origin m.session m.history

variable {client : Client} {first : Request} {origin : Session} {e : Endpoint} {leg : Leg}
  {s t : Session} {h h' : List Event}

theorem HopInvariant.later (hk : HopInvariant client first origin e leg s h)
    (ht : ∀ side, Run.negotiation t side = Run.negotiation s side)
    (hh : ∀ scheme, OfferedSince e scheme h → OfferedSince e scheme h') :
    HopInvariant client first origin e leg t h' := by
  refine ⟨hk.headers, hk.endpoint, hk.target, hk.proxy, ?_⟩
  intro side
  rw [ht]
  exact (hk.serves side).mono fun _ _ => MayHold.later hh

theorem HopInvariant.serving (hk : HopInvariant client first origin e leg s h)
    (ht : t.Serves (MayHold client origin e h)) : HopInvariant client first origin e leg t h :=
  ⟨hk.headers, hk.endpoint, hk.target, hk.proxy, ht⟩

theorem HopInvariant.isolates (hk : HopInvariant client first origin e leg s h) {a : Attempt}
    (hp : Prepared leg.route leg.request s (.ok a) t) : a.Isolates first origin h := by
  have hc := hp.carries
  obtain ⟨-, hanswers⟩ := hp.serves hk.serves
  refine ⟨?_, ?_, ?_⟩
  · intro answer ha
    obtain ⟨⟨ho, hg⟩, -⟩ := hanswers a rfl .target answer ha
    exact ⟨e, by rw [hc.url, hk.endpoint], by rw [hc.taken, hk.target], ho, hg⟩
  · intro answer ha
    obtain ⟨hg, hr⟩ := hanswers a rfl .proxy answer ha
    have hseen := hr rfl
    simp only [Route.isForwarded, Bool.and_eq_true, Bool.not_eq_true'] at hseen
    obtain ⟨p, hp'⟩ := Option.isSome_iff_exists.mp hseen.1
    have hproxy := hk.proxy
    rw [hp'] at hproxy
    obtain ⟨q, hq, rfl⟩ := Option.map_eq_some_iff.mp hproxy.symm
    exact ⟨q.normalized, by rw [hc.taken, hp'], by rw [hc.taken]; exact hseen.2, hg q hq⟩
  · intro side
    rw [← hk.headers]
    exact hc.values_answer side

theorem HopInvariant.judged (hfresh : origin.IsFresh) (hf : s.fixed = origin.fixed)
    (hk : HopInvariant client first origin e leg s h) {r : Response} {target : Endpoint} {asked : Option Side}
    (hr : ∀ scheme, r.status = Side.target.status → r.Offers .target scheme → OfferedSince e scheme h)
    (ht : Endpoint.ofUrl? leg.request.url = some target)
    (hj : Judged target.normalized leg.route r s asked t) : HopInvariant client first origin e leg t h := by
  have he : target.normalized = e := by
    have hendpoint := hk.endpoint
    simp only [Url.endpoint?, ht, Option.map_some, Option.some.injEq] at hendpoint
    exact hendpoint
  have hstrategy := Session.strategy_of_fixed hf
  refine hk.serving (hj.serves hk.serves ?_ ?_ ?_)
  · exact fun side => (congrArg (·.side) (hstrategy side)).trans (hfresh.side side)
  · intro side
    obtain ⟨limits, hl⟩ := hfresh.schemes side
    exact ⟨limits, (congrArg (·.schemes) (hstrategy side)).trans hl⟩
  · intro side scheme credentials hstatus ho hg
    have hvault := congrArg (·.vault) (hstrategy side)
    simp only at hvault
    rw [hvault] at hg
    cases side with
    | target =>
      rw [he] at hg
      exact ⟨hr scheme hstatus ho, hg⟩
    | proxy =>
      intro p hp
      have hpartner : leg.route.partner target.normalized .proxy = p.normalized := by
        simp [Route.partner, hk.proxy, hp]
      rw [hpartner] at hg
      exact hg

/-- What is kept stays on the way to the next hop; at another endpoint nothing is held of a target. -/
theorem HopInvariant.onward (hk : HopInvariant client first origin e leg s h) {r : Response}
    {next : Run.Onward}
    {n : Nat} (hl : Led client first leg.request leg.route r s (.ok next) t) :
    ∃ e', HopInvariant client first origin e' ⟨n, next.route, next.request⟩ t h := by
  cases hl with
  | @onward url target next _ ht hr =>
    obtain ⟨htarget, hproxy⟩ := resolve?_ok hr
    have hendpoint : url.endpoint? = some target.normalized := by simp [Url.endpoint?, ht]
    refine ⟨target.normalized, rfl, by simpa using hendpoint, htarget, hproxy, ?_⟩
    by_cases hsame : leg.route.target.sameAs target = true
    · have he : e = target.normalized := by
        obtain ⟨f, -, rfl⟩ := Option.map_eq_some_iff.mp hk.endpoint
        rw [← (Endpoint.sameAs_iff_normalized_eq _ _).mp hsame, hk.target,
          Endpoint.normalized_normalized]
      rw [Session.left, if_pos hsame, ← he]
      exact hk.serves
    · intro side
      cases side with
      | target =>
        rw [Session.negotiation_left_target, if_neg hsame]
        exact Negotiation.serves_of_idle rfl
      | proxy =>
        rw [Session.negotiation_left_proxy, if_neg hsame]
        split
        · exact Negotiation.serves_of_idle rfl
        · exact hk.serves .proxy

theorem IsolationInvariant.sends_step {m n : Moment} (hm : IsolationInvariant client first origin m)
    (h : Step client first m n) : Sends (fun earlier a => a.Isolates first origin earlier) n.history := by
  refine h.sends hm.sends fun leg k a hp => ?_
  have hhere := hm.here
  rw [hp] at hhere
  exact hhere.2.2

theorem IsolationInvariant.keeps_step (hfresh : origin.IsFresh) {m n : Moment}
    (hm : IsolationInvariant client first origin m) (h : Step client first m n) :
    n.point.Keeps client first origin n.session n.history := by
  have hhere := hm.here
  have hfixed := hm.fixed
  cases h with
  | stray => trivial
  | @enter leg s h target ht =>
    obtain ⟨e, hk⟩ := hhere
    exact ⟨e, hk.later (fun side => by cases side <;> rfl) fun _ => .later hk.endpoint⟩
  | unprepared => trivial
  | prepared hp =>
    obtain ⟨e, hk⟩ := hhere
    exact ⟨⟨e, hk.serving (hp.serves hk.serves).1⟩, hp.carries.url, hk.isolates hp⟩
  | unreceived => trivial
  | @received leg k s u h a r hr hu =>
    obtain ⟨⟨e, hk⟩, hurl, -⟩ := hhere
    have he : a.request.url.endpoint? = some e := by rw [hurl, hk.endpoint]
    refine ⟨e, hk.later ?_ ?_, ?_⟩
    · subst hu
      intro side
      cases side <;> rfl
    · intro scheme ho
      exact .later trivial (.later trivial (.later he ho))
    · intro scheme hstatus ho
      exact .later trivial (.now he hstatus ho)
  | settled ht hj =>
    obtain ⟨e, hk, hr⟩ := hhere
    exact ⟨e, hk.judged hfresh hfixed hr ht hj⟩
  | spent ht hj =>
    obtain ⟨e, hk, hr⟩ := hhere
    have hjudged := hk.judged hfresh hfixed hr ht hj
    exact ⟨e, hjudged.serving (hjudged.serves.gaveUp _)⟩
  | unread => trivial
  | again ht hj =>
    obtain ⟨e, hk, hr⟩ := hhere
    exact ⟨e, (hk.judged hfresh hfixed hr ht hj).later (fun side => by cases side <;> rfl)
      fun _ => OfferedSince.append fun _ => Response.isOfBody_of_mem_reading⟩
  | final => trivial
  | limit => trivial
  | unfollowable => trivial
  | stuck => trivial
  | onward _ _ hl =>
    obtain ⟨e, hk⟩ := hhere
    obtain ⟨e', hk'⟩ := hk.onward hl
    exact ⟨e', hk'.later (fun side => by cases side <;> rfl)
      fun _ => OfferedSince.append fun _ => Response.isOfBody_of_mem_reading⟩

theorem IsolationInvariant.step (hfresh : origin.IsFresh) {m n : Moment} (h : Step client first m n)
    (hm : IsolationInvariant client first origin m) : IsolationInvariant client first origin n :=
  ⟨h.fixed.trans hm.fixed, hm.sends_step h, hm.keeps_step hfresh h⟩

theorem IsolationInvariant.start {route : Route} (hfresh : origin.IsFresh)
    (hr : (Endpoint.ofUrl? first.url).bind (Route.resolve? client.proxy) = some route) :
    IsolationInvariant client first origin (start origin route first) := by
  obtain ⟨target, ht, hr⟩ := Option.bind_eq_some_iff.mp hr
  obtain ⟨htarget, hproxy⟩ := resolve?_ok hr
  refine ⟨rfl, sends_nil, target.normalized, rfl, by simp [Url.endpoint?, ht], htarget, hproxy, ?_⟩
  intro side
  rw [hfresh.negotiation_start]
  exact Negotiation.serves_of_idle rfl

/-- In an exchange that begins with nothing held, every attempt that answers its target does so by a
scheme that this endpoint asked for since the exchange came to it, with credentials that were found for
this endpoint; every attempt that answers a proxy goes to it openly, with credentials that were found
for the proxy. -/
theorem exchange_isolates (client : Client) (request : Request) (s : Session) (hs : s.IsFresh) :
    Sends (fun earlier a => a.Isolates request s earlier) (history (Run.exchange client request) s) :=
  exchange_keeps (I := IsolationInvariant client request s)
    (P := fun _ h => Sends (fun earlier a => a.Isolates request s earlier) h)
    (fun _ _ => sends_nil) (fun _ hr => .start hs hr) (fun h hm => hm.step hs h) fun hm => hm.sends

def basicPeer : Client :=
  .replying [.response 401 [(HeaderName.wwwAuthenticate, Utf8.encode "Basic realm=\"r\"")] none,
    .response 200 [] none]

/-- Asked for a user and a password, an exchange answers with those for this host. -/
theorem exchange_isolates_basicPeer :
    (Session.opened {} [({}, ⟨"u", "p", none⟩)]).IsFresh ∧
      Sends (fun earlier a => a.Isolates (.to "http" "a") (.opened {} [({}, ⟨"u", "p", none⟩)]) earlier)
        (history (Run.exchange basicPeer (.to "http" "a")) (.opened {} [({}, ⟨"u", "p", none⟩)])) ∧
      ((Run.exchange basicPeer (.to "http" "a")) (.opened {} [({}, ⟨"u", "p", none⟩)])).2.log.any
        (fun event => match event with
          | .sent a => (a.answerFor .target).isSome
          | _ => false) = true :=
  ⟨Session.isFresh_opened _ _, exchange_isolates _ _ _ (Session.isFresh_opened _ _), by decide +kernel⟩

end Exchange

end HttpSession
