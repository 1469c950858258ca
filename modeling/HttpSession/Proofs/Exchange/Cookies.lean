import HttpSession.Proofs.Cookie.PolicyLaws
import HttpSession.Proofs.Cookie.StoreLaws
import HttpSession.Proofs.Exchange.Attempts

/-!
# Cookies in an exchange

Which cookies an attempt carries and which ones its response may set depends on rules that a hop writes
into the context and that outlast it, on a store that every response changes, and on a clock that moves
while replies are awaited. The invariant says that the rules at hand are always those for the URL of the
attempt that was sent last, and that store and clock are what the history makes of them (`storeClockAt`).

Main statements: every cookie of an attempt is in the store at that time, has not expired and is sent
to the origin of the attempt's own URL (`exchange_sendsDueCookies`); every cookie that is stored was set by the
response just received, and is valid for the origin of the URL that this response answers
(`exchange_ingests`).
-/

namespace HttpSession

-- ---------------------------------------------------------------------------
-- Origins and rules
-- ---------------------------------------------------------------------------

def Url.origin? (url : Url) : Option Cookie.Origin :=
  (Endpoint.ofUrl? url).map fun e => .of e.hostname e.effectivePort url.path e.isSecure

theorem Url.scheme_of_origin? {url : Url} {o : Cookie.Origin} (h : url.origin? = some o)
    (hs : o.secure = true) : url.scheme.lower = "https" := by
  obtain ⟨e, he, rfl⟩ := Option.map_eq_some_iff.mp h
  obtain ⟨host, -, rfl⟩ := Option.map_eq_some_iff.mp he
  exact of_decide_eq_true hs

theorem Cookie.originOf_resolved {url : Url} {target : Endpoint} {proxy : Option Endpoint}
    {route : Route} (ht : Endpoint.ofUrl? url = some target)
    (hr : Route.resolve? proxy target = some route) :
    url.origin? = some (originOf target route url.path) := by
  have hport : (target.port <|> route.target.port).getD 0 = target.effectivePort := by
    rw [(Exchange.resolve?_ok hr).1]
    unfold Endpoint.normalized Endpoint.effectivePort
    cases target.port <;> rfl
  have hsecure : route.secure = target.isSecure := by
    unfold Route.resolve? at hr
    split at hr
    · cases hr
    · cases proxy <;> cases hr <;> rfl
  rw [Url.origin?, ht, originOf, hport, hsecure]
  rfl

namespace Session

def policy? (s : Session) : Option Cookie.Policy :=
  Cookie.Policy.lookup s.jar.policies (s.context.config.cookiePolicy.getD s.jar.usual)

/-- The rules for a request: the policy of the session, at the origin of the URL. A request for a tunnel
has none. -/
def rulesFor (s : Session) (r : Request) : Option Cookie.Rules :=
  if r.method = Method.connect then none
  else s.policy?.bind fun policy => r.url.origin?.map fun origin => ⟨policy, origin⟩

theorem policy?_of_rulesFor {s : Session} {r : Request} {rules : Cookie.Rules}
    (h : s.rulesFor r = some rules) :
    s.policy? = some rules.policy ∧ r.url.origin? = some rules.origin := by
  unfold rulesFor at h
  split at h
  · cases h
  · obtain ⟨policy, hp, h⟩ := Option.bind_eq_some_iff.mp h
    obtain ⟨origin, ho, rfl⟩ := Option.map_eq_some_iff.mp h
    exact ⟨hp, ho⟩

theorem policy?_of_fixed {s t : Session} (h : t.fixed = s.fixed) : t.policy? = s.policy? := by
  show t.fixed.policy? = s.fixed.policy?
  rw [h]

end Session

/-- Where target and route of a request are known, its rules are those for its URL. Only a request for a
tunnel has none. -/
theorem Jar.rulesFor_eq {s origin : Session} {r : Request} {proxy : Option Endpoint} {target : Endpoint}
    {route : Route} {rules : Option Cookie.Rules} (hf : s.fixed = origin.fixed)
    (ht : Endpoint.ofUrl? r.url = some target) (hr : Route.resolve? proxy target = some route)
    (htarget : s.context.targetHost = some target) (hroute : s.context.route = some route)
    (h : s.jar.rulesFor s.context r = .ok rules) :
    rules = origin.rulesFor r ∧ (rules = none → r.method = Method.connect) := by
  unfold Jar.rulesFor at h
  unfold Session.rulesFor
  by_cases hm : r.method = Method.connect
  · rw [if_pos hm] at h ⊢
    exact ⟨(Except.ok.inj h).symm, fun _ => hm⟩
  · have hthere : (s.context.targetHost <|> Endpoint.ofUrl? r.url) = some target := by
      rw [htarget]
      rfl
    rw [if_neg hm] at h ⊢
    rw [← Session.policy?_of_fixed hf, Cookie.originOf_resolved ht hr, Session.policy?]
    simp only [hthere, hroute] at h
    split at h
    · rename_i policy hp
      obtain rfl := Except.ok.inj h
      exact ⟨by rw [hp]; rfl, by simp⟩
    · cases h

-- ---------------------------------------------------------------------------
-- Store and clock
-- ---------------------------------------------------------------------------

structure StoreClock where
  store : Cookie.Store
  now : Instant

/-- Waiting for a reply moves the clock; cookies are stored at the time it shows then. -/
def StoreClock.after (client : Client) (k : StoreClock) : Event → StoreClock
  | .received reply _ => { k with now := client.clock reply k.now }
  | .stored _ cookies => { k with store := k.store.addAll k.now cookies }
  | _ => k

def Session.storeClock (s : Session) : StoreClock := ⟨s.jar.store, s.now⟩

namespace Exchange

def storeClockAt (client : Client) (origin : Session) (h : List Event) : StoreClock :=
  h.foldr (fun event k => k.after client event) origin.storeClock

theorem storeClockAt_append {client : Client} {origin : Session} {events : List Event}
    (he : ∀ event ∈ events, event.isOfBody = true) (h : List Event) :
    storeClockAt client origin (events ++ h) = storeClockAt client origin h := by
  refine eq_append_of_isOfBody (fun event h hb => ?_) he
  cases event <;> first | rfl | cases hb

theorem storeClock_ingested (client : Client) (s : Session) (a : Attempt) (r : Response) :
    (((((s.sent a).waited client).recorded [.received (s.attempts + 1) r]).ingested r).storeClock) =
      ((s.storeClock.after client (.received (s.attempts + 1) r)).after client
        (.stored s.context.rules (s.jar.ingest s.context.rules (client.clock (s.attempts + 1) s.now)
          r.headers).1)) := by
  cases hr : s.context.rules <;>
    simp [Session.storeClock, Session.ingested, Session.waited, Session.sent, Session.recorded, Jar.ingest,
      StoreClock.after, Cookie.Store.addAll, hr]

-- ---------------------------------------------------------------------------
-- What is kept of a session
-- ---------------------------------------------------------------------------

structure RuleContext where
  targetHost : Option Endpoint
  route : Option Route
  rules : Option Cookie.Rules
  storeClock : StoreClock

end Exchange

namespace Session

def ruleContext (s : Session) : Exchange.RuleContext :=
  ⟨s.context.targetHost, s.context.route, s.context.rules, s.storeClock⟩

theorem ruleContext_of_plain {s t : Session} (h : t.plain = s.plain) : t.ruleContext = s.ruleContext := by
  show t.plain.ruleContext = s.plain.ruleContext
  rw [h]

@[simp] theorem ruleContext_located (s : Session) (url : Url) :
    (s.located url).ruleContext = s.ruleContext := rfl

@[simp] theorem ruleContext_left (s : Session) (route : Route) (target : Endpoint) :
    (s.left route target).ruleContext = s.ruleContext := by
  unfold left
  split <;> rfl

end Session

namespace Exchange

theorem Led.ruleContext {client : Client} {first current : Request} {route : Route} {r : Response}
    {s t : Session} {result : Except ExchangeError Run.Onward}
    (h : Led client first current route r s result t) : t.ruleContext = s.ruleContext := by
  cases h <;> simp

/-- A session that made an attempt knows the rules for it, and the attempt carries the cookies that they
choose. -/
theorem Prepared.cookies {route : Route} {request : Request} {s t : Session} {a : Attempt}
    (h : Prepared route request s (.ok a) t) :
    ∃ rules, s.jar.rulesFor s.context request = .ok rules ∧
      a.cookies = rules.elim [] (s.jar.store.chosen · s.now) ∧
      a.request.headers.values HeaderName.cookie = request.headers.values HeaderName.cookie ++
        (rules.bind (·.policy.format a.cookies)).toList ∧
      t.ruleContext = { s.ruleContext with rules := rules.or s.context.rules } := by
  obtain ⟨rules, hr, hcookies, hmade⟩ := h.made
  refine ⟨rules, hr, hcookies, ?_, ?_⟩
  · rw [hmade, Request.values_answering_ne _ _ HeaderName.cookie_ne_answerHeader,
      Request.values_answering_ne _ _ HeaderName.cookie_ne_answerHeader,
      Request.values_cookie_withCookies]
  · have hcarried {c : Jar.Carrying} (hc : s.jar.attach s.context s.now request = .ok c) :
        (s.carried c).ruleContext = { s.ruleContext with rules := rules.or s.context.rules } := by
      obtain ⟨rules', hr', -, -, hcontext⟩ := Jar.attach_made hc
      obtain rfl := Except.ok.inj (hr.symm.trans hr')
      simp only [Session.ruleContext, Session.carried, hcontext]
      rfl
    cases h with
    | bare hc => exact hcarried hc
    | answered hc _ hp =>
      rw [Session.ruleContext_of_plain (Session.plain_answered _ _ _), Session.ruleContext_of_plain hp.plain,
        hcarried hc]

theorem Prepared.store {route : Route} {request : Request} {s t : Session}
    {result : Except ExchangeError Attempt} (h : Prepared route request s result t) :
    t.jar.store = s.jar.store := by
  rcases h.plain with hp | ⟨c, -, hp⟩
  · exact congrArg (·.jar.store) hp
  · exact (congrArg (·.jar.store) hp).trans rfl

-- ---------------------------------------------------------------------------
-- What attempts carry and what responses set
-- ---------------------------------------------------------------------------

def cookiesFor (client : Client) (origin : Session) (request : Request) (h : List Event) : List Cookie :=
  (origin.rulesFor request).elim []
    ((storeClockAt client origin h).store.chosen · (storeClockAt client origin h).now)

/-- Whether a cookie is in the store and has not expired when so much of an exchange is recorded, and is
sent to the origin of a URL. -/
def IsMeantFor (client : Client) (origin : Session) (h : List Event) (url : Url) (c : Cookie) : Prop :=
  ∃ policy o, origin.policy? = some policy ∧ url.origin? = some o ∧
    c ∈ (storeClockAt client origin h).store.toList ∧
    c.expiredAt (storeClockAt client origin h).now = false ∧ policy.isSentTo c o = true

end Exchange

open Exchange (cookiesFor IsMeantFor)

/-- Whether an attempt carries, behind the cookies of the first request, those cookies of the store that
are meant for the origin of its own URL. -/
structure Attempt.SendsDueCookies (a : Attempt) (client : Client) (first : Request) (origin : Session)
    (earlier : List Event) : Prop where
  header : a.request.headers.values HeaderName.cookie = first.headers.values HeaderName.cookie ++
    ((origin.rulesFor a.request).bind (·.policy.format a.cookies)).toList
  cookies : a.cookies = cookiesFor client origin a.request earlier
  meant : ∀ c ∈ a.cookies, IsMeantFor client origin earlier a.request.url c
  secure : ∀ c ∈ a.cookies, c.secure = true → a.request.url.scheme.lower = "https"

namespace Exchange

/-- Whether a cookie was set by the response that was just received, by the rules for the request that
it answers. -/
def SetByReply (client : Client) (origin : Session) (h : List Event) (c : Cookie) : Prop :=
  ∃ reply r a earlier policy o, h = .received reply r :: .sent a :: earlier ∧
    origin.policy? = some policy ∧ a.request.url.origin? = some o ∧
    c.SetBy ⟨policy, o⟩ (storeClockAt client origin h).now r.headers

def SetIn (client : Client) (origin : Session) (h : List Event) (c : Cookie) : Prop :=
  ∃ later earlier, h = later ++ earlier ∧ SetByReply client origin earlier c

/-- Whether cookies are all those that the response just received may set. -/
structure ReplySets (client : Client) (origin : Session) (h : List Event) (cookies : List Cookie) :
    Prop where
  all : ∃ reply r a earlier, h = .received reply r :: .sent a :: earlier ∧
    cookies = (origin.rulesFor a.request).elim []
      (Cookie.accepted · (storeClockAt client origin h).now r.headers)
  each : ∀ c ∈ cookies, SetByReply client origin h c

def Stores (client : Client) (origin : Session) : List Event → Prop
  | [] => True
  | .stored _ cookies :: earlier => ReplySets client origin earlier cookies ∧ Stores client origin earlier
  | _ :: earlier => Stores client origin earlier

theorem Stores.append {client : Client} {origin : Session} {events h : List Event}
    (hs : Stores client origin h) (he : ∀ event ∈ events, event.isOfBody = true) :
    Stores client origin (events ++ h) := by
  refine (eq_append_of_isOfBody (fun event h hb => ?_) he).mpr hs
  cases event <;> first | rfl | cases hb

section
variable {client : Client} {first : Request} {origin : Session} {leg : Leg} {s t : Session}
  {h h' : List Event} {c : Cookie}

theorem SetIn.cons (hs : SetIn client origin h c) (event : Event) :
    SetIn client origin (event :: h) c := by
  obtain ⟨later, earlier, rfl, hset⟩ := hs
  exact ⟨event :: later, earlier, rfl, hset⟩

theorem SetByReply.cons (hs : SetByReply client origin h c) (event : Event) :
    SetIn client origin (event :: h) c :=
  ⟨[event], h, rfl, hs⟩

/-- What the store holds now and did not hold at the start was set since. -/
theorem mem_storeClockAt (hs : Stores client origin h)
    (hc : c ∈ (storeClockAt client origin h).store.toList) :
    c ∈ origin.jar.store.toList ∨ SetIn client origin h c := by
  induction h with
  | nil => exact .inl hc
  | cons event earlier ih =>
    cases event with
    | stored rules cookies =>
      rcases Cookie.Store.mem_of_mem_addAll hc with hc | hc
      · exact .inr ((hs.1.each c hc).cons _)
      · exact (ih hs.2 hc).imp_right (·.cons _)
    | _ => exact (ih hs hc).imp_right (·.cons _)

/-- What the store held at the start and does not hold now gave way to a cookie of the same identity
that was set since. -/
theorem mem_storeClockAt_of_mem (hs : Stores client origin h)
    (hc : c ∈ origin.jar.store.toList) :
    c ∈ (storeClockAt client origin h).store.toList ∨ ∃ d, SetIn client origin h d ∧ d.key = c.key := by
  induction h with
  | nil => exact .inl hc
  | cons event earlier ih =>
    cases event with
    | stored rules cookies =>
      rcases ih hs.2 with hc | ⟨d, hd, hkey⟩
      · refine (Cookie.Store.mem_addAll_of_mem hc).imp_right ?_
        rintro ⟨d, hd, hkey⟩
        exact ⟨d, (hs.1.each d hd).cons _, hkey⟩
      · exact .inr ⟨d, hd.cons _, hkey⟩
    | _ => exact (ih hs).imp_right fun ⟨d, hd, hkey⟩ => ⟨d, hd.cons _, hkey⟩

theorem storeClockAt_ignoring (hp : origin.policy? = some .ignoring)
    (hs : Stores client origin h) :
    (storeClockAt client origin h).store = origin.jar.store := by
  induction h with
  | nil => rfl
  | cons event earlier ih =>
    cases event with
    | stored rules cookies =>
      have hnone : cookies = [] := by
        rw [List.eq_nil_iff_forall_not_mem]
        intro c hc
        obtain ⟨_, _, _, _, policy, _, _, hpolicy, _, hset⟩ := hs.1.each c hc
        rw [hp] at hpolicy
        obtain rfl := Option.some.inj hpolicy
        exact hset.ne_ignoring rfl
      subst hnone
      exact ih hs.2
    | _ => exact ih hs

-- ---------------------------------------------------------------------------
-- The invariant
-- ---------------------------------------------------------------------------

/-- What is kept on a hop: whose headers it carries and which way it goes, and what store and clock are.
A tunnel is asked for before any other hop, so no rules of an earlier one are at hand. -/
structure CookieHopInvariant (client : Client) (first : Request) (origin : Session) (leg : Leg) (s : Session)
    (h : List Event) : Prop where
  headers : leg.request.headers = first.headers
  way : (Endpoint.ofUrl? leg.request.url).bind (Route.resolve? client.proxy) = some leg.route
  storeClock : s.storeClock = storeClockAt client origin h
  rules : leg.request.method = Method.connect → s.context.rules = origin.context.rules

def Entered (leg : Leg) (s : Session) : Prop :=
  s.context.targetHost = Endpoint.ofUrl? leg.request.url ∧ s.context.route = some leg.route

def Point.Judges (client : Client) (first : Request) (origin s : Session) (h : List Event) :
    Point → Prop
  | .hopping leg | .answered leg _ => CookieHopInvariant client first origin leg s h
  | .attempting leg _ => CookieHopInvariant client first origin leg s h ∧ Entered leg s
  | .waiting leg _ a => CookieHopInvariant client first origin leg s h ∧ Entered leg s ∧
      s.context.rules = (origin.rulesFor leg.request).or origin.context.rules ∧
      origin.rulesFor a.request = origin.rulesFor leg.request ∧ a.SendsDueCookies client first origin h
  | .judging leg _ _ => CookieHopInvariant client first origin leg s h ∧ Entered leg s
  | .ended _ => s.jar.store = (storeClockAt client origin h).store

structure CookieInvariant (client : Client) (first : Request) (origin : Session) (m : Moment) : Prop where
  fixed : m.session.fixed = origin.fixed
  sends : Sends (fun earlier a => a.SendsDueCookies client first origin earlier) m.history
  stores : origin.context.rules = none → Stores client origin m.history
  here : m.point.Judges client first origin m.session m.history

theorem CookieHopInvariant.of_ruleContext (ha : CookieHopInvariant client first origin leg s h)
    (ht : t.ruleContext = s.ruleContext)
    (hh : storeClockAt client origin h' = storeClockAt client origin h) :
    CookieHopInvariant client first origin leg t h' := by
  refine ⟨ha.headers, ha.way, ?_, ?_⟩
  · rw [hh, ← ha.storeClock]
    exact congrArg (·.storeClock) ht
  · intro hm
    exact (congrArg (·.rules) ht).trans (ha.rules hm)

theorem Entered.of_ruleContext (he : Entered leg s) (ht : t.ruleContext = s.ruleContext) : Entered leg t :=
  ⟨(congrArg (·.targetHost) ht).trans he.1, (congrArg (·.route) ht).trans he.2⟩

theorem CookieHopInvariant.store (ha : CookieHopInvariant client first origin leg s h)
    (ht : t.ruleContext = s.ruleContext) :
    t.jar.store = (storeClockAt client origin h).store := by
  have hstore : t.jar.store = s.jar.store := congrArg (·.storeClock.store) ht
  rw [hstore, ← ha.storeClock]
  rfl

theorem isMeantFor_of_mem_cookiesFor {request : Request}
    (hc : c ∈ cookiesFor client origin request h) : IsMeantFor client origin h request.url c := by
  unfold cookiesFor at hc
  cases hr : origin.rulesFor request with
  | none =>
    rw [hr] at hc
    cases hc
  | some rules =>
    rw [hr] at hc
    obtain ⟨hpolicy, horigin⟩ := Session.policy?_of_rulesFor hr
    obtain ⟨hstore, hchosen⟩ := List.mem_filter.mp hc
    simp only [Bool.and_eq_true, Bool.not_eq_true'] at hchosen
    exact ⟨rules.policy, rules.origin, hpolicy, horigin, hstore, hchosen.1, hchosen.2⟩

theorem CookieHopInvariant.prepared {a : Attempt} (ha : CookieHopInvariant client first origin leg s h)
    (hf : s.fixed = origin.fixed) (he : Entered leg s)
    (hp : Prepared leg.route leg.request s (.ok a) t) :
    CookieHopInvariant client first origin leg t h ∧ Entered leg t ∧
      t.context.rules = (origin.rulesFor leg.request).or origin.context.rules ∧
      origin.rulesFor a.request = origin.rulesFor leg.request ∧ a.SendsDueCookies client first origin h := by
  obtain ⟨rules, hr, hcookies, hheader, hgrounds⟩ := hp.cookies
  obtain ⟨target, htarget, hroute⟩ := Option.bind_eq_some_iff.mp ha.way
  obtain ⟨rfl, hnone⟩ := Jar.rulesFor_eq hf htarget hroute (he.1.trans htarget) he.2 hr
  have hstock : t.storeClock = s.storeClock := congrArg (·.storeClock) hgrounds
  have hrules : t.context.rules = (origin.rulesFor leg.request).or s.context.rules :=
    congrArg (·.rules) hgrounds
  have hnow : t.context.rules = (origin.rulesFor leg.request).or origin.context.rules := by
    rw [hrules]
    cases hl : origin.rulesFor leg.request with
    | some rules => rfl
    -- a tunnel leaves the rules that were at hand before, and no hop before it brought any
    | none => exact ha.rules (hnone hl)
  have hsame : origin.rulesFor a.request = origin.rulesFor leg.request := by
    unfold Session.rulesFor
    rw [hp.carries.url, hp.carries.method]
  have hchosen : a.cookies = cookiesFor client origin a.request h := by
    rw [hcookies, cookiesFor, hsame, ← ha.storeClock]
    rfl
  have hmeant : ∀ c ∈ a.cookies, IsMeantFor client origin h a.request.url c := by
    rw [hchosen]
    exact fun c hc => isMeantFor_of_mem_cookiesFor hc
  refine ⟨⟨ha.headers, ha.way, hstock.trans ha.storeClock, fun hm => ?_⟩, ?_, hnow, hsame, ?_⟩
  · rw [hnow, Session.rulesFor, if_pos hm, Option.none_or]
  · exact ⟨(congrArg (·.targetHost) hgrounds).trans he.1, (congrArg (·.route) hgrounds).trans he.2⟩
  · refine ⟨by rw [hheader, ha.headers, hsame], hchosen, hmeant, ?_⟩
    intro c hc hs
    obtain ⟨policy, o, -, ho, -, -, hsent⟩ := hmeant c hc
    exact Url.scheme_of_origin? ho (Cookie.Policy.secure_of_isSentTo hsent hs)

/-- A request that follows a redirect never asks for a tunnel. -/
theorem method_requestTo_ne_connect {client : Client} {config : Config} {current : Request}
    {r : Response} (hf : client.follows config current r = true) (url : Url) :
    (Redirect.requestTo url current r.status).method ≠ Method.connect := by
  simp only [Client.follows, Bool.and_eq_true] at hf
  unfold Redirect.requestTo
  split
  · show Method.head ≠ Method.connect
    decide
  · split
    · rename_i hstatus
      have hr : Redirect.isRedirectable client.lax current.method = true := by
        have h := hf.2
        unfold Redirect.isRedirected at h
        rw [if_neg (by omega), if_pos (by omega)] at h
        exact h
      intro hm
      have hm' : current.method = Method.connect := hm
      rw [hm'] at hr
      revert hr
      cases client.lax <;> decide
    · show Method.get ≠ Method.connect
      decide

theorem CookieHopInvariant.onward {r : Response} {next : Run.Onward} {n : Nat} {config : Config}
    (ha : CookieHopInvariant client first origin leg s h) (hf : client.follows config leg.request r = true)
    (hl : Led client first leg.request leg.route r s (.ok next) t) :
    CookieHopInvariant client first origin ⟨n, next.route, next.request⟩ t h := by
  have hstock : t.storeClock = s.storeClock := congrArg (·.storeClock) hl.ruleContext
  cases hl with
  | @onward url target next hlocated ht hr =>
    refine ⟨rfl, ?_, hstock.trans ha.storeClock, fun hm => ?_⟩
    · simp only [url_requestTo, ht, Option.bind_some]
      exact hr
    · exact absurd hm (method_requestTo_ne_connect hf url)

/-- What a response sets by the rules for the request that it answers is what it may set. -/
theorem replySets_accepted {reply : Nat} {r : Response} {a : Attempt} {earlier : List Event}
    (hh : h = .received reply r :: .sent a :: earlier) :
    ReplySets client origin h ((origin.rulesFor a.request).elim []
      (Cookie.accepted · (storeClockAt client origin h).now r.headers)) := by
  refine ⟨⟨reply, r, a, earlier, hh, rfl⟩, fun c hc => ?_⟩
  cases hr : origin.rulesFor a.request with
  | none =>
    rw [hr] at hc
    cases hc
  | some rules =>
    rw [hr] at hc
    obtain ⟨hpolicy, horigin⟩ := Session.policy?_of_rulesFor hr
    exact ⟨reply, r, a, earlier, rules.policy, rules.origin, hh, hpolicy, horigin,
      Cookie.setBy_of_mem_accepted hc⟩

theorem CookieInvariant.sends_step {m n : Moment} (hm : CookieInvariant client first origin m)
    (h : Step client first m n) :
    Sends (fun earlier a => a.SendsDueCookies client first origin earlier) n.history := by
  refine h.sends hm.sends fun leg k a hp => ?_
  have hhere := hm.here
  rw [hp] at hhere
  exact hhere.2.2.2.2

/-- Cookies are stored only where a response was received, and then by the rules at hand. -/
theorem CookieInvariant.stores_step {m n : Moment} (hm : CookieInvariant client first origin m)
    (h : Step client first m n) (hnone : origin.context.rules = none) :
    Stores client origin n.history := by
  have hs := hm.stores hnone
  have hhere := hm.here
  cases h with
  | stray => exact hs
  | enter => exact hs
  | unprepared => exact hs
  | prepared => exact hs
  | unreceived => exact hs
  | @received leg k s u h a r hr hu =>
    obtain ⟨ha, -, hrules, hsame, -⟩ := hhere
    refine ⟨?_, hs⟩
    have hknown : u.context.rules = origin.rulesFor a.request := by
      rw [hnone, Option.or_none] at hrules
      rw [hsame, ← hrules, hu]
      rfl
    have hnow : u.now = (storeClockAt client origin (.received (s.attempts + 1) r :: .sent a :: h)).now := by
      show u.now = client.clock (s.attempts + 1) (storeClockAt client origin h).now
      rw [← ha.storeClock, hu]
      rfl
    have hingest : (u.jar.ingest u.context.rules u.now r.headers).1 =
        u.context.rules.elim [] (Cookie.accepted · u.now r.headers) := by
      cases u.context.rules <;> rfl
    rw [hingest, hknown, hnow]
    exact replySets_accepted rfl
  | settled => exact hs
  | spent => exact hs
  | unread => exact hs.append fun _ => Response.isOfBody_of_mem_reading
  | again => exact hs.append fun _ => Response.isOfBody_of_mem_reading
  | final => exact hs
  | limit => exact hs.append fun _ => Response.isOfBody_of_mem_releasing
  | unfollowable => exact hs.append fun _ => Response.isOfBody_of_mem_releasing
  | stuck => exact hs.append fun _ => Response.isOfBody_of_mem_reading
  | onward => exact hs.append fun _ => Response.isOfBody_of_mem_reading

theorem CookieInvariant.judges_step {m n : Moment} (hm : CookieInvariant client first origin m)
    (h : Step client first m n) : n.point.Judges client first origin n.session n.history := by
  have hfixed := hm.fixed
  have hhere := hm.here
  cases h with
  | stray => exact congrArg (·.store) hhere.storeClock
  | @enter leg s h target ht =>
    exact ⟨⟨hhere.headers, hhere.way, hhere.storeClock, hhere.rules⟩, ht.symm, rfl⟩
  | unprepared hp =>
    obtain ⟨ha, -⟩ := hhere
    show _ = (storeClockAt client origin _).store
    rw [← ha.storeClock]
    exact hp.store
  | prepared hp =>
    obtain ⟨ha, he⟩ := hhere
    exact ha.prepared hfixed he hp
  | unreceived => exact congrArg (·.store) hhere.1.storeClock
  | @received leg k s u h a r hr hu =>
    obtain ⟨ha, he, -⟩ := hhere
    subst hu
    refine ⟨⟨ha.headers, ha.way, ?_, ha.rules⟩, he⟩
    rw [storeClock_ingested, ha.storeClock]
    rfl
  | settled _ hj =>
    obtain ⟨ha, -⟩ := hhere
    exact ha.of_ruleContext (Session.ruleContext_of_plain hj.plain) rfl
  | spent _ hj =>
    obtain ⟨ha, -⟩ := hhere
    exact ha.of_ruleContext
      (Session.ruleContext_of_plain ((Session.plain_gaveUp _ _).trans hj.plain)) rfl
  | unread _ hj =>
    obtain ⟨ha, -⟩ := hhere
    exact (ha.store (Session.ruleContext_of_plain hj.plain)).trans (congrArg (·.store)
      (storeClockAt_append (fun _ => Response.isOfBody_of_mem_reading) _).symm)
  | again _ hj =>
    obtain ⟨ha, he⟩ := hhere
    have hg := Session.ruleContext_of_plain hj.plain
    exact ⟨ha.of_ruleContext hg (storeClockAt_append (fun _ => Response.isOfBody_of_mem_reading) _),
      he.of_ruleContext hg⟩
  | final => exact hhere.store rfl
  | limit =>
    exact (hhere.store rfl).trans (congrArg (·.store)
      (storeClockAt_append (fun _ => Response.isOfBody_of_mem_releasing) _).symm)
  | unfollowable _ _ hl =>
    exact (hhere.store hl.ruleContext).trans (congrArg (·.store)
      (storeClockAt_append (fun _ => Response.isOfBody_of_mem_releasing) _).symm)
  | stuck _ _ hl =>
    exact (hhere.store hl.ruleContext).trans (congrArg (·.store)
      (storeClockAt_append (fun _ => Response.isOfBody_of_mem_reading) _).symm)
  | onward hf _ hl =>
    exact (hhere.onward hf hl).of_ruleContext rfl
      (storeClockAt_append (fun _ => Response.isOfBody_of_mem_reading) _)

theorem CookieInvariant.step {m n : Moment} (h : Step client first m n)
    (hm : CookieInvariant client first origin m) :
    CookieInvariant client first origin n :=
  ⟨h.fixed.trans hm.fixed, hm.sends_step h, hm.stores_step h, hm.judges_step h⟩

theorem CookieInvariant.start {route : Route}
    (hr : (Endpoint.ofUrl? first.url).bind (Route.resolve? client.proxy) = some route) :
    CookieInvariant client first s (start s route first) :=
  ⟨rfl, sends_nil, fun _ => trivial, rfl, hr, rfl, fun _ => rfl⟩

end

-- ---------------------------------------------------------------------------
-- Whole exchanges
-- ---------------------------------------------------------------------------

/-- Every cookie that an attempt carries is in the store at that time, has not expired and is meant for
the origin of the attempt's own URL. -/
theorem exchange_sendsDueCookies (client : Client) (request : Request) (s : Session) :
    Sends (fun earlier a => a.SendsDueCookies client request s earlier)
      (history (Run.exchange client request) s) :=
  exchange_keeps (I := CookieInvariant client request s)
    (P := fun _ h => Sends (fun earlier a => a.SendsDueCookies client request s earlier) h)
    (fun _ _ => sends_nil) (fun _ hr => .start hr) (fun h hm => hm.step h) fun hm => hm.sends

/-- What an exchange that records so much makes of the store that it began with. -/
structure Ingests (client : Client) (origin : Session) (h : List Event) (store : Cookie.Store) :
    Prop where
  replayed : store = (storeClockAt client origin h).store
  stores : Stores client origin h
  added : ∀ c ∈ store.toList, c ∈ origin.jar.store.toList ∨ SetIn client origin h c
  removed : ∀ c ∈ origin.jar.store.toList,
    c ∈ store.toList ∨ ∃ d, SetIn client origin h d ∧ d.key = c.key
  ignored : origin.policy? = some .ignoring → store = origin.jar.store

theorem Stores.ingests {client : Client} {origin : Session} {h : List Event}
    (hs : Stores client origin h) :
    Ingests client origin h (storeClockAt client origin h).store :=
  ⟨rfl, hs, fun _ hc => mem_storeClockAt hs hc, fun _ hc => mem_storeClockAt_of_mem hs hc,
    fun hp => storeClockAt_ignoring hp hs⟩

/-- What an exchange stores is what the response just received sets and what is valid for the origin of
the attempt which that response answers, all of it and nothing else. So whatever it adds to the store was
set in this way, and whatever it removes gives way to such a cookie. -/
theorem exchange_ingests (client : Client) (request : Request) (s : Session)
    (hs : s.context.rules = none) :
    Ingests client s (history (Run.exchange client request) s)
      (Run.exchange client request s).2.jar.store :=
  exchange_keeps (I := CookieInvariant client request s)
    (P := fun ending h => Ingests client s h ending.2.jar.store)
    (fun _ _ => Stores.ingests (h := []) trivial) (fun _ hr => .start hr) (fun h hm => hm.step h)
    fun {_ t h} hm => by
      have hstore : t.jar.store = (storeClockAt client s h).store := hm.here
      rw [hstore]
      exact (hm.stores hs).ingests

def cookiePeer : Client :=
  .replying [.response 200 [(HeaderName.setCookie, Utf8.encode "a=b")] none]

theorem exchange_ingests_cookiePeer :
    ((Run.exchange cookiePeer (.to "http" "a.example")) (.opened {} [])).2.jar.store.toList.map
        (fun c => (c.name, c.domain)) = [(("a" : Text), ("a.example" : Text))] ∧
      Ingests cookiePeer (.opened {} [])
        (history (Run.exchange cookiePeer (.to "http" "a.example")) (.opened {} []))
        (Run.exchange cookiePeer (.to "http" "a.example") (.opened {} [])).2.jar.store :=
  ⟨by decide +kernel, exchange_ingests cookiePeer _ _ rfl⟩

end Exchange

end HttpSession
