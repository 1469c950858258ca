import HttpSession.Proofs.Exchange.Isolation
import HttpSession.Proofs.Exchange.SwitchedOff

/-!
# Opening a tunnel

A proxy that is asked for a tunnel may grant it, refuse it, or challenge the request. One request goes
through all rounds: the answer of a round is put into it before it is sent, and taken out before the next
round. So at the head of the loop it is the request that was built (`OpeningFrom.head`), and what is sent
carries the answer of its own round, made by the negotiation as it is then, and nothing else. This needs
the answer to speak for the proxy: an answer to the target would stay in the request.

The loop looks at statuses in three places: an informational status ends it at once, a challenge may have
it go on, and of the other replies a success alone opens the tunnel.

Main statement: what a tunnel is granted or refused for, and what is sent to open it (`tunnel_opens`).
-/

namespace HttpSession

open Auth (Side Answer)

/-- Whether an attempt asks for a tunnel, with an answer to the proxy if there is one, and with no other
header. -/
structure Attempt.IsBare (a : Attempt) : Prop where
  method : a.request.method = Method.connect
  proxy : a.request.headers.values HeaderName.proxyAuthorization = a.proxyAnswer.toList.map (·.value)
  others : ∀ name, name ≠ HeaderName.proxyAuthorization → a.request.headers.values name = []

/-- Whether all that the negotiations of a session hold speaks for their own side. -/
abbrev Session.SideConsistent (s : Session) : Prop := s.Serves fun _ _ _ => True

/-- Whether the replies of a peer have a status of three digits, as every response of the protocol has. -/
def Client.Numbered (client : Client) : Prop :=
  ∀ number status headers content, client.peer number = .message status headers content → 100 ≤ status

theorem Client.Numbered.receive {client : Client} (hc : client.Numbered) {number : Nat} {url : Url}
    {r : Response} (hr : Run.receive number url (client.peer number) = .ok r) : 100 ≤ r.status := by
  obtain ⟨_, _, _, hp, rfl⟩ := Run.receive_ok hr
  exact hc _ _ _ _ hp

namespace Exchange

/-- Whether nothing was recorded yet, or the last attempt was challenged by the proxy and the challenge
read. -/
def BehindChallenge (h : List Event) : Prop :=
  h = [] ∨ ∃ n r a earlier, h = r.reading ++ .received n r :: .sent a :: earlier ∧ r.status = 407

abbrev NoneInformational (h : List Event) : Prop := Receives (fun r => 200 ≤ r.status) h

/-- Whether an attempt asks for a tunnel with an answer that was made in its own round, and not before the
proxy challenged the one before it. -/
structure AsksAnew (client : Client) (route : Route) (proxy : Endpoint) (request : Request)
    (origin : Session) (earlier : List Event) (a : Attempt) : Prop where
  bare : a.IsBare
  behind : BehindChallenge earlier
  /-- The rounds before led to the session in which this one begins, with the request as it was built; the
  negotiation with the proxy gives the answer there, and it is put into that request. -/
  fresh : ∃ k s, Relation.ReflTransGen (Ask client route proxy) (.asking 0 request, origin)
      (.asking k request, s) ∧
    s.log = origin.log ++ earlier.reverse ∧ (s.outcome .proxy request).answer = .ok a.proxyAnswer ∧
      a.request = request.answering a.proxyAnswer

-- ---------------------------------------------------------------------------
-- One round
-- ---------------------------------------------------------------------------

def Opening.Knows (h : List Event) : Opening → Prop
  | .asking _ _ => BehindChallenge h ∧ NoneInformational h
  | .ended (.ok r) => lastReceived? h = some r ∧ NoneInformational h
  | .ended (.error error) => (∀ status, error ≠ .tunnelRefused status) ∧
      ∀ n r, .received n r ∈ h → r.status < 200 → error = .protocol (.connectReply r.status)

section
variable {client : Client} {route : Route} {proxy : Endpoint} {request : Request} {s t : Session}
  {r : Response} {error : ExchangeError} {base h : List Event} {P : List Event → Attempt → Prop}

theorem Opening.knows_error (hh : NoneInformational h) (he : ∀ status, error ≠ .tunnelRefused status) :
    (Opening.ended (.error error)).Knows h := by
  refine ⟨he, fun n r hm hlt => ?_⟩
  have hle := hh n r hm
  omega

theorem Opening.Knows.append {events : List Event} {result : Except ExchangeError Response}
    (hk : (Opening.ended result).Knows h) (he : ∀ event ∈ events, event.isOfBody = true) :
    (Opening.ended result).Knows (events ++ h) := by
  cases result with
  | ok r => exact ⟨(lastReceived?_append he).trans hk.1, hk.2.append he⟩
  | error error => exact ⟨hk.1, fun n r hm => hk.2 n r (mem_of_received_mem_append he hm)⟩

theorem receive_error {number : Nat} {url : Url} {reply : Reply}
    (hr : Run.receive number url reply = .error error) : ∀ status, error ≠ .tunnelRefused status := by
  cases reply with
  | message => cases hr
  | ioError => cases hr; exact nofun
  | transportError => cases hr; exact nofun
  | violation => cases hr; exact nofun
  | timeout => cases hr; exact nofun

/-- What asking once adds to a history that knows of no informational reply, if it fails. -/
theorem Once.failed (ho : Once client route request s (.error error) t)
    (hlog : s.log = base ++ h.reverse) (hs : Sends P h) (hh : NoneInformational h)
    (hP : ∀ answer, (s.outcome .proxy request).answer = .ok answer →
      P h (connectAttempt route request answer)) :
    ∃ h', t.log = base ++ h'.reverse ∧ Sends P h' ∧ (Opening.ended (.error error)).Knows h' := by
  have hanswered : (s.answered .proxy request).log = base ++ h.reverse :=
    (Session.log_of_plain (s.plain_answered _ _)).trans hlog
  have hsent {answer : Option Answer} (ha : (s.outcome .proxy request).answer = .ok answer) :
      Sends P (.sent (connectAttempt route request answer) :: h) := by
    refine hs.cons ?_
    rintro _ ⟨rfl⟩
    exact hP answer ha
  cases ho with
  | unanswered => exact ⟨h, hanswered, hs, Opening.knows_error hh nofun⟩
  | @unreceived answer _ ha hr =>
    exact ⟨.sent (connectAttempt route request answer) :: h, by simp [hanswered], hsent ha,
      Opening.knows_error (hh.cons nofun) (receive_error hr)⟩
  | @informational answer r u ha hr hu hi =>
    refine ⟨r.dropping ++ .received (s.attempts + 1) r :: .sent (connectAttempt route request answer) :: h,
      ?_, ((hsent ha).cons (by simp)).append fun _ => Response.isOfBody_of_mem_dropping, nofun, ?_⟩
    · simp [hu, hanswered]
    · intro n r' hm hlt
      have hm' := mem_of_received_mem_append (fun _ => Response.isOfBody_of_mem_dropping) hm
      simp only [List.mem_cons, Event.received.injEq, reduceCtorEq, false_or] at hm'
      rcases hm' with ⟨-, rfl⟩ | hm'
      · rfl
      · have hle := hh n r' hm'
        omega

/-- What asking once adds to such a history if a reply is received that is no informational one. -/
theorem Once.replied {sent : Request} (ho : Once client route request s (.ok (sent, r)) t)
    (hc : client.Numbered) (hlog : s.log = base ++ h.reverse) (hs : Sends P h)
    (hh : NoneInformational h)
    (hP : ∀ answer, (s.outcome .proxy request).answer = .ok answer →
      P h (connectAttempt route request answer)) :
    ∃ n a, t.log = base ++ (.received n r :: .sent a :: h).reverse ∧
      Sends P (.received n r :: .sent a :: h) ∧ NoneInformational (.received n r :: .sent a :: h) := by
  cases ho with
  | @received answer _ _ ha hr hu hi =>
    have hle := hc.receive hr
    have hsent : NoneInformational (.sent (connectAttempt route request answer) :: h) := hh.cons nofun
    refine ⟨s.attempts + 1, connectAttempt route request answer, ?_, Sends.cons (hs.cons ?_) (by simp),
      hsent.cons ?_⟩
    · simp [hu, Session.log_of_plain (s.plain_answered _ _), hlog]
    · rintro _ ⟨rfl⟩
      exact hP answer ha
    · rintro _ _ ⟨rfl, rfl⟩
      omega

theorem Once.sideConsistent {result : Except ExchangeError (Request × Response)}
    (ho : Once client route request s result t) (hs : s.SideConsistent) : t.SideConsistent := by
  have hanswered := hs.answered .proxy request
  cases ho with
  | unanswered => exact hanswered
  | unreceived => exact fun side => by simpa using hanswered side
  | informational _ _ hu => exact fun side => by simpa [hu] using hanswered side
  | received _ _ hu => exact fun side => by simpa [hu] using hanswered side

/-- Taking the answer out of what was sent gives back the request that a round began with. -/
theorem Once.withoutAnswer {sent : Request} (ho : Once client route request s (.ok (sent, r)) t)
    (hs : s.SideConsistent) (hn : request.headers.values HeaderName.proxyAuthorization = []) :
    Run.withoutAnswer sent = request := by
  cases ho with
  | @received answer _ _ ha =>
    cases answer with
    | none => simp [Run.withoutAnswer, Request.answering, Auth.Negotiation.attach,
        Headers.remove_of_values_eq_nil hn]
    | some a =>
      have hside : a.side = .proxy := (hs.answer ha).1
      simp only [Run.withoutAnswer, Request.answering, Auth.Negotiation.attach, hside]
      rw [show Side.proxy.answerHeader = HeaderName.proxyAuthorization from rfl,
        Headers.remove_replace _ hn]

/-- The proxy is asked again behind one status only. -/
theorem status_of_isChallenged (hc : (Run.isChallenged proxy r) s = (.ok true, t)) : r.status = 407 := by
  rw [Run.isChallenged_run] at hc
  split at hc
  · assumption
  · cases (Prod.mk.inj hc).1

theorem side_of_fixed (ht : t.fixed = s.fixed) (hside : (Run.strategy s .proxy).side = .proxy) :
    (Run.strategy t .proxy).side = .proxy :=
  (congrArg (·.side) (Session.strategy_of_fixed ht .proxy)).trans hside

theorem sideConsistent_isChallenged {again : Bool} (hc : (Run.isChallenged proxy r) s = (.ok again, t))
    (hside : (Run.strategy s .proxy).side = .proxy) (hs : s.SideConsistent) : t.SideConsistent := by
  have hheard := hs.heard .proxy proxy r.status
  have hside' := side_of_fixed (Session.fixed_of_plain (s.plain_heard .proxy proxy r.status)) hside
  rw [Run.isChallenged_run] at hc
  split at hc
  · obtain ⟨-, rfl⟩ := Prod.mk.inj hc
    refine hheard.reacted_of_select hside' fun cs hcs c hm => ⟨?_, trivial⟩
    exact (Auth.Strategy.side_of_mem_select hcs hm).trans hside'
  · obtain ⟨-, rfl⟩ := Prod.mk.inj hc
    exact hheard

end

-- ---------------------------------------------------------------------------
-- The invariant
-- ---------------------------------------------------------------------------

structure OpeningFrom (client : Client) (route : Route) (proxy : Endpoint) (request : Request)
    (origin : Session) (m : Opening × Session) : Prop where
  reached : Relation.ReflTransGen (Ask client route proxy) (.asking 0 request, origin) m
  /-- At the head of the loop, the request is the one that was built. -/
  head : ∀ k current, m.1 = .asking k current → current = request
  sideConsistent : m.2.SideConsistent
  side : (Run.strategy m.2 .proxy).side = .proxy
  recorded : ∃ h, m.2.log = origin.log ++ h.reverse ∧
    Sends (AsksAnew client route proxy request origin) h ∧ m.1.Knows h

section
variable {client : Client} {route : Route} {proxy asked : Endpoint} {request : Request}
  {origin s : Session} {h : List Event} {k : Nat} {current sent : Request}

theorem isBare_connectAttempt (hr : Request.connect asked = .ok request) {answer : Option Answer}
    (ha : ∀ a, answer = some a → a.side = .proxy) : (connectAttempt route request answer).IsBare := by
  obtain ⟨hm, hh, -⟩ := connect_ok hr
  refine ⟨hm, ?_, ?_⟩
  · have hvalues := Request.values_answering request answer .proxy
    cases answer with
    | none => simp [connectAttempt, Request.answering, Auth.Negotiation.attach, hh, Headers.values]
    | some a =>
      simp only [Option.filter_some, ha a rfl, decide_true, if_true] at hvalues
      exact hvalues
  · intro name hn
    have hnone : Headers.values [] name = [] := rfl
    show (request.answering answer).headers.values name = []
    rw [Request.answering, Auth.Negotiation.values_attach, hh]
    cases answer with
    | none => exact hnone
    | some a =>
      simp only [ha a rfl]
      exact (if_neg (Ne.symm hn)).trans hnone

/-- Whatever is answered in a round that has come about is such an attempt. -/
theorem OpeningFrom.asks (ho : OpeningFrom client route proxy request origin (.asking k current, s))
    (hr : Request.connect asked = .ok request) (hlog : s.log = origin.log ++ h.reverse)
    (hb : BehindChallenge h) {answer : Option Answer} (ha : (s.outcome .proxy current).answer = .ok answer) :
    AsksAnew client route proxy request origin h (connectAttempt route current answer) := by
  obtain rfl : current = request := ho.head k current rfl
  refine ⟨isBare_connectAttempt hr ?_, hb, k, s, ho.reached, hlog, ha, rfl⟩
  rintro a rfl
  exact (ho.sideConsistent.answer ha).1

theorem OpeningFrom.start (hn : origin.SideConsistent)
    (hside : (Run.strategy origin .proxy).side = .proxy) :
    OpeningFrom client route proxy request origin (.asking 0 request, origin) := by
  refine ⟨.refl, ?_, hn, hside, [], by simp, sends_nil, .inl rfl, nofun⟩
  rintro _ _ ⟨⟩
  rfl

/-- What is known once the reply of a round has been judged: taking the answer out of what was sent gives the
request that was built. -/
theorem OpeningFrom.judged {r : Response} {again : Bool} {t u : Session}
    (ho : OpeningFrom client route proxy request origin (.asking k current, s)) (hc : client.Numbered)
    (hr : Request.connect asked = .ok request)
    (ha : (Run.askOnce client route current) s = (.ok (sent, r), u))
    (hch : (Run.isChallenged proxy r) u = (.ok again, t)) :
    Run.withoutAnswer sent = request ∧ t.SideConsistent ∧ (Run.strategy t .proxy).side = .proxy ∧
      ∃ n a h, t.log = origin.log ++ (.received n r :: .sent a :: h).reverse ∧
        Sends (AsksAnew client route proxy request origin) (.received n r :: .sent a :: h) ∧
        NoneInformational (.received n r :: .sent a :: h) := by
  have ho' := Once.of_run ha
  have hp := plain_of_isChallenged hch
  have hside := side_of_fixed ho'.fixed ho.side
  obtain ⟨h, hlog, hsends, hb, hnone⟩ := ho.recorded
  obtain ⟨n, a, hlog', hsends', hnone'⟩ :=
    ho'.replied hc hlog hsends hnone fun _ hanswer => ho.asks hr hlog hb hanswer
  obtain rfl : current = request := ho.head k current rfl
  have hbare : current.headers.values HeaderName.proxyAuthorization = [] := by
    rw [(connect_ok hr).2.1]
    rfl
  exact ⟨ho'.withoutAnswer ho.sideConsistent hbare,
    sideConsistent_isChallenged hch hside (ho'.sideConsistent ho.sideConsistent),
    side_of_fixed (Session.fixed_of_plain hp) hside,
    n, a, h, (Session.log_of_plain hp).trans hlog', hsends', hnone'⟩

theorem OpeningFrom.step (hc : client.Numbered) (hr : Request.connect asked = .ok request)
    {m n : Opening × Session} (hstep : Ask client route proxy m n)
    (ho : OpeningFrom client route proxy request origin m) :
    OpeningFrom client route proxy request origin n := by
  obtain ⟨point, s⟩ := m
  have hreached := ho.reached.tail hstep
  cases hstep with
  | failed ha =>
    have ho' := Once.of_run ha
    obtain ⟨h, hlog, hsends, hb, hnone⟩ := ho.recorded
    exact ⟨hreached, nofun, ho'.sideConsistent ho.sideConsistent, side_of_fixed ho'.fixed ho.side,
      ho'.failed hlog hsends hnone fun _ hanswer => ho.asks hr hlog hb hanswer⟩
  | settled ha hch =>
    obtain ⟨-, hconsistent, hside, n, a, h, hlog, hsends, hnone⟩ := ho.judged hc hr ha hch
    exact ⟨hreached, nofun, hconsistent, hside, _, hlog, hsends, rfl, hnone⟩
  | @spent _ _ _ _ _ t _ ha hch =>
    obtain ⟨-, hconsistent, hside, n, a, h, hlog, hsends, hnone⟩ := ho.judged hc hr ha hch
    have hp := t.plain_gaveUp .proxy
    exact ⟨hreached, nofun, hconsistent.gaveUp .proxy, side_of_fixed (Session.fixed_of_plain hp) hside, _,
      (Session.log_of_plain hp).trans hlog, hsends, rfl, hnone⟩
  | @unread _ _ _ _ _ t r error ha hch hk hb =>
    obtain ⟨-, hconsistent, hside, n, a, h, hlog, hsends, hnone⟩ := ho.judged hc hr ha hch
    have herror : ∀ status, error ≠ .tunnelRefused status := by
      rintro _ rfl
      cases Response.contents_error hb
    have hbody : ∀ event ∈ r.reading, event.isOfBody = true := fun _ => Response.isOfBody_of_mem_reading
    refine ⟨hreached, nofun, fun other => by simpa using hconsistent other, hside, _, ?_, hsends.append hbody,
      Opening.knows_error (hnone.append hbody) herror⟩
    simp [hlog]
  | @again _ _ _ _ _ t r bytes ha hch hk hb =>
    obtain ⟨hsent, hconsistent, hside, n, a, h, hlog, hsends, hnone⟩ := ho.judged hc hr ha hch
    have hbody : ∀ event ∈ r.reading, event.isOfBody = true := fun _ => Response.isOfBody_of_mem_reading
    refine ⟨hreached, ?_, fun other => by simpa using hconsistent other, hside, _, ?_, hsends.append hbody,
      .inr ⟨n, r, a, h, rfl, status_of_isChallenged hch⟩, hnone.append hbody⟩
    · rintro _ _ ⟨⟩
      exact hsent
    · simp [hlog]

theorem OpeningFrom.steps (hc : client.Numbered) (hr : Request.connect asked = .ok request)
    {m n : Opening × Session}
    (hsteps : Relation.ReflTransGen (Ask client route proxy) m n)
    (ho : OpeningFrom client route proxy request origin m) :
    OpeningFrom client route proxy request origin n := by
  induction hsteps with
  | refl => exact ho
  | tail _ hstep ih => exact ih.step hc hr hstep

end

-- ---------------------------------------------------------------------------
-- Tunnels
-- ---------------------------------------------------------------------------

structure Opens (client : Client) (proxy target : Endpoint) (s : Session) : Prop where
  /-- Only a success that was received last opens the tunnel. -/
  granted : ∀ r, ((Run.tunnel client proxy target) s).1 = .ok r →
    200 ≤ r.status ∧ r.status ≤ 299 ∧
      lastReceived? (history (Run.tunnel client proxy target) s) = some r
  refused : ∀ status, ((Run.tunnel client proxy target) s).1 = .error (.tunnelRefused status) →
    300 ≤ status ∧
      (lastReceived? (history (Run.tunnel client proxy target) s)).map (·.status) = some status
  informational : ∀ n r, .received n r ∈ history (Run.tunnel client proxy target) s → r.status < 200 →
    ((Run.tunnel client proxy target) s).1 = .error (.protocol (.connectReply r.status))
  sends : Sends (fun earlier a => ∃ request, Request.connect target.normalized = .ok request ∧
    AsksAnew client (Run.tunnelRoute proxy.normalized target.normalized) proxy.normalized request
      (s.entered (Run.tunnelRoute proxy.normalized target.normalized) target.normalized) earlier a)
    (history (Run.tunnel client proxy target) s)

/-- How the loop ends, and what becomes of it. -/
theorem tunnel_knows (client : Client) (proxy target : Endpoint) (s : Session) (hc : client.Numbered)
    (hs : s.context = { config := s.context.config }) (hside : s.proxy.side = .proxy) {request : Request}
    (hr : Request.connect target.normalized = .ok request) :
    ∃ result, (Opening.ended result).Knows (history (Run.tunnel client proxy target) s) ∧
      Sends (AsksAnew client (Run.tunnelRoute proxy.normalized target.normalized) proxy.normalized request
        (s.entered (Run.tunnelRoute proxy.normalized target.normalized) target.normalized))
        (history (Run.tunnel client proxy target) s) ∧
      (∀ error, result = .error error → ((Run.tunnel client proxy target) s).1 = .error error) ∧
      ∀ r, result = .ok r → ((Run.tunnel client proxy target) s).1 =
        if 299 < r.status then .error (.tunnelRefused r.status) else .ok r := by
  obtain ⟨result, t, events, hsteps, hlog, hbody, herror, hok⟩ := tunnel_ends client proxy target s hr
  have hconsistent : (s.entered (Run.tunnelRoute proxy.normalized target.normalized)
      target.normalized).SideConsistent := by
    intro other
    refine Auth.Negotiation.serves_of_idle ?_
    rw [Session.negotiation_entered]
    cases other <;> simp only [Run.negotiation] <;> rw [hs]
  obtain ⟨h, hlog', hsends, hknows⟩ := (OpeningFrom.steps hc hr hsteps
    (OpeningFrom.start hconsistent hside)).recorded
  have hrecorded : t.log = s.log ++ h.reverse := hlog'
  have hbody' : ∀ event ∈ events.reverse, event.isOfBody = true :=
    fun event hm => hbody event (List.mem_reverse.mp hm)
  have hhistory : history (Run.tunnel client proxy target) s = events.reverse ++ h :=
    history_eq (by simp [hlog, hrecorded])
  rw [hhistory]
  exact ⟨result, hknows.append hbody', hsends.append hbody', herror, hok⟩

/-- Opening a tunnel, with nothing held at first and credentials for proxies, succeeds with a success and is
refused with the status that came last, and an informational status is an error. The proxy is asked again
after a challenge alone, each time with an answer made in that very round and with no other header. -/
theorem tunnel_opens (client : Client) (proxy target : Endpoint) (s : Session)
    (hc : client.Numbered) (hs : s.context = { config := s.context.config })
    (hside : s.proxy.side = .proxy) : Opens client proxy target s := by
  cases hr : Request.connect target.normalized with
  | error error =>
    have hrun : (Run.tunnel client proxy target) s =
        (.error (.protocol (.tunnelTarget target.normalized error)), s) := by
      simp [Run.tunnel_run, hr]
    have hh : history (Run.tunnel client proxy target) s = [] := by simp [history, hrun]
    refine ⟨?_, ?_, ?_, ?_⟩
    · rw [hrun]
      rintro _ ⟨⟩
    · rw [hrun]
      rintro _ ⟨⟩
    · rw [hh]
      rintro _ _ ⟨⟩
    · rw [hh]
      exact sends_nil
  | ok request =>
    obtain ⟨result, hknows, hsends, herror, hok⟩ := tunnel_knows client proxy target s hc hs hside hr
    cases result with
    | error error =>
      obtain ⟨hrefused, hinformational⟩ := hknows
      refine ⟨?_, ?_, ?_, hsends.mono fun _ _ ha => ⟨request, hr, ha⟩⟩ <;> rw [herror error rfl]
      · rintro _ ⟨⟩
      · rintro status ⟨rfl⟩
        exact absurd rfl (hrefused status)
      · intro n r hm hlt
        rw [hinformational n r hm hlt]
    | ok r =>
      obtain ⟨hlast, hnone⟩ := hknows
      obtain ⟨number, hm⟩ := mem_of_lastReceived? hlast
      have hle := hnone number r hm
      refine ⟨?_, ?_, ?_, hsends.mono fun _ _ ha => ⟨request, hr, ha⟩⟩
      · rw [hok r rfl, hlast]
        intro other ho
        split at ho
        · cases ho
        · obtain rfl := Except.ok.inj ho
          exact ⟨hle, by omega, rfl⟩
      · rw [hok r rfl, hlast]
        intro status ho
        split at ho
        · cases ho
          exact ⟨by omega, rfl⟩
        · cases ho
      · intro n other hm' hlt
        have hle' := hnone n other hm'
        omega

theorem numbered_passwordProxy : passwordProxy.Numbered := by
  intro number status headers content hp
  unfold passwordProxy Client.replying at hp
  rcases hn : number - 1 with _ | _ | n <;> simp only [hn] at hp <;> cases hp <;> decide

/-- A tunnel is opened behind one challenge, with an answer in the second attempt. -/
theorem opens_passwordProxy :
    passwordProxy.Numbered ∧ passwordSession.context = { config := passwordSession.context.config } ∧
      passwordSession.proxy.side = .proxy ∧
      Opens passwordProxy ⟨"http", "proxy", some 3128⟩ ⟨"https", "a.example", none⟩ passwordSession ∧
      ((Run.tunnel passwordProxy ⟨"http", "proxy", some 3128⟩ ⟨"https", "a.example", none⟩)
        passwordSession).1.isOk =
        true ∧
      answersProxy (history
        (Run.tunnel passwordProxy ⟨"http", "proxy", some 3128⟩ ⟨"https", "a.example", none⟩)
          passwordSession) =
        true :=
  ⟨numbered_passwordProxy, rfl, rfl,
    tunnel_opens passwordProxy _ _ passwordSession numbered_passwordProxy rfl rfl,
    by decide +kernel, by decide +kernel⟩

end Exchange

end HttpSession
