import HttpSession.Proofs.Auth.PhaseLaws
import HttpSession.Proofs.Exchange.Attempts
import HttpSession.Proofs.Exchange.Bounds

/-!
# Without authentication

Where the configuration switches authentication off, an exchange sends what it was given and hands the
first challenge over. Opening a tunnel does not check the switch and answers the proxy all the same: only
its first attempt is without an answer, as a negotiation that was never challenged has none.

Main statement: an exchange without authentication answers no challenge (`WithoutAuthentication`), and the
opening of a tunnel answers none exactly if the first reply is not a challenge that there are candidates
for (`withoutAuthentication_switchedOff`).
-/

namespace HttpSession

open Auth (Side Negotiation)

def Response.IsChallenge (r : Response) : Prop := ∃ side : Side, r.status = side.status

theorem Response.IsChallenge.lt_status {r : Response} (h : r.IsChallenge) :
    299 < r.status := by
  obtain ⟨side, hs⟩ := h
  cases side <;> simp only [Side.status] at hs <;> omega

/-- Whether an attempt carries no answer, and in the headers for answers only what some headers had. -/
structure Attempt.Silent (own : Headers) (a : Attempt) : Prop where
  proxy : a.proxyAnswer = none
  target : a.targetAnswer = none
  values : ∀ side : Side, a.request.headers.values side.answerHeader = own.values side.answerHeader

namespace Exchange

def Unchallenged (h : List Event) : Prop := ∀ n r, .received n r ∈ h → ¬ r.IsChallenge

/-- Challenges are not answered: no attempt carries an answer, none follows a challenge, and a challenge is
handed over. -/
structure WithoutAuthentication (own : Headers) (handed : Response → Prop) (h : List Event) : Prop where
  sends : Sends (fun earlier a => a.Silent own ∧ Unchallenged earlier) h
  hands : ∀ n r, .received n r ∈ h → r.IsChallenge → handed r

section
variable {events h : List Event} {event : Event} {own : Headers} {handed : Response → Prop}

theorem unchallenged_nil : Unchallenged [] := receives_nil

theorem Unchallenged.cons (hh : Unchallenged h)
    (he : ∀ n r, event = .received n r → ¬ r.IsChallenge) : Unchallenged (event :: h) :=
  Receives.cons hh he

theorem Unchallenged.append (hh : Unchallenged h) (he : ∀ event ∈ events, event.isOfBody = true) :
    Unchallenged (events ++ h) :=
  Receives.append hh he

/-- A single attempt without an answer, and what came of it. -/
theorem withoutAuthentication_once {a : Attempt} {n : Nat} {r : Response} (ha : a.Silent own)
    (he : ∀ event ∈ events, event.isOfBody = true) (hr : r.IsChallenge → handed r) :
    WithoutAuthentication own handed (events ++ [.received n r, .sent a]) := by
  have hsent : Sends (fun earlier a => a.Silent own ∧ Unchallenged earlier) [.sent a] := by
    refine sends_nil.cons ?_
    rintro _ ⟨rfl⟩
    exact ⟨ha, unchallenged_nil⟩
  refine ⟨(hsent.cons (by simp)).append he, ?_⟩
  intro m r' hm
  have hm' := mem_of_received_mem_append he hm
  simp only [List.mem_cons, Event.received.injEq, List.not_mem_nil, or_false, reduceCtorEq] at hm'
  obtain ⟨-, rfl⟩ := hm'
  exact hr

end

-- ---------------------------------------------------------------------------
-- Exchanges
-- ---------------------------------------------------------------------------

section
variable {client : Client} {first : Request}

def Point.KeepsSilent (own : Headers) (h : List Event) : Point → Prop
  | .hopping leg => leg.request.headers = own ∧ Unchallenged h
  | .attempting leg _ => leg.request.headers = own ∧ Unchallenged h
  | .waiting leg _ a => leg.request.headers = own ∧ Unchallenged h ∧ a.Silent own
  | .judging leg _ r => leg.request.headers = own ∧ ∀ n r', .received n r' ∈ h → r'.IsChallenge → r' = r
  | .answered leg r => leg.request.headers = own ∧ ∀ n r', .received n r' ∈ h → r'.IsChallenge → r' = r
  | .ended result => ∀ n r, .received n r ∈ h → r.IsChallenge → result = .ok r

structure SilenceInvariant (own : Headers) (m : Moment) : Prop where
  off : m.session.context.config.authenticates = false
  sends : Sends (fun earlier a => a.Silent own ∧ Unchallenged earlier) m.history
  here : m.point.KeepsSilent own m.history

theorem Prepared.silent {route : Route} {request : Request} {s t : Session} {a : Attempt}
    (h : Prepared route request s (.ok a) t) (ha : s.context.config.authenticates = false) :
    a.Silent request.headers := by
  have hcarries := h.carries
  cases h with
  | bare hc => exact ⟨rfl, rfl, fun side => hcarries.values_answer side⟩
  | answered _ hn => rw [ha] at hn; cases hn

/-- Where a response is followed, it is no challenge. -/
theorem unchallenged_of_follows {c : Config} {request : Request} {r : Response} {h : List Event}
    (hf : client.follows c request r = true)
    (hh : ∀ n r', .received n r' ∈ h → r'.IsChallenge → r' = r) : Unchallenged h := by
  intro n r' hm hr
  obtain ⟨side, hs⟩ := hr
  rw [hh n r' hm ⟨side, hs⟩] at hs
  exact status_of_follows hf side hs

theorem Led.headers {current : Request} {route : Route} {r : Response} {s t : Session}
    {next : Run.Onward} (h : Led client first current route r s (.ok next) t) :
    next.request.headers = first.headers := by
  cases h with
  | onward => rfl

theorem SilenceInvariant.sends_step {m n : Moment} (h : Step client first m n)
    (hm : SilenceInvariant first.headers m) :
    Sends (fun earlier a => a.Silent first.headers ∧ Unchallenged earlier) n.history := by
  refine h.sends hm.sends ?_
  intro leg k a hp
  have hhere := hm.here
  rw [hp] at hhere
  exact ⟨hhere.2.2, hhere.2.1⟩

theorem SilenceInvariant.keepsSilent_step {m n : Moment} (h : Step client first m n)
    (hm : SilenceInvariant first.headers m) :
    n.point.KeepsSilent first.headers n.history := by
  obtain ⟨point, s, history⟩ := m
  obtain ⟨hoff, -, hhere⟩ := hm
  simp only at hoff
  -- What ends an exchange that has seen no challenge hands none over.
  have hended {h : List Event} {result : Except ExchangeError Response} (hh : Unchallenged h) :
      (Point.ended result).KeepsSilent first.headers h := fun n r hm hr => absurd hr (hh n r hm)
  cases h with
  | stray => exact hended (hhere.2.cons nofun)
  | enter => exact ⟨hhere.1, hhere.2.cons nofun⟩
  | unprepared => exact hended hhere.2
  | prepared hp => exact ⟨hhere.1, hhere.2, hhere.1 ▸ hp.silent hoff⟩
  | unreceived => exact hended (hhere.2.1.cons nofun)
  | @received leg k _ u _ a r hr hu =>
    refine ⟨hhere.1, ?_⟩
    intro n r' hm hc
    simp only [List.mem_cons, reduceCtorEq, Event.received.injEq, false_or] at hm
    rcases hm with ⟨-, rfl⟩ | hm
    · rfl
    · exact absurd hc (hhere.2.1 n r' hm)
  | settled => exact hhere
  | spent _ hj => cases (hj.of_disabled hoff).1
  | unread _ hj => cases (hj.of_disabled hoff).1
  | again _ hj => cases (hj.of_disabled hoff).1
  | final => exact fun n r hm hr => congrArg Except.ok (hhere.2 n r hm hr).symm
  | limit hf =>
    exact hended ((unchallenged_of_follows hf hhere.2).append fun _ => Response.isOfBody_of_mem_releasing)
  | unfollowable hf =>
    exact hended ((unchallenged_of_follows hf hhere.2).append fun _ => Response.isOfBody_of_mem_releasing)
  | stuck hf =>
    exact hended ((unchallenged_of_follows hf hhere.2).append fun _ => Response.isOfBody_of_mem_reading)
  | onward hf _ hl =>
    exact ⟨hl.headers,
      (unchallenged_of_follows hf hhere.2).append fun _ => Response.isOfBody_of_mem_reading⟩

theorem SilenceInvariant.step {m n : Moment} (h : Step client first m n)
    (hm : SilenceInvariant first.headers m) :
    SilenceInvariant first.headers n :=
  ⟨by rw [Session.config_of_fixed h.fixed]; exact hm.off, hm.sends_step h, hm.keepsSilent_step h⟩

theorem exchange_withoutAuthentication (client : Client) (request : Request) (s : Session)
    (ha : s.context.config.authenticates = false) :
    WithoutAuthentication request.headers (fun r => ((Run.exchange client request) s).1 = .ok r)
      (history (Run.exchange client request) s) := by
  refine exchange_keeps (I := SilenceInvariant request.headers)
    (P := fun outcome h => WithoutAuthentication request.headers (fun r => outcome.1 = .ok r) h)
    ?_ ?_ (fun h hm => hm.step h) fun hm => ⟨hm.sends, hm.here⟩
  · exact fun _ _ => ⟨sends_nil, nofun⟩
  · exact fun _ _ => ⟨ha, sends_nil, rfl, unchallenged_nil⟩

end

-- ---------------------------------------------------------------------------
-- Tunnels
-- ---------------------------------------------------------------------------

section
variable {client : Client} {route : Route} {proxy : Endpoint} {request : Request} {s : Session}

theorem answered_of_idle (request : Request) (hn : Run.negotiation s .proxy = {}) :
    (s.outcome .proxy request).answer = .ok none ∧ s.answered .proxy request = s := by
  have hproxy : s.context.proxy = {} := hn
  have ho : s.outcome .proxy request = ⟨.ok none, {}, s.draws⟩ := by
    simp only [Session.outcome, hn]
    rfl
  refine ⟨by rw [ho], ?_⟩
  simp only [Session.answered, ho, Session.withNegotiation]
  rw [← hproxy]

theorem heard_of_idle {r : Response} (hn : Run.negotiation s .proxy = {})
    (hr : r.status = Side.proxy.status) : s.heard .proxy proxy r.status = s := by
  have hproxy : s.context.proxy = {} := hn
  have hh : (Run.negotiation s .proxy).hear .proxy r.status = (true, {}, []) := by
    rw [hn, hr]
    rfl
  simp only [Session.heard, hh, Session.withNegotiation]
  rw [← hproxy]
  rfl

/-- Asking for a tunnel once fails for want of an answer, or sends an attempt. -/
theorem Once.sends {result : Except ExchangeError (Request × Response)} {t : Session}
    (h : Once client route request s result t) :
    (∃ fault, (s.outcome .proxy request).answer = .error fault ∧ t.log = s.log) ∨
      ∃ a, s.log ++ [.sent a] <+: t.log := by
  have hlog : (s.answered .proxy request).log = s.log := Session.log_of_plain (s.plain_answered _ _)
  cases h with
  | unanswered ha => exact .inl ⟨_, ha, hlog⟩
  | @unreceived answer => exact .inr ⟨connectAttempt route request answer, by simp [hlog]⟩
  | @informational answer _ _ _ _ ht => exact .inr ⟨connectAttempt route request answer, by simp [ht, hlog]⟩
  | @received answer _ _ _ _ ht => exact .inr ⟨connectAttempt route request answer, by simp [ht, hlog]⟩

theorem Ask.askOnce_prefix {k : Nat} {m : Opening × Session}
    (h : Ask client route proxy (.asking k request, s) m) :
    ((Run.askOnce client route request) s).2.log <+: m.2.log := by
  have hjudged {r : Response} {again : Bool} {u t : Session}
      (hc : (Run.isChallenged proxy r) u = (.ok again, t)) : t.log = u.log :=
    Session.log_of_plain (plain_of_isChallenged hc)
  cases h with
  | failed ha => simp [ha]
  | settled ha hc => simp [ha, hjudged hc]
  | spent ha hc => simp [ha, Session.log_of_plain (Session.plain_gaveUp _ _), hjudged hc]
  | unread ha hc =>
    rw [ha, Session.log_recorded, hjudged hc]
    exact List.prefix_append _ _
  | again ha hc =>
    rw [ha, Session.log_recorded, hjudged hc]
    exact List.prefix_append _ _

theorem Ask.log_prefix {m n : Opening × Session} (h : Ask client route proxy m n) :
    m.2.log <+: n.2.log := by
  obtain ⟨point, s⟩ := m
  cases point with
  | ended result => cases h
  | asking k request =>
    obtain ⟨_, -, hl⟩ | ⟨a, hl⟩ := (once_askOnce client route request s).sends
    · exact hl ▸ h.askOnce_prefix
    · exact (List.prefix_append _ _).trans (hl.trans h.askOnce_prefix)

theorem Ask.eq_of_ended {result : Except ExchangeError Response} {m : Opening × Session}
    (h : Relation.ReflTransGen (Ask client route proxy) (.ended result, s) m) :
    m = (.ended result, s) := by
  rcases h.cases_head with heq | ⟨_, h, -⟩
  · exact heq.symm
  · cases h

theorem Ask.steps_prefix {m n : Opening × Session}
    (h : Relation.ReflTransGen (Ask client route proxy) m n) : m.2.log <+: n.2.log := by
  induction h with
  | refl => exact List.prefix_rfl
  | tail _ h ih => exact ih.trans h.log_prefix

def plainly (route : Route) (request : Request) : Attempt := ⟨route, request, [], none, none⟩

def replied (client : Client) (route : Route) (request : Request) (s : Session) (r : Response) : Session :=
  ((s.sent (plainly route request)).waited client).recorded [.received (s.attempts + 1) r]

theorem askOnce_of_idle_ok {sent : Request} {r : Response} {t : Session}
    (hn : Run.negotiation s .proxy = {})
    (ha : (Run.askOnce client route request) s = (.ok (sent, r), t)) :
    Run.receive (s.attempts + 1) request.url (client.peer (s.attempts + 1)) = .ok r ∧
      t = replied client route request s r := by
  obtain ⟨hidle, hsession⟩ := answered_of_idle request hn
  cases Once.of_run ha with
  | received hanswer hr ht =>
    obtain rfl := Except.ok.inj (hidle.symm.trans hanswer)
    rw [hsession] at ht
    exact ⟨hr, ht⟩

theorem askOnce_of_idle_error {error : ExchangeError} {t : Session}
    (hn : Run.negotiation s .proxy = {})
    (ha : (Run.askOnce client route request) s = (.error error, t)) :
    (Run.receive (s.attempts + 1) request.url (client.peer (s.attempts + 1)) = .error error ∧
        t.log = s.log ++ [.sent (plainly route request)]) ∨
      ∃ r, Run.receive (s.attempts + 1) request.url (client.peer (s.attempts + 1)) = .ok r ∧
        r.status < 200 ∧ t.log = (replied client route request s r).log ++ r.dropping := by
  obtain ⟨hidle, hsession⟩ := answered_of_idle request hn
  cases Once.of_run ha with
  | unanswered hfault => cases hidle.symm.trans hfault
  | unreceived hanswer hr =>
    obtain rfl := Except.ok.inj (hidle.symm.trans hanswer)
    exact .inl ⟨hr, by rw [hsession]; rfl⟩
  | informational hanswer hr ht hi =>
    obtain rfl := Except.ok.inj (hidle.symm.trans hanswer)
    rw [hsession] at ht
    exact .inr ⟨_, hr, hi.2, by rw [ht]; rfl⟩

theorem isChallenged_of_idle {r : Response} {again : Bool} {t : Session}
    (hn : Run.negotiation s .proxy = {}) (hc : (Run.isChallenged proxy r) s = (.ok again, t)) :
    t.plain = s.plain ∧
      (again = true ↔ r.status = Side.proxy.status ∧
        (Negotiation.react {} (s.env .proxy proxy) r.headers).1 = true) ∧
      (again = true → (Run.negotiation t .proxy).Ready) := by
  rw [Run.isChallenged_run] at hc
  split at hc
  · rename_i hr
    rw [heard_of_idle hn hr] at hc
    obtain ⟨hagain, rfl⟩ := Prod.mk.inj hc
    obtain rfl := Except.ok.inj hagain
    have hreaction : s.reaction .proxy proxy r =
        Negotiation.react {} (s.env .proxy proxy) r.headers := by
      rw [Session.reaction, hn]
    refine ⟨s.plain_reacted _ _ _, ?_, fun _ => ?_⟩
    · simp [hreaction, hr]
    · rw [Session.negotiation_reacted, hreaction]
      exact Negotiation.settled_empty.react.1
  · rename_i hr
    obtain ⟨hagain, rfl⟩ := Prod.mk.inj hc
    obtain rfl := Except.ok.inj hagain
    exact ⟨s.plain_heard _ _ _, by simp [hr], nofun⟩

theorem idle_replied {r : Response} (hn : Run.negotiation s .proxy = {}) :
    Run.negotiation (replied client route request s r) .proxy = {} := by
  simpa [replied] using hn

def IsFirstChallenge (client : Client) (proxy : Endpoint) (request : Request) (s : Session) (r : Response) :
    Prop :=
  Run.receive (s.attempts + 1) request.url (client.peer (s.attempts + 1)) = .ok r ∧
    r.status = Side.proxy.status ∧ (Negotiation.react {} (s.env .proxy proxy) r.headers).1 = true ∧
    1 < s.context.config.maxRounds

theorem plainly_silent (route : Route) (request : Request) :
    (plainly route request).Silent request.headers :=
  ⟨rfl, rfl, fun _ => rfl⟩

/-- One attempt, its reply, and perhaps what became of the body. -/
theorem withoutAuthentication_replied {result : Except ExchangeError Response} {r : Response} {t : Session}
    (events : List Event)
    (hr : Run.receive (s.attempts + 1) request.url (client.peer (s.attempts + 1)) = .ok r)
    (hl : t.log = (replied client route request s r).log ++ events)
    (he : ∀ event ∈ events, event.isOfBody = true) (hout : r.IsChallenge → result = .ok r)
    (hnot : ¬ IsFirstChallenge client proxy request s r) :
    ∃ h, t.log = s.log ++ h.reverse ∧ WithoutAuthentication request.headers (fun r => result = .ok r) h ∧
      ∀ r, ¬ IsFirstChallenge client proxy request s r := by
  refine ⟨events.reverse ++ [.received (s.attempts + 1) r, .sent (plainly route request)], ?_,
    withoutAuthentication_once (plainly_silent route request)
      (fun event hm => he event (List.mem_reverse.mp hm)) hout,
    ?_⟩
  · simp [hl, replied, Session.sent]
  · intro other hp
    obtain rfl := Except.ok.inj (hr.symm.trans hp.1)
    exact hnot hp

/-- Asking again, with a negotiation that is ready, sends an attempt. -/
theorem asked_again {k : Nat} {result : Except ExchangeError Response} {t : Session}
    (hready : (Run.negotiation s .proxy).Ready)
    (h : Relation.ReflTransGen (Ask client route proxy) (.asking k request, s) (.ended result, t)) :
    ∃ a, s.log ++ [.sent a] <+: t.log := by
  obtain heq | ⟨m, hnext, hrest⟩ := h.cases_head
  · cases heq
  obtain ⟨fault, hf, -⟩ | ⟨a, hl⟩ := (once_askOnce client route request s).sends
  · exact absurd hf (hready.answer.2 fault)
  · exact ⟨a, hl.trans (hnext.askOnce_prefix.trans (Ask.steps_prefix hrest))⟩

/-- What comes of the first round: one attempt and the reply to it, unless the reply has the proxy asked
again. -/
theorem ask_cases (hn : Run.negotiation s .proxy = {}) {result : Except ExchangeError Response}
    {t : Session}
    (h : Relation.ReflTransGen (Ask client route proxy) (.asking 0 request, s) (.ended result, t)) :
    (∃ h, t.log = s.log ++ h.reverse ∧ WithoutAuthentication request.headers (fun r => result = .ok r) h ∧
        ∀ r, ¬ IsFirstChallenge client proxy request s r) ∨
      ∃ r, IsFirstChallenge client proxy request s r ∧
        ((∃ error, result = .error error ∧ r.contents = .error error ∧
            t.log = (replied client route request s r).log ++ r.reading) ∨
          ∃ a, (replied client route request s r).log ++ r.reading ++ [.sent a] <+: t.log) := by
  have hconfig {r : Response} {v : Session}
      (hv : v.plain = (replied client route request s r).plain) :
      v.context.config = s.context.config :=
    Session.config_of_fixed ((Session.fixed_of_plain hv).trans rfl)
  obtain heq | ⟨m, hstep, hrest⟩ := h.cases_head
  · cases heq
  cases hstep with
  | @failed _ _ _ u error ha =>
    cases Ask.eq_of_ended hrest
    rcases askOnce_of_idle_error hn ha with ⟨hr, hl⟩ | ⟨r, hr, hstatus, hl⟩
    · refine .inl ⟨[.sent (plainly route request)], hl, ⟨?_, nofun⟩, ?_⟩
      · refine sends_nil.cons ?_
        rintro _ ⟨rfl⟩
        exact ⟨plainly_silent route request, unchallenged_nil⟩
      · intro r hp
        cases hr.symm.trans hp.1
    · have hchallenge : ¬ r.IsChallenge := fun hc => absurd hc.lt_status (by omega)
      exact .inl (withoutAuthentication_replied r.dropping hr hl (fun _ => Response.isOfBody_of_mem_dropping)
        (fun hc => absurd hc hchallenge) fun hp => hchallenge ⟨.proxy, hp.2.1⟩)
  | @settled _ _ _ _ u _ r ha hc =>
    cases Ask.eq_of_ended hrest
    obtain ⟨hr, rfl⟩ := askOnce_of_idle_ok hn ha
    obtain ⟨hplain, hagain, -⟩ := isChallenged_of_idle (idle_replied hn) hc
    have hlog : t.log = (replied client route request s r).log ++ [] := by
      rw [Session.log_of_plain hplain, List.append_nil]
    refine .inl (withoutAuthentication_replied [] hr hlog (by simp) (fun _ => rfl) fun hp => ?_)
    cases hagain.mpr ⟨hp.2.1, hp.2.2.1⟩
  | @spent _ _ _ _ u v r ha hc hk =>
    cases Ask.eq_of_ended hrest
    obtain ⟨hr, rfl⟩ := askOnce_of_idle_ok hn ha
    obtain ⟨hplain, -, -⟩ := isChallenged_of_idle (idle_replied hn) hc
    have hlog : (v.gaveUp .proxy).log = (replied client route request s r).log ++ [] := by
      rw [Session.log_of_plain ((v.plain_gaveUp _).trans hplain), List.append_nil]
    refine .inl (withoutAuthentication_replied [] hr hlog (by simp) (fun _ => rfl) fun hp => ?_)
    have hrounds := hp.2.2.2
    rw [hconfig hplain] at hk
    omega
  | @unread _ _ _ _ u v r error ha hc hk hb =>
    cases Ask.eq_of_ended hrest
    obtain ⟨hr, rfl⟩ := askOnce_of_idle_ok hn ha
    obtain ⟨hplain, hagain, -⟩ := isChallenged_of_idle (idle_replied hn) hc
    obtain ⟨hstatus, hreact⟩ := hagain.mp rfl
    refine .inr ⟨r, ⟨hr, hstatus, hreact, by rw [← hconfig hplain]; omega⟩, .inl ⟨error, rfl, hb, ?_⟩⟩
    rw [Session.log_recorded, Session.log_of_plain hplain]
  | @again _ _ _ _ u v r bytes ha hc hk hb =>
    obtain ⟨hr, rfl⟩ := askOnce_of_idle_ok hn ha
    obtain ⟨hplain, hagain, hready⟩ := isChallenged_of_idle (idle_replied hn) hc
    obtain ⟨hstatus, hreact⟩ := hagain.mp rfl
    refine .inr ⟨r, ⟨hr, hstatus, hreact, by rw [← hconfig hplain]; omega⟩, .inr ?_⟩
    have hready' : (Run.negotiation (v.recorded r.reading) .proxy).Ready := by
      simpa using hready rfl
    have hlog : (replied client route request s r).log ++ r.reading = (v.recorded r.reading).log := by
      rw [Session.log_recorded, Session.log_of_plain hplain]
    rw [hlog]
    exact asked_again hready' hrest

/-- What opening a tunnel makes of the last reply. -/
theorem tunnel_ends (client : Client) (proxy target : Endpoint) (s : Session) {request : Request}
    (hr : Request.connect target.normalized = .ok request) :
    ∃ result t events,
      Relation.ReflTransGen
          (Ask client (Run.tunnelRoute proxy.normalized target.normalized) proxy.normalized)
          (.asking 0 request,
            s.entered (Run.tunnelRoute proxy.normalized target.normalized) target.normalized)
          (.ended result, t) ∧
        ((Run.tunnel client proxy target) s).2.log = t.log ++ events ∧
        (∀ event ∈ events, event.isOfBody = true) ∧
        (∀ error, result = .error error → ((Run.tunnel client proxy target) s).1 = .error error) ∧
        ∀ r, result = .ok r → ((Run.tunnel client proxy target) s).1 =
          if 299 < r.status then .error (.tunnelRefused r.status) else .ok r := by
  have hsteps := ask_steps client (Run.tunnelRoute proxy.normalized target.normalized)
    proxy.normalized request s.context.config.furtherRounds 0
    (s.entered (Run.tunnelRoute proxy.normalized target.normalized) target.normalized) rfl
  simp only [Run.tunnel_run, hr]
  generalize (Run.ask client (Run.tunnelRoute proxy.normalized target.normalized) proxy.normalized
    request s.context.config.furtherRounds)
      (s.entered (Run.tunnelRoute proxy.normalized target.normalized) target.normalized) = outcome
    at hsteps ⊢
  obtain ⟨error | r, t⟩ := outcome
  · exact ⟨_, t, [], hsteps, by simp, by simp, fun _ he => he, nofun⟩
  · by_cases hstatus : 299 < r.status
    · refine ⟨_, t, r.dropping, hsteps, by simp [hstatus], fun _ => Response.isOfBody_of_mem_dropping,
        nofun, ?_⟩
      intro other ho
      obtain rfl := Except.ok.inj ho
      simp [hstatus]
    · refine ⟨_, t, [], hsteps, by simp [hstatus], by simp, nofun, ?_⟩
      intro other ho
      obtain rfl := Except.ok.inj ho
      simp [hstatus]

end

/-- The first reply to a request for a tunnel is a challenge that there are candidates for, and rounds are
left to answer it. -/
def ChallengedFirst (client : Client) (proxy target : Endpoint) (s : Session) : Prop :=
  (∃ request, Request.connect target.normalized = .ok request) ∧
    1 < s.context.config.maxRounds ∧
    ∃ h content cs, client.peer (s.attempts + 1) = .message Side.proxy.status h content ∧
      s.proxy.challenges h = .ok cs ∧
      s.proxy.select proxy.normalized s.context.config.proxySchemes cs ≠ []

theorem challengedFirst_iff {client : Client} {proxy target : Endpoint} {s : Session} {request : Request}
    (hr : Request.connect target.normalized = .ok request) :
    ChallengedFirst client proxy target s ↔
      ∃ r, IsFirstChallenge client proxy.normalized request
        (s.entered (Run.tunnelRoute proxy.normalized target.normalized) target.normalized) r := by
  constructor
  · rintro ⟨-, hrounds, h, content, cs, hpeer, hcs, hselect⟩
    exact ⟨⟨Side.proxy.status, h, content.map (⟨s.attempts + 1, ·⟩)⟩, congrArg _ hpeer, rfl,
      Negotiation.react_empty_iff.mpr ⟨cs, hcs, hselect⟩, hrounds⟩
  · rintro ⟨r, hreceive, hstatus, hreact, hrounds⟩
    obtain ⟨cs, hcs, hselect⟩ := Negotiation.react_empty_iff.mp hreact
    obtain ⟨status, h, content, hpeer, rfl⟩ := Run.receive_ok hreceive
    obtain rfl : status = Side.proxy.status := hstatus
    exact ⟨⟨request, hr⟩, hrounds, h, content, cs, hpeer, hcs, hselect⟩

/-- The request for a tunnel has no headers and no body. -/
theorem connect_ok {target : Endpoint} {request : Request}
    (h : Request.connect target = .ok request) :
    request.method = Method.connect ∧ request.headers = [] ∧ request.body = none := by
  simp only [Request.connect] at h
  generalize Url.read _ = reading at h
  cases reading with
  | error error => cases h
  | ok url =>
    obtain rfl := Except.ok.inj h
    exact ⟨rfl, rfl, rfl⟩

theorem tunnel_withoutAuthentication_iff (client : Client) (proxy target : Endpoint) (s : Session)
    (hs : Run.negotiation s .proxy = {}) :
    WithoutAuthentication []
      (fun r => ((Run.tunnel client proxy target) s).1 = .error (.tunnelRefused r.status))
        (history (Run.tunnel client proxy target) s) ↔
      ¬ ChallengedFirst client proxy target s := by
  cases hr : Request.connect target.normalized with
  | error error =>
    rw [history_eq (h := []) (by simp [Run.tunnel_run, hr])]
    refine ⟨fun _ hp => ?_, fun _ => ⟨sends_nil, nofun⟩⟩
    obtain ⟨⟨request, hrequest⟩, -⟩ := hp
    rw [hr] at hrequest
    cases hrequest
  | ok request =>
    rw [challengedFirst_iff hr]
    have hn : Run.negotiation
        (s.entered (Run.tunnelRoute proxy.normalized target.normalized) target.normalized) .proxy = {} := by
      simpa using hs
    obtain ⟨result, t, events, hsteps, hlog, hbody, herror, hok⟩ := tunnel_ends client proxy target s hr
    rcases ask_cases hn hsteps with ⟨h, hl, hwithout, hnone⟩ | ⟨r, hchallenged, hcase⟩
    · refine ⟨fun _ ⟨r, hp⟩ => hnone r hp, fun _ => ?_⟩
      have hbody' : ∀ event ∈ events.reverse, event.isOfBody = true :=
        fun event hm => hbody event (List.mem_reverse.mp hm)
      rw [history_eq (h := events.reverse ++ h) (by simp [hlog, hl, Session.entered])]
      rw [(connect_ok hr).2.1] at hwithout
      refine ⟨hwithout.sends.append hbody', ?_⟩
      intro n r hm hc
      exact (hok r (hwithout.hands n r (mem_of_received_mem_append hbody' hm) hc)).trans
        (if_pos hc.lt_status)
    · refine iff_of_false (fun hwithout => ?_) (fun hnot => hnot ⟨r, hchallenged⟩)
      -- A reply that cannot be read is not handed over; else the proxy is asked behind a challenge.
      rcases hcase with ⟨error, hresult, hcontents, hl⟩ | ⟨a, rest, hl⟩
      · have hmem : .received (s.attempts + 1) r ∈ history (Run.tunnel client proxy target) s := by
          rw [history_eq (h := events.reverse ++ (r.reading ++ [.received (s.attempts + 1) r,
            .sent (plainly (Run.tunnelRoute proxy.normalized target.normalized) request)]))]
          · simp
          · simp [hlog, hl, replied, Session.sent, Session.entered]
        have hhanded := hwithout.hands _ _ hmem ⟨.proxy, hchallenged.2.1⟩
        rw [herror error hresult] at hhanded
        obtain rfl := Except.error.inj hhanded
        cases Response.contents_error hcontents
      · have hhistory : history (Run.tunnel client proxy target) s =
            events.reverse ++ rest.reverse ++ .sent a :: (r.reading ++ [.received (s.attempts + 1) r,
              .sent (plainly (Run.tunnelRoute proxy.normalized target.normalized) request)]) := by
          apply history_eq
          rw [hlog, ← hl]
          simp [replied, Session.sent, Session.entered]
        obtain ⟨-, hearlier⟩ := hwithout.sends _ _ _ hhistory
        exact hearlier (s.attempts + 1) r (by simp) ⟨.proxy, hchallenged.2.1⟩

-- ---------------------------------------------------------------------------
-- Both
-- ---------------------------------------------------------------------------

/-- An exchange without authentication sends no answer and nothing behind a challenge, and hands the
challenge over. So does opening a tunnel, unless the first reply is a challenge that it answers: the switch
is not checked there. -/
theorem withoutAuthentication_switchedOff (client : Client) (s : Session)
    (hs : s.context = { config := s.context.config })
    (ha : s.context.config.authenticates = false) :
    (∀ request, WithoutAuthentication request.headers (fun r => ((Run.exchange client request) s).1 = .ok r)
        (history (Run.exchange client request) s)) ∧
      ∀ proxy target,
        WithoutAuthentication []
            (fun r => ((Run.tunnel client proxy target) s).1 = .error (.tunnelRefused r.status))
            (history (Run.tunnel client proxy target) s) ↔
          ¬ ChallengedFirst client proxy target s := by
  refine ⟨fun request => exchange_withoutAuthentication client request s ha, fun proxy target => ?_⟩
  refine tunnel_withoutAuthentication_iff client proxy target s ?_
  show s.context.proxy = {}
  rw [hs]

def passwordProxy : Client := .replying
  [.response 407 [(HeaderName.proxyAuthenticate, Utf8.encode "Basic realm=\"r\"")] none,
    .response 200 [] none]

def switchedOff : Session := .opened { authenticates := false } [({}, ⟨"u", "p", none⟩)]

/-- The exchange leaves the challenge of the proxy alone; what opening a tunnel does depends on the
challenge. -/
theorem withoutAuthentication_switchedOff_passwordProxy :
    switchedOff.context = { config := switchedOff.context.config } ∧
      switchedOff.context.config.authenticates = false ∧
      WithoutAuthentication []
        (fun r => ((Run.exchange passwordProxy (.to "http" "a")) switchedOff).1 = .ok r)
        (history (Run.exchange passwordProxy (.to "http" "a")) switchedOff) ∧
      (WithoutAuthentication []
          (fun r => ((Run.tunnel passwordProxy ⟨"http", "p", none⟩ ⟨"https", "a", none⟩) switchedOff).1 =
            .error (.tunnelRefused r.status))
          (history (Run.tunnel passwordProxy ⟨"http", "p", none⟩ ⟨"https", "a", none⟩) switchedOff) ↔
        ¬ ChallengedFirst passwordProxy ⟨"http", "p", none⟩ ⟨"https", "a", none⟩ switchedOff) :=
  ⟨rfl, rfl, (withoutAuthentication_switchedOff passwordProxy switchedOff rfl rfl).1 (.to "http" "a"),
    (withoutAuthentication_switchedOff passwordProxy switchedOff rfl rfl).2 ⟨"http", "p", none⟩
      ⟨"https", "a", none⟩⟩

def answersProxy (h : List Event) : Bool :=
  h.any fun event =>
    match event with
    | .sent a => a.proxyAnswer.isSome
    | _ => false

/-- Switching authentication off does not keep the opening of a tunnel from answering. -/
theorem tunnel_answers_switchedOff :
    ¬ ∀ (client : Client) (proxy target : Endpoint) (s : Session), s.IsFresh →
      s.context.config.authenticates = false →
      WithoutAuthentication []
        (fun r => ((Run.tunnel client proxy target) s).1 = .error (.tunnelRefused r.status))
        (history (Run.tunnel client proxy target) s) := by
  intro hwithout
  have hsends := (hwithout passwordProxy ⟨"http", "proxy", some 3128⟩
    ⟨"https", "a.example", none⟩ switchedOff
    (Session.isFresh_opened _ _) rfl).sends
  have hanswers : answersProxy (history
      (Run.tunnel passwordProxy ⟨"http", "proxy", some 3128⟩ ⟨"https", "a.example", none⟩) switchedOff) =
      true := by
    decide +kernel
  obtain ⟨event, hm, he⟩ := List.any_eq_true.mp hanswers
  cases event with
  | sent a =>
    obtain ⟨later, earlier, heq⟩ := List.append_of_mem hm
    have hnone := (hsends later a earlier heq).1.proxy
    simp [hnone] at he
  | _ => cases he

end Exchange

end HttpSession
