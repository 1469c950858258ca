import HttpSession.Proofs.Exchange.Attempts

/-!
# Every attempt starts from the request as it was given

A hop sends its request again as long as it is challenged, with the cookies and the answers of each
round. A round knows of the rounds before it only what the session does: what they added to the request
went with their own attempts. So each attempt is the request as it was given with what its own round
adds, and a header that a round does not write is the caller's.

Main statement: what each attempt of a hop consists of (`hop_attempts`).
-/

namespace HttpSession

open Auth (Side)

/-- Whether an attempt is a request with nothing but what a session adds to it: the cookies that the rules
choose now, and the answers that the negotiations give now. -/
structure Attempt.Adds (a : Attempt) (request : Request) (s : Session) : Prop where
  method : a.request.method = request.method
  url : a.request.url = request.url
  body : a.request.body = request.body
  /-- Every header but four is as it was given. -/
  kept : ∀ name, name ≠ HeaderName.cookie → name ≠ HeaderName.cookie2 →
    (∀ side : Side, name ≠ side.answerHeader) →
    a.request.headers.values name = request.headers.values name
  /-- Cookies come behind the values that were given, and each of their headers gets one value at most. -/
  cookies : ∃ rules, s.jar.rulesFor s.context request = .ok rules ∧
    a.cookies = rules.elim [] (s.jar.store.chosen · s.now) ∧
    a.request.headers.values HeaderName.cookie =
      request.headers.values HeaderName.cookie ++ (rules.bind (·.policy.format a.cookies)).toList ∧
    a.request.headers.values HeaderName.cookie2 =
      request.headers.values HeaderName.cookie2 ++ (rules.bind (·.policy.versionFor? a.cookies)).toList
  /-- An answer stands in place of the values that were given, which stand where there is none. -/
  answers : ∀ side : Side, a.request.headers.values side.answerHeader =
    match a.answerFor side with
    | some answer => [answer.value]
    | none => request.headers.values side.answerHeader
  /-- Answers are those of negotiations as they are now. -/
  fresh : ∀ side answer, a.answerFor side = some answer → ∃ asked r now draws,
    ((Run.negotiation s asked).answer r now draws).answer = .ok (some answer)

namespace Exchange

-- ---------------------------------------------------------------------------
-- One attempt
-- ---------------------------------------------------------------------------

section
variable {route : Route} {request : Request} {s t u : Session} {a : Attempt}

theorem Forwarded.fresh {answer : Auth.Answer} (h : Forwarded route request s (some answer) u) :
    (s.outcome .proxy request).answer = .ok (some answer) := by
  cases h with
  | asked _ ha => exact ha

/-- Whatever an attempt answers was made for it by a negotiation as the session has it. -/
theorem Prepared.fresh (h : Prepared route request s (.ok a) t) {side : Side} {answer : Auth.Answer}
    (ha : a.answerFor side = some answer) : ∃ asked r now draws,
      ((Run.negotiation s asked).answer r now draws).answer = .ok (some answer) := by
  cases h with
  | bare => cases ha
  | @answered c p target u hc _ hp ht =>
    simp only [Attempt.answerFor, Option.or_eq_some_iff, Option.filter_eq_some_iff] at ha
    rcases ha with ⟨rfl, -⟩ | ⟨-, rfl, -⟩
    · rw [Session.outcome, hp.negotiation_target, negotiation_carried hc] at ht
      exact ⟨.target, _, _, _, ht⟩
    · have hproxy := hp.fresh
      rw [Session.outcome, negotiation_carried hc] at hproxy
      exact ⟨.proxy, _, _, _, hproxy⟩

theorem Prepared.adds (h : Prepared route request s (.ok a) t) : a.Adds request s := by
  have hcarries := h.carries
  obtain ⟨rules, hr, hcookies, hmade⟩ := h.made
  have hvalues {name : Text} (hn : ∀ side : Side, name ≠ side.answerHeader) :
      a.request.headers.values name = (request.withCookies rules a.cookies).headers.values name := by
    rw [hmade, Request.values_answering_ne _ _ hn, Request.values_answering_ne _ _ hn]
  have hcookie2 : HeaderName.cookie ≠ HeaderName.cookie2 := by decide
  refine ⟨hcarries.method, hcarries.url, hcarries.body, ?_, ⟨rules, hr, hcookies, ?_, ?_⟩,
    hcarries.values_answer, fun _ _ => h.fresh⟩
  · intro name hn hn2 hside
    rw [hvalues hside, Request.values_withCookies, if_neg (Ne.symm hn), if_neg (Ne.symm hn2)]
    simp
  · rw [hvalues HeaderName.cookie_ne_answerHeader, Request.values_cookie_withCookies]
  · rw [hvalues HeaderName.cookie2_ne_answerHeader, Request.values_withCookies, if_neg hcookie2,
      if_pos rfl, List.append_nil]

end

-- ---------------------------------------------------------------------------
-- Rounds
-- ---------------------------------------------------------------------------

section
variable {client : Client} {route : Route} {request : Request} {target : Endpoint} {s : Session}

/-- The sessions in which a round and the next one begin: the response was worth answering, and it was read.
-/
def Again (client : Client) (route : Route) (request : Request) (target : Endpoint) (s t : Session) :
    Prop :=
  ∃ r side u bytes, (Run.round client route request target) s = (.ok (r, some side), u) ∧
    r.contents = .ok bytes ∧ t = u.recorded r.reading

/-- A round sends the attempt that the session in which it begins makes of the request, if anything. -/
theorem round_records (client : Client) (route : Route) (request : Request) (target : Endpoint)
    (s : Session) : ∃ h,
      ((Run.round client route request target) s).2.log = s.log ++ h.reverse ∧
      Sends (fun earlier a => earlier = [] ∧ ∃ t, (Run.prepare route request) s = (.ok a, t)) h := by
  have hp := prepared_prepare route request s
  simp only [Run.round, Run.run_bind, Run.send_run, Run.ingest_run]
  rcases hrun : (Run.prepare route request) s with ⟨error | a, t⟩
  · rw [hrun] at hp
    exact ⟨[], by simpa using hp.log, sends_nil⟩
  · rw [hrun] at hp
    have hlog : t.log = s.log := hp.log
    have hsent : Sends (fun earlier b => earlier = [] ∧
        ∃ v, (Except.ok a, t) = ((Except.ok b, v) : Except ExchangeError Attempt × Session))
        [.sent a] := by
      refine sends_nil.cons ?_
      rintro _ ⟨rfl⟩
      exact ⟨rfl, t, rfl⟩
    cases hr : Run.receive (t.attempts + 1) a.request.url (client.peer (t.attempts + 1)) with
    | error error => exact ⟨[.sent a], by simp [hr, hlog], hsent⟩
    | ok r =>
      obtain ⟨u, hu⟩ : ∃ u, u = ((t.sent a).waited client).recorded [.received (t.attempts + 1) r] :=
        ⟨_, rfl⟩
      have hlog' : u.log = s.log ++ [.sent a, .received (t.attempts + 1) r] := by simp [hu, hlog]
      obtain ⟨side, v, hv, hj⟩ := judged_challenger? target route r (u.ingested r)
      refine ⟨.stored u.context.rules (u.jar.ingest u.context.rules u.now r.headers).1 ::
        .received (t.attempts + 1) r :: [.sent a], ?_, (hsent.cons (by simp)).cons (by simp)⟩
      simp only [hr, ← hu, hv, Run.run_pure, Session.log_of_plain hj.plain]
      simp [hlog']

/-- What is known of an attempt when a loop of rounds began in some session: its own round began in a
session that further rounds led to, and that session alone says what was added. -/
def OfRound (client : Client) (route : Route) (request : Request) (target : Endpoint) (s : Session)
    (earlier : List Event) (a : Attempt) : Prop :=
  ∃ u t, Relation.ReflTransGen (Again client route request target) s u ∧
    u.log = s.log ++ earlier.reverse ∧ (Run.prepare route request) u = (.ok a, t) ∧ a.Adds request u

theorem OfRound.first {earlier : List Event} {a : Attempt}
    (h : earlier = [] ∧ ∃ t, (Run.prepare route request) s = (.ok a, t)) :
    OfRound client route request target s earlier a := by
  obtain ⟨rfl, t, hrun⟩ := h
  have hp := prepared_prepare route request s
  rw [hrun] at hp
  exact ⟨s, t, .refl, by simp, hrun, hp.adds⟩

theorem OfRound.behind {t : Session} {h earlier : List Event} {a : Attempt}
    (hagain : Again client route request target s t) (hlog : t.log = s.log ++ h.reverse)
    (ha : OfRound client route request target t earlier a) :
    OfRound client route request target s (earlier ++ h) a := by
  obtain ⟨u, v, hu, hlog', hrun, hadds⟩ := ha
  exact ⟨u, v, .head hagain hu, by rw [hlog', hlog, List.reverse_append, List.append_assoc], hrun, hadds⟩

theorem rounds_records (client : Client) (route : Route) (request : Request) (target : Endpoint) (n : Nat)
    (s : Session) : ∃ h,
      ((Run.rounds client route request target n) s).2.log = s.log ++ h.reverse ∧
      Sends (OfRound client route request target s) h := by
  -- What comes behind the first round is a loop that begins in the session which that round left.
  induction n generalizing s with
  | zero =>
    obtain ⟨h, hlog, hsends⟩ := round_records client route request target s
    refine ⟨h, ?_, hsends.mono fun _ _ => OfRound.first⟩
    rw [← hlog]
    unfold Run.rounds
    rw [Run.run_bind]
    rcases (Run.round client route request target) s with ⟨error | ⟨r, _ | side⟩, t⟩
    · rfl
    · rfl
    · simp only [Run.run_bind, Run.giveUp_run, Run.run_pure]
      exact Session.log_of_plain (Session.plain_gaveUp _ _)
  | succ n ih =>
    obtain ⟨h, hlog, hround⟩ := round_records client route request target s
    have hsends : Sends (OfRound client route request target s) h :=
      hround.mono fun _ _ => OfRound.first
    unfold Run.rounds
    rw [Run.run_bind]
    rcases hr : (Run.round client route request target) s with ⟨error | ⟨r, _ | side⟩, t⟩ <;>
      rw [hr] at hlog
    · exact ⟨h, hlog, hsends⟩
    · exact ⟨h, hlog, hsends⟩
    · have hread : (t.recorded r.reading).log = s.log ++ (r.reading ++ h).reverse := by
        rw [Session.log_recorded, List.reverse_append, Response.reverse_reading, ← List.append_assoc,
          ← hlog]
      have hsends' : Sends (OfRound client route request target s) (r.reading ++ h) :=
        hsends.append fun _ => Response.isOfBody_of_mem_reading
      simp only [Run.run_bind, Run.readBody_run]
      cases hb : r.contents with
      | error error => exact ⟨_, hread, hsends'⟩
      | ok bytes =>
        obtain ⟨h', hlog', hrest⟩ := ih (t.recorded r.reading)
        have hagain : Again client route request target s (t.recorded r.reading) :=
          ⟨r, side, t, bytes, hr, hb, rfl⟩
        refine ⟨h' ++ (r.reading ++ h), ?_,
          hsends'.behind (hrest.mono fun _ _ ha => ha.behind hagain hread)⟩
        simp only [hlog', hread, List.reverse_append, List.append_assoc]

end

-- ---------------------------------------------------------------------------
-- Hops
-- ---------------------------------------------------------------------------

def entry (s : Session) (route : Route) (request : Request) (target : Endpoint) : Session :=
  (s.recorded [.hop route request.url]).entered route target

/-- Every attempt of a hop is the request as it was given with what its own round adds to it. The round
begins in a session that the rounds before led to, whose log is what was recorded when the attempt is
sent. -/
theorem hop_attempts (client : Client) (route : Route) (request : Request) (s : Session) :
    Sends (fun earlier a => ∃ target u t, Endpoint.ofUrl? request.url = some target ∧
        Relation.ReflTransGen (Again client route request target.normalized)
          (entry s route request target) u ∧
        u.log = s.log ++ earlier.reverse ∧ (Run.prepare route request) u = (.ok a, t) ∧ a.Adds request u)
      (history (Run.hop client route request) s) := by
  cases ht : Endpoint.ofUrl? request.url with
  | none =>
    have hrun : ((Run.hop client route request) s).2 = s.recorded [.hop route request.url] := by
      simp only [Run.hop, Run.run_bind, Run.record_run, ht, Run.run_throw]
    have hh : history (Run.hop client route request) s = [.hop route request.url] :=
      history_eq (by rw [hrun]; rfl)
    rw [hh]
    exact sends_nil.cons (by simp)
  | some target =>
    obtain ⟨h, hlog, hsends⟩ := rounds_records client route request target.normalized
      (entry s route request target).context.config.furtherRounds (entry s route request target)
    have hrun : (Run.hop client route request) s =
        (Run.rounds client route request target.normalized
          (entry s route request target).context.config.furtherRounds) (entry s route request target) := by
      simp only [Run.hop, Run.run_bind, Run.record_run, ht, Run.changeContext_run, Run.run_get]
      rfl
    have hentry : (entry s route request target).log = s.log ++ [.hop route request.url] := rfl
    have hh : history (Run.hop client route request) s = h ++ [.hop route request.url] := by
      refine history_eq ?_
      rw [hrun, hlog, hentry]
      simp
    rw [hh]
    refine Sends.behind (sends_nil.cons (by simp)) (hsends.mono ?_)
    rintro earlier a ⟨u, t, hu, hlog', hprepare, hadds⟩
    refine ⟨target, u, t, rfl, hu, ?_, hprepare, hadds⟩
    rw [hlog', hentry]
    simp

end Exchange

end HttpSession
