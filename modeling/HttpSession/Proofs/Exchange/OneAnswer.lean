import HttpSession.Proofs.Auth.RepeatedChallenges
import HttpSession.Proofs.Exchange.Cookies
import HttpSession.Proofs.Exchange.Isolation
import HttpSession.Proofs.Exchange.AuthFaults

/-!
# Repeated challenges are answered once

A peer that sends the same challenge whatever it is sent gets one answer. In the first round there is
none, as no negotiation has begun; afterwards the side that asks has chosen from the challenges, and the
other side is unchanged. In the second round the side that asks is answered, unless it is a proxy that
does not see the headers; in either case it gives up when the challenges come again.

Main statement: a hop ends with the challenge after two attempts at most, of which one carries an answer
at most (`hop_answers_once`).
-/

namespace HttpSession

open Auth (Side Answer Negotiation Challenge)

def Attempt.given (a : Attempt) : Side → Option Answer
  | .target => a.targetAnswer
  | .proxy => a.proxyAnswer

def Attempt.answers (a : Attempt) : List Answer := a.proxyAnswer.toList ++ a.targetAnswer.toList

def answersIn (h : List Event) : List Answer :=
  h.flatMap fun event =>
    match event with
    | .sent a => a.answers
    | _ => []

def roundRecord (rules : Option Cookie.Rules) (cookies : List Cookie) (n : Nat) (r : Response)
    (a : Attempt) : List Event :=
  [.stored rules cookies, .received n r, .sent a]

namespace Exchange

theorem answersIn_append (events h : List Event) :
    answersIn (events ++ h) = answersIn events ++ answersIn h :=
  List.flatMap_append

theorem answersIn_round (rules : Option Cookie.Rules) (cookies : List Cookie) (n : Nat) (r : Response)
    (a : Attempt) : answersIn (roundRecord rules cookies n r a) = a.answers := by
  simp [answersIn, roundRecord]

theorem answersIn_of_isOfBody {events : List Event} (he : ∀ event ∈ events, event.isOfBody = true) :
    answersIn events = [] := by
  refine List.flatMap_eq_nil_iff.mpr fun event hm => ?_
  have hbody := he event hm
  cases event with
  | sent => cases hbody
  | _ => rfl

theorem length_answers_le {a : Attempt} {side : Side} (h : ∀ other, other ≠ side → a.given other = none) :
    a.answers.length ≤ 1 := by
  unfold Attempt.answers
  cases side with
  | target =>
    have hp : a.proxyAnswer = none := h .proxy (by decide)
    rw [hp]
    cases a.targetAnswer <;> simp
  | proxy =>
    have ht : a.targetAnswer = none := h .target (by decide)
    rw [ht]
    cases a.proxyAnswer <;> simp

theorem answers_eq_nil {a : Attempt} (h : ∀ side, a.given side = none) : a.answers = [] := by
  have hp : a.proxyAnswer = none := h .proxy
  have ht : a.targetAnswer = none := h .target
  rw [Attempt.answers, hp, ht]
  rfl

-- ---------------------------------------------------------------------------
-- Attempts
-- ---------------------------------------------------------------------------

section
variable {route : Route} {request : Request} {s t u : Session} {a : Attempt} {side : Side}

/-- What a side is given comes from its negotiation, which is asked at most once. -/
theorem Prepared.given (h : Prepared route request s (.ok a) t) (side : Side) :
    (Run.negotiation t side = Run.negotiation s side ∧ a.given side = none) ∨
      ∃ request now draws,
        Run.negotiation t side = ((Run.negotiation s side).answer request now draws).negotiation ∧
        ((Run.negotiation s side).answer request now draws).answer = .ok (a.given side) := by
  cases h with
  | bare hc =>
    refine .inl ⟨negotiation_carried hc side, ?_⟩
    cases side <;> rfl
  | @answered c p _ u hc _ hp ht =>
    cases side with
    | target =>
      have hu : Run.negotiation u .target = Run.negotiation s .target :=
        hp.negotiation_target.trans (negotiation_carried hc .target)
      rw [Session.outcome, hu] at ht
      refine .inr ⟨c.request.answering p, u.now, u.draws, ?_, ht⟩
      rw [Session.negotiation_answered, Session.outcome, hu]
    | proxy =>
      rw [Session.negotiation_answered_ne _ _ (by decide)]
      cases hp with
      | asked _ hanswer =>
        rw [Session.outcome, negotiation_carried hc] at hanswer
        refine .inr ⟨c.request, (s.carried c).now, (s.carried c).draws, ?_, hanswer⟩
        rw [Session.negotiation_answered, Session.outcome, negotiation_carried hc]
      | passed => exact .inl ⟨negotiation_carried hc .proxy, rfl⟩

theorem Prepared.given_of_idle (h : Prepared route request s (.ok a) t)
    (hn : Run.negotiation s side = {}) : Run.negotiation t side = {} ∧ a.given side = none := by
  rcases h.given side with ⟨hsame, hgiven⟩ | ⟨request, now, draws, hanswered, hgiven⟩
  · exact ⟨hsame.trans hn, hgiven⟩
  · rw [hn] at hanswered hgiven
    exact ⟨hanswered, (Except.ok.inj hgiven).symm⟩

/-- Where the policy is known, cookies are no reason to refuse an attempt. -/
theorem Prepared.unrefused {name : Text} (hp : s.policy?.isSome) :
    ¬ Prepared route request s (.error (.unsupportedPolicy name)) t := by
  obtain ⟨policy, hpolicy⟩ := Option.isSome_iff_exists.mp hp
  intro h
  cases h with
  | refused hc =>
    unfold Jar.attach Jar.rulesFor at hc
    split at hc
    · cases hc
    · split at hc
      · rw [Session.policy?] at hpolicy
        simp only [hpolicy] at hc
        cases hc
      · cases hc

end

-- ---------------------------------------------------------------------------
-- Rounds
-- ---------------------------------------------------------------------------

/-- A peer repeats one challenge of a side whatever it is sent. The reply can be read, and nothing in it
says that the negotiation goes on. -/
structure Insists (client : Client) (side : Side) (h : Headers)
    (content : Option (Except BodyFailure Bytes)) : Prop where
  replies : ∀ n, client.peer n = .message side.status h content
  readable : ∀ reason, content ≠ some (.error reason)
  final : ∀ value ∈ h.values side.challengeHeader, ∀ text ∈ HeaderValue.text? value,
    ∀ c ∈ (Challenge.read side text).toOption, c.IsFinal

section
variable {client : Client} {side : Side} {h : Headers} {content : Option (Except BodyFailure Bytes)}
  {route : Route} {request : Request} {target : Endpoint} {s t : Session}

def replyTo (side : Side) (h : Headers) (content : Option (Except BodyFailure Bytes)) (number : Nat) :
    Response :=
  ⟨side.status, h, content.map fun content => ⟨number, content⟩⟩

theorem Insists.contents (hi : Insists client side h content) (number : Nat) :
    ∃ bytes, (replyTo side h content number).contents = .ok bytes := by
  cases content with
  | none => exact ⟨[], rfl⟩
  | some read =>
    cases read with
    | error reason => exact absurd rfl (hi.readable reason)
    | ok bytes => exact ⟨bytes, rfl⟩

theorem Insists.isFinal (hi : Insists client side h content) {strategy : Auth.Strategy}
    (hs : strategy.side = side) {cs : List Challenge} (hcs : strategy.challenges h = .ok cs) :
    ∀ c ∈ cs, c.IsFinal := by
  intro c hc
  obtain ⟨value, hv, text, ht, hr⟩ := Auth.Strategy.mem_challenges hcs hc
  rw [hs] at hv hr
  exact hi.final value hv text ht c (by rw [hr]; rfl)

structure Rounded (client : Client) (route : Route) (request : Request) (target : Endpoint)
    (r : Response) (s : Session) (a : Attempt) (asked : Option Side) (t : Session) : Prop where
  run : (Run.round client route request target) s = (.ok (r, asked), t)
  attempts : t.attempts = s.attempts + 1
  fixed : t.fixed = s.fixed
  log : ∃ rules cookies, t.log = s.log ++ (roundRecord rules cookies (s.attempts + 1) r a).reverse

/-- A round ends with the reply, where there is an attempt. -/
theorem round_runs (route : Route) (request : Request) (target : Endpoint)
    (hi : Insists client side h content) (hpolicy : s.policy?.isSome)
    (hready : ∀ side, (Run.negotiation s side).Ready)
    (hidle : s.context.config.authenticates = false → ∀ side, Run.negotiation s side = {}) :
    ∃ a u v asked t, Prepared route request s (.ok a) u ∧ v.fixed = s.fixed ∧
      (∀ side, Run.negotiation v side = Run.negotiation u side) ∧
      Judged target route (replyTo side h content (s.attempts + 1)) v asked t ∧
      Rounded client route request target (replyTo side h content (s.attempts + 1)) s a asked t := by
  have hp := prepared_prepare route request s
  rcases hrun : (Run.prepare route request) s with ⟨error | a, u⟩
  · rw [hrun] at hp
    obtain ⟨name, hname⟩ | ⟨⟨_, ha, -⟩, -⟩ := hp.ready (hready .target) (fun _ => hready .proxy) hidle
    · obtain rfl := Except.error.inj hname
      exact absurd hp (Prepared.unrefused hpolicy)
    · cases ha
  · rw [hrun] at hp
    have hreceive : Run.receive (u.attempts + 1) a.request.url (client.peer (u.attempts + 1)) =
        .ok (replyTo side h content (s.attempts + 1)) := by
      rw [hi.replies, hp.attempts]
      rfl
    obtain ⟨v, hv⟩ : ∃ v, v = (((u.sent a).waited client).recorded
        [.received (u.attempts + 1) (replyTo side h content (s.attempts + 1))]).ingested
          (replyTo side h content (s.attempts + 1)) := ⟨_, rfl⟩
    have hlog : ∃ rules cookies, v.log = s.log ++ (roundRecord rules cookies (s.attempts + 1)
        (replyTo side h content (s.attempts + 1)) a).reverse := by
      rw [hv, Session.log_ingested, Session.log_recorded, Session.log_waited, Session.log_sent, hp.log,
        hp.attempts, List.append_assoc, List.append_assoc]
      exact ⟨_, _, rfl⟩
    obtain ⟨asked, t, hchallenger, hj⟩ :=
      judged_challenger? target route (replyTo side h content (s.attempts + 1)) v
    refine ⟨a, u, v, asked, t, hp, ?_, ?_, hj, ?_, ?_, ?_, ?_⟩
    · simp [hv, hp.fixed]
    · simp [hv]
    · simp only [Run.round, Run.run_bind, hrun, Run.send_run, hreceive, Run.ingest_run, ← hv, hchallenger,
        Run.run_pure]
    · rw [Session.attempts_of_plain hj.plain]
      simpa [hv] using hp.attempts
    · rw [hj.fixed]
      simp [hv, hp.fixed]
    · rw [Session.log_of_plain hj.plain]
      exact hlog

theorem challenges_of_fixed (hf : t.fixed = s.fixed) (side : Side) (h : Headers) :
    (Run.strategy t side).challenges h = (Run.strategy s side).challenges h := by
  have hside : (Run.strategy t side).side = (Run.strategy s side).side :=
    congrArg (·.side) (Session.strategy_of_fixed hf side)
  rw [Auth.Strategy.challenges, Auth.Strategy.challenges, hside]

structure Usual (s : Session) : Prop where
  policy : s.policy?.isSome
  side : ∀ side, (Run.strategy s side).side = side
  schemes : ∀ side, ∃ limits, (Run.strategy s side).schemes = (Auth.Schemes.known limits : Auth.Registry)

theorem Usual.of_fixed (hs : Usual s) (hf : t.fixed = s.fixed) : Usual t := by
  have hstrategy := Session.strategy_of_fixed hf
  refine ⟨?_, fun side => ?_, fun side => ?_⟩
  · rw [Session.policy?_of_fixed hf]
    exact hs.policy
  · exact (congrArg (·.side) (hstrategy side)).trans (hs.side side)
  · obtain ⟨limits, hl⟩ := hs.schemes side
    exact ⟨limits, (congrArg (·.schemes) (hstrategy side)).trans hl⟩

/-- One side has chosen from the challenges it was sent, and the other negotiation has not begun. -/
structure HasChosen (side : Side) (h : Headers) (s : Session) : Prop where
  authenticates : s.context.config.authenticates = true
  chosen : ∃ cs, (Run.strategy s side).challenges h = .ok cs ∧ (Run.negotiation s side).Chosen cs
  others : ∀ other, other ≠ side → Run.negotiation s other = {}

theorem HasChosen.recorded (hs : HasChosen side h s) (events : List Event) :
    HasChosen side h (s.recorded events) := by
  refine ⟨hs.authenticates, ?_, fun other ho => ?_⟩
  · obtain ⟨cs, hcs, hchosen⟩ := hs.chosen
    rw [Session.negotiation_recorded]
    exact ⟨cs, hcs, hchosen⟩
  · rw [Session.negotiation_recorded]
    exact hs.others other ho

/-- Where no negotiation has begun, an attempt carries no answer, and the side that asks has chosen from the
challenges afterwards. -/
theorem first_round (route : Route) (request : Request) (target : Endpoint)
    (hi : Insists client side h content) (hs : Usual s)
    (hidle : ∀ side, Run.negotiation s side = {}) :
    ∃ a asked t,
      Rounded client route request target (replyTo side h content (s.attempts + 1)) s a asked t ∧
        a.answers = [] ∧ (asked.isSome → HasChosen side h t) := by
  have hready : ∀ side, (Run.negotiation s side).Ready := by
    intro side
    rw [hidle]
    exact .inl Negotiation.settled_empty
  obtain ⟨a, u, v, asked, t, hp, hf, hv, hj, hrounded⟩ :=
    round_runs route request target hi hs.policy hready fun _ => hidle
  refine ⟨a, asked, t, hrounded, answers_eq_nil fun side => (hp.given_of_idle (hidle side)).2, ?_⟩
  have hnone (side : Side) : Run.negotiation v side = {} :=
    (hv side).trans (hp.given_of_idle (hidle side)).1
  intro hsome
  obtain ⟨other, rfl⟩ := Option.isSome_iff_exists.mp hsome
  obtain ⟨hr, w, host, hw, hagain, hreact⟩ := hj.negotiation_of_asked
  obtain rfl : side = other := status_injective hr
  rw [hnone] at hagain hreact
  have hws : w.fixed = s.fixed := hw.trans hf
  obtain ⟨limits, hl⟩ := (hs.of_fixed hws).schemes side
  obtain ⟨cs, hcs, hchosen⟩ := Negotiation.chosen_of_react hl hagain
  refine ⟨?_, ⟨cs, ?_, ?_⟩, ?_⟩
  · rw [Session.config_of_fixed hj.fixed]
    exact hj.authenticates
  · rw [challenges_of_fixed (hrounded.fixed.trans hws.symm)]
    exact hcs
  · rw [hreact]
    exact hchosen
  · intro other ho
    have hne : (replyTo side h content (s.attempts + 1)).status ≠ other.status :=
      fun heq => ho (status_injective heq).symm
    rw [hj.negotiation_of_ne hne fun _ => hnone other, hnone, Negotiation.hear, if_neg hne]

/-- Where one side has chosen, an attempt carries its answer alone, and the side gives up afterwards. -/
theorem second_round (route : Route) (request : Request) (target : Endpoint)
    (hi : Insists client side h content) (hs : Usual s) (hside : HasChosen side h s) :
    ∃ a t,
      Rounded client route request target (replyTo side h content (s.attempts + 1)) s a none t ∧
        a.answers.length ≤ 1 := by
  obtain ⟨cs, hcs, hchosen⟩ := hside.chosen
  have hready : ∀ other, (Run.negotiation s other).Ready := by
    intro other
    by_cases ho : other = side
    · rw [ho]
      exact .inr hchosen.pending
    · rw [hside.others other ho]
      exact .inl Negotiation.settled_empty
  obtain ⟨a, u, v, asked, t, hp, hf, hv, hj, hrounded⟩ :=
    round_runs route request target hi hs.policy hready
    fun hoff => by rw [hside.authenticates] at hoff; cases hoff
  have hanswers : a.answers.length ≤ 1 :=
    length_answers_le fun other ho => (hp.given_of_idle (hside.others other ho)).2
  cases asked with
  | none => exact ⟨a, t, hrounded, hanswers⟩
  | some other =>
    obtain ⟨hr, w, host, hw, hagain, -⟩ := hj.negotiation_of_asked
    obtain rfl : side = other := status_injective hr
    have hcs' : (Run.strategy w side).challenges h = .ok cs := by
      rw [challenges_of_fixed (hw.trans hf)]
      exact hcs
    obtain ⟨hunasked, hasked⟩ := hchosen.gives_up (w.env side host) hcs'
      (hi.isFinal (hs.side side) hcs)
    rw [hv] at hagain
    rcases hp.given side with ⟨hsame, -⟩ | ⟨request, now, draws, hanswered, -⟩
    · rw [hsame] at hagain
      cases hunasked.symm.trans hagain
    · rw [hanswered] at hagain
      cases (hasked request now draws).symm.trans hagain

-- ---------------------------------------------------------------------------
-- Hops
-- ---------------------------------------------------------------------------

/-- The outcome of an activity whose peer repeats a challenge, and what it recorded. -/
structure AnswersOnce (side : Side) (h : Headers) (content : Option (Except BodyFailure Bytes)) (s : Session)
    (outcome : Except ExchangeError Response × Session) (events : List Event) : Prop where
  /-- It ends with the reply to its last attempt. -/
  ends : outcome.1 = .ok (replyTo side h content outcome.2.attempts)
  calls : outcome.2.attempts ≤ s.attempts + 2
  once : (answersIn events).length ≤ 1

section
variable {r : Response} {a : Attempt} {other : Side}

theorem Rounded.rounds_settled (hr : Rounded client route request target r s a none t) (n : Nat) :
    (Run.rounds client route request target n) s = (.ok r, t) := by
  cases n <;> simp only [Run.rounds, Run.run_bind, hr.run, Run.run_pure]

theorem Rounded.rounds_spent (hr : Rounded client route request target r s a (some other) t) :
    (Run.rounds client route request target 0) s = (.ok r, t.gaveUp other) := by
  simp only [Run.rounds, Run.run_bind, hr.run, Run.giveUp_run, Run.run_pure]

theorem Rounded.rounds_again (hr : Rounded client route request target r s a (some other) t)
    {bytes : Bytes} (hb : r.contents = .ok bytes) (n : Nat) :
    (Run.rounds client route request target (n + 1)) s =
      (Run.rounds client route request target n) (t.recorded r.reading) := by
  simp only [Run.rounds, Run.run_bind, hr.run, Run.readBody_run, hb]

/-- A round is all there is. -/
theorem Rounded.answers_once {asked : Option Side} {u : Session}
    (hr : Rounded client route request target (replyTo side h content (s.attempts + 1)) s a asked t)
    (ha : a.answers.length ≤ 1) (hu : u.plain = t.plain) :
    ∃ events, u.log = s.log ++ events.reverse ∧
      AnswersOnce side h content s (.ok (replyTo side h content (s.attempts + 1)), u) events := by
  obtain ⟨rules, cookies, hlog⟩ := hr.log
  have hattempts : u.attempts = s.attempts + 1 := (Session.attempts_of_plain hu).trans hr.attempts
  refine ⟨roundRecord rules cookies (s.attempts + 1) (replyTo side h content (s.attempts + 1)) a,
    (Session.log_of_plain hu).trans hlog, ?_, ?_, ?_⟩
  · rw [hattempts]
  · simp only [hattempts]
    omega
  · rw [answersIn_round]
    exact ha

/-- A round without an answer stands before the rest, and the reply is read in between. -/
theorem Rounded.answers_once_again {asked asked' : Option Side} {b : Attempt} {u : Session}
    (hr : Rounded client route request target r s a asked t) (ha : a.answers = [])
    (hr' : Rounded client route request target (replyTo side h content (t.attempts + 1))
      (t.recorded r.reading) b asked' u) (hb : b.answers.length ≤ 1) :
    ∃ events, u.log = s.log ++ events.reverse ∧
      AnswersOnce side h content s (.ok (replyTo side h content (t.attempts + 1)), u) events := by
  obtain ⟨rules, cookies, hlog⟩ := hr.log
  obtain ⟨rules', cookies', hlog'⟩ := hr'.log
  have hattempts : u.attempts = t.attempts + 1 := hr'.attempts
  refine ⟨roundRecord rules' cookies' (t.attempts + 1) (replyTo side h content (t.attempts + 1)) b ++
    (r.reading ++ roundRecord rules cookies (s.attempts + 1) r a), ?_, ?_, ?_, ?_⟩
  · rw [hlog', Session.log_recorded, hlog]
    simp
  · rw [hattempts]
  · simp only [hattempts, hr.attempts]
    omega
  · have hreading : answersIn r.reading = [] :=
      answersIn_of_isOfBody fun _ => Response.isOfBody_of_mem_reading
    rw [answersIn_append, answersIn_append, answersIn_round, answersIn_round, hreading, ha,
      List.append_nil, List.append_nil]
    exact hb

end

theorem rounds_answer_once (route : Route) (request : Request) (target : Endpoint)
    (hi : Insists client side h content) (hs : Usual s)
    (hidle : ∀ side, Run.negotiation s side = {}) (n : Nat) :
    ∃ events,
      ((Run.rounds client route request target n) s).2.log = s.log ++ events.reverse ∧
        AnswersOnce side h content s ((Run.rounds client route request target n) s) events := by
  obtain ⟨a, asked, t, hround, hnil, hsome⟩ := first_round route request target hi hs hidle
  have hlength : a.answers.length ≤ 1 := by simp [hnil]
  cases asked with
  | none =>
    rw [hround.rounds_settled]
    exact hround.answers_once hlength rfl
  | some other =>
    cases n with
    | zero =>
      rw [hround.rounds_spent]
      exact hround.answers_once hlength (t.plain_gaveUp other)
    | succ n =>
      obtain ⟨bytes, hbytes⟩ := hi.contents (s.attempts + 1)
      have hchosen := (hsome rfl).recorded (replyTo side h content (s.attempts + 1)).reading
      have husual : Usual (t.recorded (replyTo side h content (s.attempts + 1)).reading) :=
        hs.of_fixed ((Session.fixed_recorded _ _).trans hround.fixed)
      obtain ⟨b, u, hagain, hanswers⟩ := second_round route request target hi husual hchosen
      rw [hround.rounds_again hbytes, hagain.rounds_settled]
      exact hround.answers_once_again hnil hagain hanswers

end

/-- A hop that begins with nothing held, and whose peer repeats a challenge, ends with that challenge after
two attempts at most. One answer at most is sent, so no scheme and credentials are sent twice. -/
theorem hop_answers_once (client : Client) (route : Route) (request : Request) (s : Session) (side : Side)
    (h : Headers) (content : Option (Except BodyFailure Bytes)) (hi : Insists client side h content)
    (hs : s.IsFresh) (hpolicy : s.policy?.isSome) (ht : (Endpoint.ofUrl? request.url).isSome) :
    AnswersOnce side h content s ((Run.hop client route request) s)
      (history (Run.hop client route request) s) := by
  obtain ⟨target, htarget⟩ := Option.isSome_iff_exists.mp ht
  obtain ⟨u, hu⟩ : ∃ u, u = (s.recorded [.hop route request.url]).entered route target := ⟨_, rfl⟩
  have hfixed : u.fixed = s.fixed := by simp [hu]
  have husual : Usual u := Usual.of_fixed ⟨hpolicy, hs.side, hs.schemes⟩ hfixed
  have hidle : ∀ side, Run.negotiation u side = {} := by
    intro side
    have hcontext := hs.context
    rw [hu, Session.negotiation_entered, Session.negotiation_recorded]
    cases side <;> simp only [Run.negotiation] <;> rw [hcontext]
  have hrun : (Run.hop client route request) s =
      (Run.rounds client route request target.normalized s.context.config.furtherRounds) u := by
    simp only [Run.hop, Run.run_bind, Run.record_run, htarget, Run.changeContext_run, Run.run_get, hu]
    rfl
  obtain ⟨events, hlog, hends, hcalls, honce⟩ := rounds_answer_once route request target.normalized
    hi husual hidle s.context.config.furtherRounds
  have hlog' : ((Run.hop client route request) s).2.log =
      s.log ++ (events ++ [Event.hop route request.url]).reverse := by
    rw [hrun, hlog, hu]
    simp [Session.entered]
  rw [history_eq hlog', hrun]
  refine ⟨hends, ?_, ?_⟩
  · rw [hu] at hcalls ⊢
    exact hcalls
  · have hhop : answersIn [.hop route request.url] = [] := rfl
    rw [answersIn_append, hhop, List.append_nil]
    exact honce

def everyScheme : Headers :=
  [(HeaderName.wwwAuthenticate, Utf8.encode "NTLM"),
    (HeaderName.wwwAuthenticate, Utf8.encode "Digest realm=\"r\", nonce=\"n\", stale=false"),
    (HeaderName.wwwAuthenticate, Utf8.encode "Basic realm=\"r\"")]

def rejectingPeer : Client where
  peer _ := .response 401 everyScheme none

theorem insists_rejectingPeer : Insists rejectingPeer .target everyScheme none :=
  ⟨fun _ => rfl, nofun, by decide +kernel⟩

theorem hop_answers_once_rejectingPeer :
    Insists rejectingPeer .target everyScheme none ∧ passwordSession.IsFresh ∧
      passwordSession.policy?.isSome ∧
      (Endpoint.ofUrl? (Request.to "http" "a").url).isSome ∧
      AnswersOnce .target everyScheme none passwordSession
        ((Run.hop rejectingPeer (.direct ⟨"http", "a", some 80⟩) (.to "http" "a")) passwordSession)
        (history (Run.hop rejectingPeer (.direct ⟨"http", "a", some 80⟩) (.to "http" "a")) passwordSession) :=
  ⟨insists_rejectingPeer, Session.isFresh_opened _ _, rfl, rfl,
    hop_answers_once _ _ _ _ _ _ _ insists_rejectingPeer (Session.isFresh_opened _ _) rfl rfl⟩

end Exchange

end HttpSession
