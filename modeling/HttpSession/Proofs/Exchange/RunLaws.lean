import HttpSession.Exchange.Hops
import HttpSession.Exchange.Tunnel

/-!
# Laws of activities

Every activity as a function of the session it runs in: what it ends with, and the session it leaves.
The effects are named for what happened (`answered`, `heard`, `reacted`, `sent`), and what they leave
alone is said once: negotiating changes nothing but the negotiations, what was learned about hosts, and
the draws (`plain`), and nothing in an exchange changes how it is configured (`fixed`).
-/

namespace HttpSession

-- ---------------------------------------------------------------------------
-- Sequencing
-- ---------------------------------------------------------------------------

section
variable {ε δ α : Type} (f : ε → δ)

@[simp] theorem mapError_error (error : ε) :
    (Except.error error : Except ε α).mapError f = .error (f error) := rfl

@[simp] theorem mapError_ok (a : α) : (Except.ok a : Except ε α).mapError f = .ok a := rfl

end

namespace Run

variable {α β : Type}

theorem run_bind (run : Run α) (f : α → Run β) (s : Session) :
    (run >>= f) s =
      match run s with
      | (.ok a, t) => f a t
      | (.error error, t) => (.error error, t) := by
  show ExceptT.bind run f s = _
  simp only [ExceptT.bind, ExceptT.mk, bind, StateT.bind, ExceptT.bindCont]
  cases run s with
  | mk result t => cases result <;> rfl

@[simp] theorem run_pure (a : α) (s : Session) : (pure a : Run α) s = (.ok a, s) := rfl

@[simp] theorem run_throw (error : ExchangeError) (s : Session) :
    (throw error : Run α) s = (.error error, s) := rfl

@[simp] theorem run_get (s : Session) : (get : Run Session) s = (.ok s, s) := rfl

@[simp] theorem run_set (s t : Session) : (set t : Run PUnit) s = (.ok ⟨⟩, t) := rfl

@[simp] theorem run_modify (f : Session → Session) (s : Session) :
    (modify f : Run PUnit) s = (.ok ⟨⟩, f s) := rfl

@[simp] theorem run_liftExcept (result : Except ExchangeError α) (s : Session) :
    (liftExcept result : Run α) s = (result, s) := by
  cases result <;> rfl

theorem run_tryCatch (run : Run α) (handle : ExchangeError → Run α) (s : Session) :
    (tryCatch run handle) s =
      match run s with
      | (.ok a, t) => (.ok a, t)
      | (.error error, t) => handle error t := by
  show ExceptT.tryCatch run handle s = _
  simp only [ExceptT.tryCatch, ExceptT.mk, bind, StateT.bind]
  cases run s with
  | mk result t => cases result <;> rfl

end Run

-- ---------------------------------------------------------------------------
-- Responses and redirects
-- ---------------------------------------------------------------------------

def Event.isOfBody : Event → Bool
  | .bodyRead _ | .bodyDropped _ => true
  | _ => false

namespace Response

def reading (r : Response) : List Event := r.body.toList.map fun body => .bodyRead body.reply

def dropping (r : Response) : List Event := r.body.toList.map fun body => .bodyDropped body.reply

def releasing (r : Response) (error : ExchangeError) : List Event :=
  if error.isProtocol then r.reading else r.dropping

theorem isOfBody_of_mem_reading {r : Response} {event : Event} (h : event ∈ r.reading) :
    event.isOfBody = true := by
  obtain ⟨body, -, rfl⟩ := List.mem_map.mp h
  rfl

theorem isOfBody_of_mem_dropping {r : Response} {event : Event} (h : event ∈ r.dropping) :
    event.isOfBody = true := by
  obtain ⟨body, -, rfl⟩ := List.mem_map.mp h
  rfl

theorem isOfBody_of_mem_releasing {r : Response} {error : ExchangeError} {event : Event}
    (h : event ∈ r.releasing error) : event.isOfBody = true := by
  unfold releasing at h
  split at h
  · exact isOfBody_of_mem_reading h
  · exact isOfBody_of_mem_dropping h

@[simp] theorem reverse_reading (r : Response) : r.reading.reverse = r.reading := by
  unfold reading
  cases r.body <;> rfl

@[simp] theorem reverse_dropping (r : Response) : r.dropping.reverse = r.dropping := by
  unfold dropping
  cases r.body <;> rfl

@[simp] theorem reverse_releasing (r : Response) (error : ExchangeError) :
    (r.releasing error).reverse = r.releasing error := by
  unfold releasing
  split <;> simp

def contents (r : Response) : Except ExchangeError Bytes :=
  match r.body with
  | none => .ok []
  | some body => body.content.mapError BodyFailure.error

theorem contents_error {r : Response} {error : ExchangeError} (h : r.contents = .error error) :
    error.isProtocol = false := by
  unfold contents at h
  split at h
  · cases h
  · rename_i body _
    cases hc : body.content with
    | error failure =>
      rw [hc] at h
      exact Except.error.inj h ▸ failure.isProtocol_error
    | ok bytes =>
      rw [hc] at h
      cases h

end Response

def Client.follows (client : Client) (c : Config) (current : Request) (response : Response) : Bool :=
  c.followsRedirects && Redirect.isRedirected client.lax current response.status response.headers

-- ---------------------------------------------------------------------------
-- Effects on a session
-- ---------------------------------------------------------------------------

namespace Session

open Auth (Side Negotiation)

def recorded (s : Session) (events : List Event) : Session := { s with log := s.log ++ events }

def entered (s : Session) (route : Route) (target : Endpoint) : Session :=
  { s with context := { s.context with targetHost := some target, route := some route } }

def withNegotiation (s : Session) (side : Side) (n : Negotiation) : Session :=
  match side with
  | .target => { s with context := { s.context with target := n } }
  | .proxy => { s with context := { s.context with proxy := n } }

def noted (s : Session) (side : Side) (host : Endpoint) (notices : List Auth.Notice) : Session :=
  match side with
  | .target => { s with target := s.target.noteAll host notices }
  | .proxy => { s with proxy := s.proxy.noteAll host notices }

def outcome (s : Session) (side : Side) (request : Request) : Negotiation.Outcome :=
  (Run.negotiation s side).answer request s.now s.draws

def answered (s : Session) (side : Side) (request : Request) : Session :=
  { s with draws := (s.outcome side request).draws }.withNegotiation side
    (s.outcome side request).negotiation

def heard (s : Session) (side : Side) (host : Endpoint) (status : Nat) : Session :=
  let n := (Run.negotiation s side).hear side status
  (s.withNegotiation side n.2.1).noted side host n.2.2

def env (s : Session) (side : Side) (host : Endpoint) : Negotiation.Env :=
  ⟨Run.strategy s side, host, Run.preferred s.context.config side⟩

def reaction (s : Session) (side : Side) (host : Endpoint) (response : Response) :
    Bool × Negotiation × List Auth.Notice :=
  (Run.negotiation s side).react (s.env side host) response.headers

def reacted (s : Session) (side : Side) (host : Endpoint) (response : Response) : Session :=
  (s.withNegotiation side (s.reaction side host response).2.1).noted side host
    (s.reaction side host response).2.2

def gaveUp (s : Session) (side : Side) : Session :=
  s.withNegotiation side { Run.negotiation s side with phase := .failure }

def sent (s : Session) (attempt : Attempt) : Session :=
  { s.recorded [.sent attempt] with attempts := s.attempts + 1 }

def waited (s : Session) (client : Client) : Session :=
  { s with now := client.clock s.attempts s.now }

def ingested (s : Session) (response : Response) : Session :=
  let stored := s.jar.ingest s.context.rules s.now response.headers
  { s with jar := stored.2 }.recorded [.stored s.context.rules stored.1]

def left (s : Session) (route : Route) (target : Endpoint) : Session :=
  if route.target.sameAs target then s
  else
    { s with
      context :=
        { s.context with
          target := {}
          proxy := if s.context.proxy.isConnectionBased then {} else s.context.proxy } }

section
variable (s : Session) (side : Side) (n : Negotiation) (host : Endpoint) (notices : List Auth.Notice)

@[simp] theorem negotiation_withNegotiation :
    Run.negotiation (s.withNegotiation side n) side = n := by
  cases side <;> rfl

@[simp] theorem negotiation_noted (other : Side) :
    Run.negotiation (s.noted side host notices) other = Run.negotiation s other := by
  cases side <;> cases other <;> rfl

theorem negotiation_withNegotiation_ne {other : Side} (h : other ≠ side) :
    Run.negotiation (s.withNegotiation side n) other = Run.negotiation s other := by
  cases side <;> cases other <;> first | rfl | exact absurd rfl h

end

/-! What becomes of the negotiations -/

section
variable (s : Session) {side other : Side}

@[simp] theorem negotiation_recorded (events : List Event) :
    Run.negotiation (s.recorded events) side = Run.negotiation s side := by
  cases side <;> rfl

@[simp] theorem negotiation_entered (route : Route) (target : Endpoint) :
    Run.negotiation (s.entered route target) side = Run.negotiation s side := by
  cases side <;> rfl

@[simp] theorem negotiation_sent (attempt : Attempt) :
    Run.negotiation (s.sent attempt) side = Run.negotiation s side := by
  cases side <;> rfl

@[simp] theorem negotiation_waited (client : Client) :
    Run.negotiation (s.waited client) side = Run.negotiation s side := by
  cases side <;> rfl

@[simp] theorem negotiation_ingested (response : Response) :
    Run.negotiation (s.ingested response) side = Run.negotiation s side := by
  cases side <;> rfl

@[simp] theorem negotiation_answered (request : Request) :
    Run.negotiation (s.answered side request) side = (s.outcome side request).negotiation := by
  cases side <;> rfl

theorem negotiation_answered_ne (request : Request) (h : other ≠ side) :
    Run.negotiation (s.answered side request) other = Run.negotiation s other := by
  cases side <;> cases other <;> first | rfl | exact absurd rfl h

@[simp] theorem negotiation_heard (host : Endpoint) (status : Nat) :
    Run.negotiation (s.heard side host status) side =
      ((Run.negotiation s side).hear side status).2.1 := by
  simp [heard]

@[simp] theorem negotiation_reacted (host : Endpoint) (response : Response) :
    Run.negotiation (s.reacted side host response) side = (s.reaction side host response).2.1 := by
  simp [reacted]

theorem negotiation_reacted_ne (host : Endpoint) (response : Response) (h : other ≠ side) :
    Run.negotiation (s.reacted side host response) other = Run.negotiation s other := by
  rw [reacted, negotiation_noted, negotiation_withNegotiation_ne _ _ _ h]

end

/-- A session without what negotiations change: themselves, what was learned about hosts, the draws. -/
def plain (s : Session) : Session :=
  { s with
    context := { s.context with target := {}, proxy := {} }
    target := { s.target with cache := [] }
    proxy := { s.proxy with cache := [] }
    draws := ⟨[], 0⟩ }

/-- What stays as it is throughout an exchange: the configuration, the policies, and what the two sides
are answered with. -/
def fixed (s : Session) : Session :=
  { s.plain with
    context := { config := s.context.config }
    jar := { s.jar with store := {} }
    now := .epoch
    attempts := 0
    log := [] }

theorem fixed_of_plain {s t : Session} (h : t.plain = s.plain) : t.fixed = s.fixed := by
  show t.plain.fixed = s.plain.fixed
  rw [h]

@[simp] theorem fixed_recorded (s : Session) (events : List Event) :
    (s.recorded events).fixed = s.fixed := rfl

@[simp] theorem fixed_entered (s : Session) (route : Route) (target : Endpoint) :
    (s.entered route target).fixed = s.fixed := rfl

@[simp] theorem fixed_sent (s : Session) (attempt : Attempt) : (s.sent attempt).fixed = s.fixed := rfl

@[simp] theorem fixed_waited (s : Session) (client : Client) : (s.waited client).fixed = s.fixed := rfl

@[simp] theorem fixed_ingested (s : Session) (response : Response) :
    (s.ingested response).fixed = s.fixed := by
  cases h : s.context.rules <;> simp [ingested, Jar.ingest, fixed, plain, recorded, h]

@[simp] theorem fixed_left (s : Session) (route : Route) (target : Endpoint) :
    (s.left route target).fixed = s.fixed := by
  unfold left
  split <;> rfl

theorem negotiation_left_target (s : Session) (route : Route) (target : Endpoint) :
    Run.negotiation (s.left route target) .target =
      if route.target.sameAs target then Run.negotiation s .target else {} := by
  unfold left
  split <;> rfl

theorem negotiation_left_proxy (s : Session) (route : Route) (target : Endpoint) :
    Run.negotiation (s.left route target) .proxy =
      if route.target.sameAs target then Run.negotiation s .proxy
      else if (Run.negotiation s .proxy).isConnectionBased then {} else Run.negotiation s .proxy := by
  unfold left
  split <;> rfl

@[simp] theorem log_recorded (s : Session) (events : List Event) :
    (s.recorded events).log = s.log ++ events := rfl

@[simp] theorem log_waited (s : Session) (client : Client) : (s.waited client).log = s.log := rfl

@[simp] theorem log_sent (s : Session) (attempt : Attempt) :
    (s.sent attempt).log = s.log ++ [.sent attempt] := rfl

@[simp] theorem log_ingested (s : Session) (response : Response) :
    (s.ingested response).log = s.log ++ [.stored s.context.rules
      (s.jar.ingest s.context.rules s.now response.headers).1] := rfl

@[simp] theorem log_left (s : Session) (route : Route) (target : Endpoint) :
    (s.left route target).log = s.log := by
  unfold left
  split <;> rfl

theorem log_of_plain {s t : Session} (h : t.plain = s.plain) : t.log = s.log := by
  show t.plain.log = s.plain.log
  rw [h]

@[simp] theorem attempts_recorded (s : Session) (events : List Event) :
    (s.recorded events).attempts = s.attempts := rfl

@[simp] theorem attempts_sent (s : Session) (attempt : Attempt) :
    (s.sent attempt).attempts = s.attempts + 1 := rfl

@[simp] theorem attempts_waited (s : Session) (client : Client) :
    (s.waited client).attempts = s.attempts := rfl

@[simp] theorem attempts_ingested (s : Session) (response : Response) :
    (s.ingested response).attempts = s.attempts := rfl

@[simp] theorem attempts_left (s : Session) (route : Route) (target : Endpoint) :
    (s.left route target).attempts = s.attempts := by
  unfold left
  split <;> rfl

theorem attempts_of_plain {s t : Session} (h : t.plain = s.plain) : t.attempts = s.attempts := by
  show t.plain.attempts = s.plain.attempts
  rw [h]

theorem config_of_fixed {s t : Session} (h : t.fixed = s.fixed) :
    t.context.config = s.context.config := by
  show t.fixed.context.config = s.fixed.context.config
  rw [h]

end Session

theorem Auth.Strategy.noteAll_books (strategy : Auth.Strategy) (host : Endpoint)
    (notices : List Auth.Notice) :
    { strategy.noteAll host notices with cache := [] } = { strategy with cache := [] } := by
  induction notices generalizing strategy with
  | nil => rfl
  | cons notice rest ih => exact (ih (strategy.note host notice)).trans (strategy.note_books host notice)

namespace Session

section
variable (s : Session) (side : Auth.Side) (host : Endpoint)

@[simp] theorem plain_withNegotiation (n : Auth.Negotiation) :
    (s.withNegotiation side n).plain = s.plain := by
  cases side <;> rfl

@[simp] theorem plain_noted (notices : List Auth.Notice) :
    (s.noted side host notices).plain = s.plain := by
  cases side
  · exact congrArg (fun strategy => { s.plain with target := strategy })
      (Auth.Strategy.noteAll_books s.target host notices)
  · exact congrArg (fun strategy => { s.plain with proxy := strategy })
      (Auth.Strategy.noteAll_books s.proxy host notices)

@[simp] theorem plain_answered (request : Request) : (s.answered side request).plain = s.plain := by
  cases side <;> rfl

@[simp] theorem plain_heard (status : Nat) : (s.heard side host status).plain = s.plain := by
  simp [heard]

@[simp] theorem plain_reacted (response : Response) :
    (s.reacted side host response).plain = s.plain := by
  simp [reacted]

@[simp] theorem plain_gaveUp : (s.gaveUp side).plain = s.plain := by simp [gaveUp]

end

end Session

-- ---------------------------------------------------------------------------
-- Activities, run
-- ---------------------------------------------------------------------------

namespace Run

open Auth (Side)

variable (s : Session)

@[simp] theorem record_run (event : Event) : (record event) s = (.ok ⟨⟩, s.recorded [event]) := rfl

@[simp] theorem changeContext_run (f : Context → Context) :
    (changeContext f) s = (.ok ⟨⟩, { s with context := f s.context }) := rfl

@[simp] theorem setNegotiation_run (side : Side) (n : Auth.Negotiation) :
    (setNegotiation side n) s = (.ok ⟨⟩, s.withNegotiation side n) := by
  cases side <;> rfl

@[simp] theorem takeNotices_run (side : Side) (host : Endpoint) (notices : List Auth.Notice) :
    (takeNotices side host notices) s = (.ok ⟨⟩, s.noted side host notices) := by
  cases side <;> rfl

theorem answer_run (side : Side) (request : Request) :
    (answer side request) s =
      ((s.outcome side request).answer.mapError ExchangeError.auth, s.answered side request) := by
  simp only [answer, run_bind, run_get, run_set, setNegotiation_run]
  cases h : (s.outcome side request).answer <;> simp_all [Session.outcome, Session.answered]

theorem hear_run (side : Side) (host : Endpoint) (response : Response) :
    (hear side host response) s =
      (.ok (decide (response.status = side.status)), s.heard side host response.status) := by
  have hn : ((negotiation s side).hear side response.status).1 =
      decide (response.status = side.status) := by
    simp only [Auth.Negotiation.hear]
    split
    · simp_all
    · split <;> simp_all
  simp only [hear, run_bind, run_get, setNegotiation_run, takeNotices_run, run_pure, ← hn]
  rfl

theorem react_run (side : Side) (host : Endpoint) (response : Response) :
    (react side host response) s =
      (.ok (s.reaction side host response).1, s.reacted side host response) := by
  simp only [react, run_bind, run_get, setNegotiation_run, takeNotices_run, run_pure]
  rfl

theorem giveUp_run (side : Side) : (giveUp side) s = (.ok ⟨⟩, s.gaveUp side) := by
  simp only [giveUp, run_bind, run_get, setNegotiation_run]
  rfl

theorem readBody_run (response : Response) :
    (readBody response) s = (response.contents, s.recorded response.reading) := by
  unfold readBody Response.contents Response.reading
  cases response.body with
  | none => simp [Session.recorded]
  | some body =>
    simp only [run_bind, record_run]
    cases body.content <;> rfl

theorem close_run (response : Response) :
    (close response) s = (.ok ⟨⟩, s.recorded response.dropping) := by
  unfold close Response.dropping
  cases response.body with
  | none => simp [Session.recorded]
  | some body => rfl

theorem release_run (response : Response) (error : ExchangeError) :
    (release response error) s = (.ok ⟨⟩, s.recorded (response.releasing error)) := by
  unfold release Response.releasing
  cases error.isProtocol with
  | false => exact close_run s response
  | true =>
    unfold Response.reading
    cases response.body with
    | none => simp [Session.recorded]
    | some body => rfl

/-- Only a response is received as one, with its body if it has one. -/
theorem receive_ok {number : Nat} {url : Url} {reply : Reply} {r : Response}
    (h : receive number url reply = .ok r) :
    ∃ status headers content, reply = .message status headers content ∧
      r = ⟨status, headers, content.map fun content => ⟨number, content⟩⟩ := by
  cases reply with
  | message status headers content => exact ⟨status, headers, content, rfl, (Except.ok.inj h).symm⟩
  | ioError => cases h
  | transportError => cases h
  | violation => cases h
  | timeout => cases h

theorem send_run (client : Client) (attempt : Attempt) :
    (send client attempt) s =
      match receive (s.attempts + 1) attempt.request.url (client.peer (s.attempts + 1)) with
      | .error error => (.error error, (s.sent attempt).waited client)
      | .ok response =>
        (.ok response,
          ((s.sent attempt).waited client).recorded [.received (s.attempts + 1) response]) := by
  have hs : (s.recorded [.sent attempt]).attempts = s.attempts := rfl
  simp only [send, run_bind, run_get, record_run, run_modify, hs]
  cases receive (s.attempts + 1) attempt.request.url (client.peer (s.attempts + 1)) <;> rfl

theorem ingest_run (response : Response) :
    (ingest response) s = (.ok ⟨⟩, s.ingested response) := by
  simp only [ingest, run_bind, run_get, run_set, record_run]
  rfl

theorem isFollowed_run (client : Client) (current : Request) (response : Response) :
    (isFollowed client current response) s =
      (.ok (client.follows s.context.config current response), s) := rfl

theorem isChallenged_run (proxy : Endpoint) (response : Response) :
    (isChallenged proxy response) s =
      if response.status = Side.proxy.status then
        (.ok ((s.heard .proxy proxy response.status).reaction .proxy proxy response).1,
          (s.heard .proxy proxy response.status).reacted .proxy proxy response)
      else (.ok false, s.heard .proxy proxy response.status) := by
  simp only [isChallenged, run_bind, hear_run, decide_eq_true_eq]
  split
  · rw [react_run]
  · rfl

theorem tunnel_run (client : Client) (proxy target : Endpoint) :
    (tunnel client proxy target) s =
      match Request.connect target.normalized with
      | .error error => (.error (.protocol (.tunnelTarget target.normalized error)), s)
      | .ok request =>
        let route := tunnelRoute proxy.normalized target.normalized
        match (ask client route proxy.normalized request s.context.config.furtherRounds)
            (s.entered route target.normalized) with
        | (.error error, t) => (.error error, t)
        | (.ok response, t) =>
          if 299 < response.status then
            (.error (.tunnelRefused response.status), t.recorded response.dropping)
          else (.ok response, t) := by
  simp only [tunnel]
  cases Request.connect target.normalized with
  | error error => rfl
  | ok request =>
    have hopen (route : Route) : ({ s with
        context := { s.context with targetHost := some target.normalized, route := some route } } :
        Session) = s.entered route target.normalized := rfl
    have hconfig (route : Route) :
        (s.entered route target.normalized).context.config = s.context.config := rfl
    simp only [run_bind, changeContext_run, run_get, hopen, hconfig]
    rcases (ask client (tunnelRoute proxy.normalized target.normalized) proxy.normalized request
      s.context.config.furtherRounds)
        (s.entered (tunnelRoute proxy.normalized target.normalized) target.normalized) with
      ⟨error | response, t⟩
    · rfl
    · simp only
      split
      · simp only [run_bind, close_run, run_throw]
      · rfl

theorem leave_run (route : Route) (target : Endpoint) :
    (leave route target) s = (.ok ⟨⟩, s.left route target) := by
  unfold leave Session.left
  split <;> rfl

end Run

end HttpSession
