import HttpSession.Exchange.Context

/-!
# Sessions

A session is what outlives single exchanges: cookies, what was learned about hosts, the clock, the
supply of random numbers, and a log of what was sent and received. A peer replies to each attempt, and
the clock moves while its reply is awaited; a client is a peer and the fixed ways to reach it.

`Run` is the type of activities in a session: they end with a value or an error, and leave a session in
either case.
-/

namespace HttpSession

inductive Reply
  | message (status : Nat) (headers : Headers) (content : Option (Except BodyFailure Bytes))
  | ioError (reason : Text)
  | transportError (reason : Text)
  | violation (message : Text)
  | timeout

def Reply.response (status : Nat) (headers : Headers) (content : Option (Except Text Bytes)) : Reply :=
  .message status headers (content.map (·.mapError .io))

structure Client where
  /-- The reply to each attempt, the first of which has number one. -/
  peer : Nat → Reply
  /-- What the clock shows when the reply to an attempt is there, given what it showed before. -/
  clock : Nat → Instant → Instant := fun _ now => now
  /-- The proxy on the way to every target. -/
  proxy : Option Endpoint := none
  /-- Whether redirects of methods that change something are followed. -/
  lax : Bool := false
  /-- The configuration of exchanges that bring none of their own. -/
  config : Config := {}

/-- A request as it is sent, and where what was added to it comes from. -/
structure Attempt where
  route : Route
  request : Request
  cookies : List Cookie
  proxyAnswer : Option Auth.Answer
  targetAnswer : Option Auth.Answer

inductive Event
  | hop (route : Route) (url : Url)
  | sent (attempt : Attempt)
  | received (reply : Nat) (response : Response)
  | stored (rules : Option Cookie.Rules) (cookies : List Cookie)
  | bodyRead (reply : Nat)
  | bodyDropped (reply : Nat)

structure Session where
  context : Context := {}
  jar : Jar := {}
  target : Auth.Strategy
  proxy : Auth.Strategy
  now : Instant
  draws : Auth.Draws
  /-- How many attempts were made. -/
  attempts : Nat := 0
  log : List Event := []

abbrev Run (α : Type) := ExceptT ExchangeError (StateM Session) α

namespace Run

def record (event : Event) : Run Unit := modify fun s => { s with log := s.log ++ [event] }

def changeContext (f : Context → Context) : Run Unit :=
  modify fun s => { s with context := f s.context }

/-! ## Bodies -/

def readBody (r : Response) : Run Bytes :=
  match r.body with
  | none => pure []
  | some body => do
    record (.bodyRead body.reply)
    match body.content with
    | .ok bytes => pure bytes
    | .error failure => throw failure.error

/-- Closes a response; a body that was not read is lost. -/
def close (r : Response) : Run Unit :=
  match r.body with
  | none => pure ()
  | some body => record (.bodyDropped body.reply)

/-- Parts with a response because of an error: what is left of it is read if the connection is still
usable, whether or not that succeeds, and else it is closed. -/
def release (r : Response) (error : ExchangeError) : Run Unit :=
  if error.isProtocol then
    match r.body with
    | none => pure ()
    | some body => record (.bodyRead body.reply)
  else close r

/-! ## Attempts -/

def receive (number : Nat) (url : Url) : Reply → Except ExchangeError Response
  | .message status headers content =>
    .ok ⟨status, headers, content.map fun content => ⟨number, content⟩⟩
  | .ioError reason => .error (.io .sending reason)
  | .transportError reason => .error (.io (.requesting url.href) reason)
  | .violation message => .error (.protocol (.reported message))
  | .timeout => .error (.timeout url.href)

def send (client : Client) (attempt : Attempt) : Run Response := do
  record (.sent attempt)
  let number := (← get).attempts + 1
  modify fun s => { s with attempts := number, now := client.clock number s.now }
  match receive number attempt.request.url (client.peer number) with
  | .error error => throw error
  | .ok response =>
    record (.received number response)
    pure response

/-! ## Negotiations -/

def negotiation (s : Session) : Auth.Side → Auth.Negotiation
  | .target => s.context.target
  | .proxy => s.context.proxy

def strategy (s : Session) : Auth.Side → Auth.Strategy
  | .target => s.target
  | .proxy => s.proxy

def setNegotiation (side : Auth.Side) (n : Auth.Negotiation) : Run Unit :=
  changeContext fun c =>
    match side with
    | .target => { c with target := n }
    | .proxy => { c with proxy := n }

def takeNotices (side : Auth.Side) (host : Endpoint) (notices : List Auth.Notice) : Run Unit :=
  modify fun s =>
    match side with
    | .target => { s with target := s.target.noteAll host notices }
    | .proxy => { s with proxy := s.proxy.noteAll host notices }

def answer (side : Auth.Side) (request : Request) : Run (Option Auth.Answer) := do
  let s ← get
  let outcome := (negotiation s side).answer request s.now s.draws
  set { s with draws := outcome.draws }
  setNegotiation side outcome.negotiation
  match outcome.answer with
  | .ok answer => pure answer
  | .error fault => throw (.auth fault)

def hear (side : Auth.Side) (host : Endpoint) (response : Response) : Run Bool := do
  let (requested, n, notices) := (negotiation (← get) side).hear side response.status
  setNegotiation side n
  takeNotices side host notices
  pure requested

def preferred (c : Config) : Auth.Side → Option (List Text)
  | .target => c.targetSchemes
  | .proxy => c.proxySchemes

def react (side : Auth.Side) (host : Endpoint) (response : Response) : Run Bool := do
  let s ← get
  let env : Auth.Negotiation.Env := ⟨strategy s side, host, preferred s.context.config side⟩
  let (again, n, notices) := (negotiation s side).react env response.headers
  setNegotiation side n
  takeNotices side host notices
  pure again

def giveUp (side : Auth.Side) : Run Unit := do
  setNegotiation side { negotiation (← get) side with phase := .failure }

end Run

end HttpSession
