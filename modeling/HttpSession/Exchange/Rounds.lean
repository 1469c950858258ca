import HttpSession.Exchange.Session

/-!
# Rounds of authentication

One hop of an exchange: a request is sent with its cookies and with answers to challenges, and sent
again as long as target or proxy challenge it in a way worth answering and the rounds last. Every
attempt starts from the request as it was given.
-/

namespace HttpSession.Run

/-- The attempt for a request: with cookies, and with the answers that are due. A proxy that tunnels
never sees the headers. -/
def prepare (route : Route) (request : Request) : Run Attempt := do
  let s ← get
  let carrying ← liftExcept (s.jar.attach s.context s.now request)
  changeContext fun _ => carrying.context
  if ¬ s.context.config.authenticates then
    pure ⟨route, carrying.request, carrying.cookies, none, none⟩
  else
    let proxyAnswer ←
      if route.proxy.isSome ∧ ¬ route.tunnelled then answer .proxy carrying.request else pure none
    let h := Auth.Negotiation.attach carrying.request.headers proxyAnswer
    let targetAnswer ← answer .target { carrying.request with headers := h }
    let h := Auth.Negotiation.attach h targetAnswer
    pure ⟨route, { carrying.request with headers := h }, carrying.cookies, proxyAnswer, targetAnswer⟩

def ingest (response : Response) : Run Unit := do
  let s ← get
  let (cookies, jar) := s.jar.ingest s.context.rules s.now response.headers
  set { s with jar }
  record (.stored s.context.rules cookies)

/-- The side whose challenge is worth answering, if there is one. Both sides hear of every response; the
target is answered first. -/
def challenger? (target : Endpoint) (route : Route) (response : Response) :
    Run (Option Auth.Side) := do
  if ¬ (← get).context.config.authenticates then pure none
  else
    let proxy := route.proxy.getD route.target
    let targetAsks ← hear .target target response
    let proxyAsks ← hear .proxy proxy response
    if targetAsks then
      pure (if ← react .target target response then some .target else none)
    else if proxyAsks then
      pure (if ← react .proxy proxy response then some .proxy else none)
    else pure none

def round (client : Client) (route : Route) (request : Request) (target : Endpoint) :
    Run (Response × Option Auth.Side) := do
  let attempt ← prepare route request
  let response ← send client attempt
  ingest response
  pure (response, ← challenger? target route response)

def rounds (client : Client) (route : Route) (request : Request) (target : Endpoint) :
    Nat → Run Response
  | 0 => do
    let (response, challenger) ← round client route request target
    match challenger with
    | none => pure response
    | some side =>
      giveUp side
      pure response
  | further + 1 => do
    let (response, challenger) ← round client route request target
    match challenger with
    | none => pure response
    | some _ =>
      let _ ← readBody response
      rounds client route request target further

def hop (client : Client) (route : Route) (request : Request) : Run Response := do
  record (.hop route request.url)
  match Endpoint.ofUrl? request.url with
  | none => throw (.protocol (.noHost request.url.href))
  | some target =>
    changeContext fun c => { c with targetHost := some target, route := some route }
    rounds client route request target.normalized (← get).context.config.furtherRounds

end HttpSession.Run
