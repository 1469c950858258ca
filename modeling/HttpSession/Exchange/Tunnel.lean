import HttpSession.Exchange.Session

/-!
# Tunnels

A tunnel to a target is asked of a proxy until the proxy grants it or stops challenging. Only the proxy
is negotiated with, and no cookies go along.
-/

namespace HttpSession.Run

def tunnelRoute (proxy target : Endpoint) : Route := ⟨target, some proxy, false, true⟩

def isChallenged (proxy : Endpoint) (response : Response) : Run Bool := do
  if ← hear .proxy proxy response then react .proxy proxy response else pure false

/-- Asks for a tunnel once, and hands back the request as it was sent; informational replies are no
replies. -/
def askOnce (client : Client) (route : Route) (request : Request) : Run (Request × Response) := do
  let proxyAnswer ← answer .proxy request
  let request := { request with headers := Auth.Negotiation.attach request.headers proxyAnswer }
  let response ← send client ⟨route, request, [], proxyAnswer, none⟩
  if 100 ≤ response.status ∧ response.status < 200 then
    close response
    throw (.protocol (.connectReply response.status))
  pure (request, response)

def withoutAnswer (request : Request) : Request :=
  { request with headers := request.headers.remove HeaderName.proxyAuthorization }

/-- Asks for a tunnel, and again for at most so many further rounds, with the request as the round before
left it. -/
def ask (client : Client) (route : Route) (proxy : Endpoint) (request : Request) : Nat → Run Response
  | 0 => do
    let (_, response) ← askOnce client route request
    if ← isChallenged proxy response then giveUp .proxy
    pure response
  | further + 1 => do
    let (sent, response) ← askOnce client route request
    if ← isChallenged proxy response then
      let _ ← readBody response
      ask client route proxy (withoutAnswer sent) further
    else pure response

def tunnel (client : Client) (proxy target : Endpoint) : Run Response := do
  let target := target.normalized
  let proxy := proxy.normalized
  let route := tunnelRoute proxy target
  match Request.connect target with
  | .error error => throw (.protocol (.tunnelTarget target error))
  | .ok request =>
    changeContext fun c => { c with targetHost := some target, route := some route }
    let response ← ask client route proxy request (← get).context.config.furtherRounds
    if 299 < response.status then
      close response
      throw (.tunnelRefused response.status)
    pure response

def strategyFor (schemes : Auth.Registry) (proxy : Endpoint) (credentials : Auth.Credentials) :
    Auth.Strategy :=
  let vault : Auth.Vault := [(.forHost proxy.hostname (some proxy.effectivePort), credentials)]
  { side := .proxy, schemes, vault }

/-- Opens a tunnel with credentials for the proxy; what is learned about it is not kept. -/
def tunnelWith (client : Client) (credentials : Auth.Credentials) (proxy target : Endpoint) :
    Run Response := fun s =>
  let (result, after) :=
    (tunnel client proxy target) { s with proxy := strategyFor s.proxy.schemes proxy credentials }
  (result, { after with proxy := s.proxy })

end HttpSession.Run
