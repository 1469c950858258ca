import HttpSession.Exchange.Redirect
import HttpSession.Exchange.Rounds

/-!
# Exchanges

An exchange starts with a request and ends with the response that is not followed any further, after at
most so many redirects as the configuration allows. A redirect to another endpoint starts its
negotiations anew.
-/

namespace HttpSession.Run

structure Onward where
  route : Route
  request : Request

/-- The request that follows a redirect; it carries the headers of the first one. -/
def onwardRequest (first current : Request) (response : Response) : Run Request := do
  let c := (← get).context
  let url ←
    liftExcept (Redirect.nextLocation c.config c.locations current response.status response.headers)
  changeContext fun c => { c with locations := c.locations ++ [url] }
  pure { Redirect.requestTo url current response.status with headers := first.headers }

/-- Starts negotiations anew where another endpoint is asked: with the target always, with the proxy if
it was about a connection. -/
def leave (route : Route) (target : Endpoint) : Run Unit :=
  if route.target.sameAs target then pure ()
  else
    changeContext fun c =>
      { c with target := {}, proxy := if c.proxy.isConnectionBased then {} else c.proxy }

def onward (client : Client) (first current : Request) (route : Route) (response : Response) :
    Run Onward := do
  let request ← onwardRequest first current response
  match Endpoint.ofUrl? request.url with
  | none => throw (.redirectWithoutHost request.url.href)
  | some target =>
    leave route target
    match Route.resolve? client.proxy target with
    | none => throw (.protocol .emptyHostName)
    | some route => pure ⟨route, request⟩

def isFollowed (client : Client) (current : Request) (response : Response) : Run Bool := do
  let c := (← get).context.config
  pure (c.followsRedirects &&
    Redirect.isRedirected client.lax current response.status response.headers)

def releasing {α : Type} (response : Response) (run : Run α) : Run α :=
  tryCatch run fun error => do
    release response error
    throw error

/-- Follows redirects, for at most so many further hops. -/
def hops (client : Client) (first : Request) : Nat → Route → Request → Run Response
  | 0, route, current => do
    let response ← hop client route current
    if ← isFollowed client current response then
      releasing response (throw (.redirectLimit (← get).context.config.maxRedirects))
    else pure response
  | further + 1, route, current => do
    let response ← hop client route current
    if ← isFollowed client current response then
      let next ← releasing response (onward client first current route response)
      let _ ← readBody response
      hops client first further next.route next.request
    else pure response

def exchange (client : Client) (request : Request) : Run Response := do
  match Endpoint.ofUrl? request.url with
  | none => throw (.protocol (.noHost request.url.href))
  | some target =>
    match Route.resolve? client.proxy target with
    | none => throw (.protocol .emptyHostName)
    | some route =>
      changeContext fun c => { c with locations := [] }
      hops client request (← get).context.config.maxRedirects route request

/-- Runs an activity in a context of its own; that of the session stays as it was. -/
def withContext {α : Type} (context : Context) (run : Run α) : Run α := fun s =>
  let (result, after) := run { s with context }
  (result, { after with context := s.context })

end HttpSession.Run
