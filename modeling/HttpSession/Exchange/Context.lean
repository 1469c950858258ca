import HttpSession.Auth.Negotiation
import HttpSession.Cookie.Session
import HttpSession.Exchange.Config
import HttpSession.Exchange.Error

/-!
# The context of an exchange

What one exchange knows about itself: its configuration, where its present round goes, by which rules
cookies are judged in it, how it stands with target and proxy, and where redirects have led it.
-/

namespace HttpSession

structure Context where
  config : Config := {}
  targetHost : Option Endpoint := none
  route : Option Route := none
  rules : Option Cookie.Rules := none
  target : Auth.Negotiation := {}
  proxy : Auth.Negotiation := {}
  /-- The locations of redirects, in order. -/
  locations : List Url := []

/-- Cookies, the policies known by name, and the name of the usual one. -/
structure Jar where
  store : Cookie.Store := {}
  policies : Cookie.Policy.Registry := Cookie.Policy.known
  usual : Text := Cookie.Policy.usual

namespace Jar

/-- The rules for a request in a context. There are none for a tunnel, nor where the target or the
route is not known. -/
def rulesFor (jar : Jar) (context : Context) (request : Request) :
    Except ExchangeError (Option Cookie.Rules) :=
  if request.method = Method.connect then .ok none
  else
    match context.targetHost <|> Endpoint.ofUrl? request.url, context.route with
    | some target, some route =>
      let name := context.config.cookiePolicy.getD jar.usual
      match Cookie.Policy.lookup jar.policies name with
      | some policy => .ok (some ⟨policy, Cookie.originOf target route request.url.path⟩)
      | none => .error (.unsupportedPolicy name)
    | _, _ => .ok none

structure Carrying where
  request : Request
  cookies : List Cookie
  context : Context

/-- Adds the cookies that belong to a request, and keeps the rules in the context for the response.
Without rules nothing changes. -/
def attach (jar : Jar) (context : Context) (now : Instant) (request : Request) :
    Except ExchangeError Carrying :=
  (jar.rulesFor context request).map fun rules =>
    match rules with
    | none => ⟨request, [], context⟩
    | some rules =>
      let cookies := jar.store.chosen rules now
      ⟨{ request with headers := Cookie.attach request.headers rules.policy cookies }, cookies,
        { context with rules := some rules }⟩

def ingest (jar : Jar) (rules : Option Cookie.Rules) (now : Instant) (h : Headers) :
    List Cookie × Jar :=
  match rules with
  | none => ([], jar)
  | some rules =>
    let cookies := Cookie.accepted rules now h
    (cookies, { jar with store := jar.store.addAll now cookies })

end Jar

end HttpSession
