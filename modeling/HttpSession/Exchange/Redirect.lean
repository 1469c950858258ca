import HttpSession.Exchange.Config
import HttpSession.Exchange.Error
import HttpSession.Message.Request

/-!
# Redirects

Which responses are followed, where they lead, and with what request. Methods that only ask are followed
always, others behind status 303 alone; a lax reader also follows two methods that change something.
-/

namespace HttpSession.Redirect

def isRedirectable (lax : Bool) (method : Text) : Bool :=
  method = Method.get || method = Method.head || (lax && (method = Method.post || method = Method.delete))

def isRedirected (lax : Bool) (request : Request) (status : Nat) (h : Headers) : Bool :=
  if status = 302 then isRedirectable lax request.method && h.has HeaderName.location
  else if status = 301 ∨ status = 307 ∨ status = 308 then isRedirectable lax request.method
  else status = 303

/-- Reads a location, which may be relative to a URL if the configuration allows that. -/
def readLocation (c : Config) (base : Url) (location : Text) : Except ExchangeError Url :=
  match Url.read location with
  | .ok url => .ok url
  | .error .relativeWithoutBase =>
    if ¬ c.relativeRedirects then .error (.protocol (.relativeLocation location))
    else
      match base.join location with
      | .ok url => .ok url
      | .error error => .error (.protocol (.location location error))
  | .error error => .error (.protocol (.location location error))

def locationOf (c : Config) (request : Request) (status : Nat) (h : Headers) :
    Except ExchangeError Url :=
  match h.text? HeaderName.location with
  | none => .error (.protocol (.noLocation status))
  | some location => (readLocation c request.url location).map Url.withoutFragment

def nextLocation (c : Config) (visited : List Url) (request : Request) (status : Nat) (h : Headers) :
    Except ExchangeError Url := do
  let url ← locationOf c request status h
  if ¬ c.circularRedirects ∧ url ∈ visited then .error (.circularRedirect url.href) else .ok url

/-- The request to a location. Two statuses keep method and body; behind the others it only asks. -/
def requestTo (url : Url) (request : Request) (status : Nat) : Request :=
  if request.method = Method.head then { method := Method.head, url }
  else if status = 307 ∨ status = 308 then { method := request.method, url, body := request.body }
  else { method := Method.get, url }

end HttpSession.Redirect
