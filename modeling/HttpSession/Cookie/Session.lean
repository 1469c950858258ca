import HttpSession.Cookie.Policy
import HttpSession.Cookie.Store
import HttpSession.Message.Endpoint

/-!
# Cookies in an exchange

Which cookies of a store a request carries, and which ones a response adds to the store. Both are judged
by the same rules: a policy, and the origin that the request is sent to.
-/

namespace HttpSession.Cookie

/-- What cookies are judged by while a request and its response pass. -/
structure Rules where
  policy : Policy
  origin : Origin
  deriving DecidableEq, Repr

def originOf (target : Endpoint) (route : Route) (path : Text) : Origin :=
  .of target.hostname ((target.port <|> route.target.port).getD 0) path route.secure

/-! ## Requests -/

def Store.chosen (s : Store) (rules : Rules) (now : Instant) : List Cookie :=
  s.toList.filter fun c => !c.expiredAt now && rules.policy.isSentTo c rules.origin

/-- Whether to tell which version is known: some cookie is not of that version. -/
def needsVersion (p : Policy) (cookies : List Cookie) : Bool :=
  0 < p.version && cookies.any fun c => !c.fromSetCookie2 || c.version ≠ p.version

def attach (h : Headers) (p : Policy) (cookies : List Cookie) : Headers :=
  let h :=
    match p.format cookies with
    | some value => h.add HeaderName.cookie value
    | none => h
  match p.versionHeader with
  | some value => if needsVersion p cookies then h.add HeaderName.cookie2 value else h
  | none => h

/-! ## Responses -/

def acceptedFrom (rules : Rules) (now : Instant) (source : Source) (value : Bytes) : List Cookie :=
  match HeaderValue.text? value with
  | none => []
  | some text =>
    match rules.policy.read now source rules.origin text with
    | .error _ => []
    | .ok cookies => cookies.filter fun c => (rules.policy.validate c rules.origin).isOk

/-- The cookies that a response may set; only a policy of versioned cookies looks at the second
header. -/
def accepted (rules : Rules) (now : Instant) (h : Headers) : List Cookie :=
  (h.values HeaderName.setCookie).flatMap (acceptedFrom rules now .setCookie) ++
    if 0 < rules.policy.version then
      (h.values HeaderName.setCookie2).flatMap (acceptedFrom rules now .setCookie2)
    else []

end HttpSession.Cookie
