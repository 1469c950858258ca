import HttpSession.Cookie.Attribute
import HttpSession.Cookie.Basic
import HttpSession.Cookie.Date
import HttpSession.Cookie.Path

/-!
# The compatibility policy

What browsers do: the last occurrence of an attribute counts, unknown attributes are passed over, an
age wins over a date, and a cookie is sent to its domain and to every host below it.
-/

namespace HttpSession.Cookie.Compatibility

/-- Whether a host is a domain or lies below it; a dot before the domain does not count. -/
def domainMatch (host domain : Text) : Bool :=
  if domain = [] then false
  else
    let bare := (domain.after? ['.']).getD domain
    host = bare || ((host.before? bare).bind (·.getLast?)) = some '.'

structure Draft where
  cookie : Cookie
  maxAge : Option (Option Instant)

def Draft.apply (now : Instant) (d : Draft) (a : Attribute) : Except Malformation Draft :=
  let keep (cookie : Cookie) : Except Malformation Draft := .ok { d with cookie }
  if a.name = "path" then
    let path := a.value.getD []
    keep { d.cookie with path := if path = [] then ['/'] else path, pathGiven := true }
  else if a.name = "domain" then
    match a.value with
    | none | some [] => .error .blankDomain
    | some domain => keep { d.cookie with domain := domain.lower, domainGiven := true }
  else if a.name = "max-age" then
    (readMaxAge now a.value).map fun expiry => { d with maxAge := some expiry }
  else if a.name = "expires" then
    match readDate? (a.value.getD []) with
    | none => .error (.expires (a.value.getD []))
    | some expiry => keep { d.cookie with expiry := some expiry }
  else if a.name = "secure" then keep { d.cookie with secure := true }
  else if a.name = "comment" then keep { d.cookie with comment := a.value }
  else if a.name = "version" then
    (readVersion a.value).map fun version => { d with cookie := { d.cookie with version } }
  else .ok d

/-- The cookie of a draft: an age wins over a date, wherever it stands. -/
def Draft.finish (d : Draft) : Cookie :=
  match d.maxAge with
  | some expiry => { d.cookie with expiry }
  | none => d.cookie

def blank (e : Element) (origin : Origin) : Cookie :=
  { name := e.name, value := e.value, domain := origin.host.lower, path := defaultPath origin.path }

def ofElement (now : Instant) (origin : Origin) (e : Element) : Except Malformation Cookie :=
  (e.attributes.foldlM (Draft.apply now) ⟨blank e origin, none⟩).map Draft.finish

/-- Reads the cookies of a header value: several if the first element is versioned, else one. -/
def read (now : Instant) (origin : Origin) (value : Text) : Except Malformation (List Cookie) := do
  let element ← Element.read value
  let elements ← if element.isVersioned then Element.readAll value else .ok [element]
  elements.mapM (ofElement now origin)

def validate (c : Cookie) (origin : Origin) : Except Rejection Unit :=
  if c.domain = [] then .error .emptyDomain
  else if ¬ domainMatch origin.host c.domain then .error (.foreignDomain c.domain origin.host)
  else if ¬ pathMatch origin.path c.path then .error (.foreignPath c.path origin.path)
  else .ok ()

def isSentTo (c : Cookie) (origin : Origin) : Bool :=
  domainMatch origin.host c.domain && pathMatch origin.path c.path && (!c.secure || origin.secure)

def format (cookies : List Cookie) : Text :=
  Text.join "; " (cookies.map fun c => c.name ++ "=" ++ c.value)

end HttpSession.Cookie.Compatibility
