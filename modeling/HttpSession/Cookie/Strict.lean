import HttpSession.Cookie.Attribute
import HttpSession.Cookie.Basic
import HttpSession.Cookie.Path

/-!
# The strict policy

RFC 2965: the first occurrence of an attribute counts, a domain that is given starts with a dot and
reaches one label down, a cookie may be bound to ports, and what was given is sent back with it.
-/

namespace HttpSession.Cookie.Strict

/-- A host without a dot is a local one. -/
def effectiveHost (host : Text) : Text := if host.contains '.' then host else host ++ ".local"

/-- Whether a host is a domain, or ends with a domain that starts with a dot. -/
def domainMatch (host domain : Text) : Bool :=
  host = domain || (domain.head? = some '.' && domain.isSuffixOf host)

def isOneLabelAbove (host domain : Text) : Bool :=
  domain.length ≤ host.length && !(host.take (host.length - domain.length)).contains '.'

def readPorts (written : Text) : Except Malformation (List Nat) :=
  (written.unquote.pieces ',').mapM fun port =>
    (Text.Width.port.readNat? port.trim).elim (.error (.port written)) .ok

def firstOccurrences : List Attribute → List Attribute
  | [] => []
  | a :: rest => a :: (firstOccurrences rest).filter (·.name ≠ a.name)

def apply (now : Instant) (origin : Origin) (c : Cookie) (a : Attribute) :
    Except Malformation Cookie :=
  let value := a.value.map Text.unquote
  if a.name = "path" then
    match value with
    | none => .error (.missingValue "path")
    | some path => .ok { c with path := if path.trim = [] then ['/'] else path, pathGiven := true }
  else if a.name = "domain" then
    match value.filter (·.trim ≠ []) with
    | none => .error .blankDomain
    | some domain =>
      let dotted := if domain.head? = some '.' then domain else '.' :: domain
      .ok { c with domain := Text.lower dotted, domainGiven := true }
  else if a.name = "port" then
    match value.filter (·.trim ≠ []) with
    | none => .ok { c with ports := some [origin.port], portGiven := true }
    | some written => (readPorts written).map fun ports => { c with ports := some ports, portGiven := true }
  else if a.name = "max-age" then (readMaxAge now value).map fun expiry => { c with expiry }
  else if a.name = "secure" then .ok { c with secure := true }
  else if a.name = "comment" then .ok { c with comment := value }
  else if a.name = "discard" then .ok { c with discard := true }
  else if a.name = "version" then (readVersion value).map fun version => { c with version }
  else .ok c

def blank (e : Element) (fromSetCookie2 : Bool) (origin : Origin) : Cookie :=
  { name := e.name, value := e.value.unquote, domain := (effectiveHost origin.host).lower,
    path := defaultPath origin.path, fromSetCookie2 }

def ofElement (now : Instant) (fromSetCookie2 : Bool) (origin : Origin) (e : Element) :
    Except Malformation Cookie :=
  (firstOccurrences e.attributes).foldlM (apply now origin) (blank e fromSetCookie2 origin)

def read (now : Instant) (fromSetCookie2 : Bool) (origin : Origin) (value : Text) :
    Except Malformation (List Cookie) := do
  (← Element.readAll value).mapM (ofElement now fromSetCookie2 origin)

def hasEmbeddedDot (domain : Text) : Bool := domain.tail.dropLast.contains '.'

def validateDomain (c : Cookie) (host : Text) : Except Rejection Unit :=
  if ¬ c.domainGiven then
    if c.domain = host then .ok () else .error (.foreignDomain c.domain host)
  else if c.domain.head? ≠ some '.' then .error (.dotless c.domain)
  else if ¬ hasEmbeddedDot c.domain ∧ c.domain ≠ ".local" then .error (.noEmbeddedDot c.domain)
  else if ¬ domainMatch host c.domain then .error (.outsideDomain c.domain host)
  else if ¬ isOneLabelAbove host c.domain then .error (.dotsBeforeDomain c.domain)
  else .ok ()

def allowsPort (c : Cookie) (port : Nat) : Bool := !c.portGiven || (c.ports.getD []).contains port

def validate (c : Cookie) (origin : Origin) : Except Rejection Unit := do
  if c.fromSetCookie2 ∧ c.version = 0 then throw .unversioned
  validateDomain c (effectiveHost origin.host)
  if ¬ allowsPort c origin.port then throw .foreignPort
  if ¬ pathMatch origin.path c.path then throw (.foreignPath c.path origin.path)

def isSentTo (c : Cookie) (origin : Origin) : Bool :=
  let host := effectiveHost origin.host
  domainMatch host c.domain && isOneLabelAbove host c.domain && allowsPort c origin.port &&
    pathMatch origin.path c.path && (!c.secure || origin.secure)

/-- The ports of a cookie as they are sent back; none are left out. -/
def formatPorts (ports : Option (List Nat)) : Text :=
  match ports.getD [] with
  | [] => "; $Port"
  | ports => "; $Port=\"" ++ Text.join "," (ports.map Text.ofNat) ++ "\""

def formatOne (c : Cookie) : Text :=
  let path : Text := if c.pathGiven then "; $Path=\"" ++ c.path ++ "\"" else []
  let domain : Text := if c.domainGiven then "; $Domain=\"" ++ c.domain ++ "\"" else []
  let ports : Text := if c.portGiven then formatPorts c.ports else []
  "; " ++ c.name ++ "=\"" ++ c.value ++ "\"" ++ path ++ domain ++ ports

def pathSize (c : Cookie) : Nat := c.path.foldl (fun size char => size + char.utf8Size) 0

def leastVersion? (cookies : List Cookie) : Option Nat := (cookies.map (·.version)).min?

/-- The least version, then the cookies, those with longer paths first. -/
def format (cookies : List Cookie) : Text :=
  let ordered := cookies.mergeSort fun c d => pathSize d ≤ pathSize c
  "$Version=" ++ Text.ofNat ((leastVersion? cookies).getD 0) ++ ordered.flatMap formatOne

end HttpSession.Cookie.Strict
