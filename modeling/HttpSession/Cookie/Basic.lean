import HttpSession.Text.Shown
import HttpSession.Time.HttpDate

/-!
# Cookies

A cookie has a name and a value, a domain and a path it belongs to, and the attributes that say when,
where and how it is sent. Two cookies with one name, domain and path are the same cookie (`Key`). An
origin is what a cookie is judged against: a host, a port, a path, and whether the way there is secure.
-/

namespace HttpSession

structure Cookie where
  name : Text
  value : Text
  domain : Text := []
  path : Text := ['/']
  version : Nat := 0
  expiry : Option Instant := none
  secure : Bool := false
  ports : Option (List Nat) := none
  comment : Option Text := none
  discard : Bool := false
  /-- Whether the domain was given rather than taken from the origin; likewise path and ports. -/
  domainGiven : Bool := false
  pathGiven : Bool := false
  portGiven : Bool := false
  /-- Whether the cookie came with the header of versioned cookies. -/
  fromSetCookie2 : Bool := false
  deriving DecidableEq, Repr

namespace Cookie

/-! ## Identity -/

/-- What makes two cookies the same: name, domain in lower case, and path. -/
structure Key where
  name : Text
  domain : Text
  path : Text
  deriving DecidableEq, Repr

def key (c : Cookie) : Key := ⟨c.name, c.domain.lower, c.path⟩

def Key.before (j k : Key) : Prop :=
  j.name < k.name ∨
    (j.name = k.name ∧ (j.domain < k.domain ∨ (j.domain = k.domain ∧ j.path < k.path)))

instance (j k : Key) : Decidable (j.before k) := by unfold Key.before; infer_instance

/-! ## Life -/

/-- A cookie without an expiry lives as long as the session. -/
def expiredAt (c : Cookie) (now : Instant) : Bool :=
  match c.expiry with
  | some expiry => expiry.notAfter now
  | none => false

def isPersistent (c : Cookie) : Bool := c.expiry.isSome && !c.discard

/-! ## For people -/

/-- One line for logs, with at most 100 characters of the value; there is none when the expiry has no
date. -/
def summary? (c : Cookie) : Option Text := do
  let expiry ←
    match c.expiry with
    | some expiry => HttpDate.format? expiry
    | none => some "session"
  let value : Text := c.value.take 100 ++ if 100 < c.value.length then "...".toList else []
  some (c.name ++ "=\"" ++ value ++ "\", version:" ++ Text.ofNat c.version ++ ", domain:" ++ c.domain ++
    ", path:" ++ c.path ++ ", expiry:" ++ expiry)

def shownInstant (t : Instant) : Text :=
  let sign : Text := if t.seconds < 0 then ['-'] else []
  Text.shownRecord "SystemTime"
    [("tv_sec", sign ++ Text.ofNat t.seconds.natAbs), ("tv_nsec", Text.ofNat t.nanos)] false

def shownBool (b : Bool) : Text := if b then "true" else "false"

def shown (c : Cookie) : Text :=
  Text.shownRecord "Cookie"
    [("name", Text.shown c.name), ("value", Text.redacted), ("domain", Text.shown c.domain),
      ("path", Text.shown c.path), ("version", Text.ofNat c.version),
      ("expiry", Text.shownOption (c.expiry.map shownInstant)), ("secure", shownBool c.secure),
      ("set_cookie2", shownBool c.fromSetCookie2)]
    true

/-! ## Origins -/

structure Origin where
  host : Text
  port : Nat
  path : Text
  secure : Bool
  deriving DecidableEq, Repr

def Origin.of (host : Text) (port : Nat) (path : Text) (secure : Bool) : Origin :=
  ⟨host.lower, port, if path = [] then ['/'] else path, secure⟩

def Origin.text (o : Origin) : Text :=
  (if o.secure then "(secure)" else "" : String).toList ++ o.host ++ ":" ++ Text.ofNat o.port ++ o.path

end Cookie

end HttpSession
