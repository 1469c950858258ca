import HttpSession.Cookie.Compatibility
import HttpSession.Cookie.Strict
import HttpSession.Message.Header

/-!
# Cookie policies

A policy reads cookies out of headers, judges them against their origin, says which are sent where, and
writes them. Best match takes the strict rules for versioned cookies and the compatible ones for all
others. Policies are found by name, whose case does not count.
-/

namespace HttpSession.Cookie

inductive Source
  | setCookie
  | setCookie2
  deriving DecidableEq, Repr

inductive Policy
  | bestMatch
  | compatibility
  | strict
  | ignoring
  deriving DecidableEq, Repr

namespace Policy

def version : Policy → Nat
  | .bestMatch | .strict => 1
  | .compatibility | .ignoring => 0

def readCompatible (now : Instant) (source : Source) (origin : Origin) (value : Text) :
    Except Malformation (List Cookie) :=
  match source with
  | .setCookie => Compatibility.read now origin value
  | .setCookie2 => .error (.unrecognizedHeader "SetCookie2")

/-- Reads under the rules that suit the header and its first element. -/
def readBestMatch (now : Instant) (source : Source) (origin : Origin) (value : Text) :
    Except Malformation (List Cookie) :=
  match source with
  | .setCookie2 => Strict.read now true origin value
  | .setCookie => do
    let element ← Element.read value
    if element.isVersioned then Strict.read now false origin value
    else Compatibility.read now origin value

def read (p : Policy) (now : Instant) (source : Source) (origin : Origin) (value : Text) :
    Except Malformation (List Cookie) :=
  match p with
  | .bestMatch => readBestMatch now source origin value
  | .compatibility => readCompatible now source origin value
  | .strict => Strict.read now (source = .setCookie2) origin value
  | .ignoring => .ok []

def validate (p : Policy) (c : Cookie) (origin : Origin) : Except Rejection Unit :=
  match p with
  | .bestMatch => if 0 < c.version then Strict.validate c origin else Compatibility.validate c origin
  | .compatibility => Compatibility.validate c origin
  | .strict => Strict.validate c origin
  | .ignoring => .ok ()

def isSentTo (p : Policy) (c : Cookie) (origin : Origin) : Bool :=
  match p with
  | .bestMatch => if 0 < c.version then Strict.isSentTo c origin else Compatibility.isSentTo c origin
  | .compatibility => Compatibility.isSentTo c origin
  | .strict => Strict.isSentTo c origin
  | .ignoring => false

/-- The text that carries some cookies, at least one. -/
def text (p : Policy) (cookies : List Cookie) : Option Text :=
  match p with
  | .bestMatch =>
    some (if 0 < (Strict.leastVersion? cookies).getD 0 then Strict.format cookies
      else Compatibility.format cookies)
  | .compatibility => some (Compatibility.format cookies)
  | .strict => some (Strict.format cookies)
  | .ignoring => none

def format (p : Policy) (cookies : List Cookie) : Option Bytes :=
  if cookies = [] then none else (p.text cookies).bind HeaderValue.ofText?

def versionHeader : Policy → Option Bytes
  | .bestMatch | .strict => some (Utf8.encode "$Version=1")
  | .compatibility | .ignoring => none

/-! ## Policies by name -/

abbrev Registry := List (Text × Policy)

def lookup (r : Registry) (name : Text) : Option Policy := r.lookup name.lower

def register (r : Registry) (name : Text) (p : Policy) : Registry :=
  (r.filter (·.1 ≠ name.lower)) ++ [(name.lower, p)]

def known : Registry :=
  [("best-match", .bestMatch), ("compatibility", .compatibility), ("ignorecookies", .ignoring),
    ("rfc2965", .strict)]

def usual : Text := "best-match"

end Policy

end HttpSession.Cookie
