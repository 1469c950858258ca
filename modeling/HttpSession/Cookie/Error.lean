import HttpSession.Text.Basic

/-!
# Cookie errors

What can be wrong with a header that sets cookies (`Malformation`), with a cookie for its origin
(`Rejection`), and with a cookie file.
-/

namespace HttpSession.Cookie

inductive Malformation
  | emptyName
  | unrecognizedHeader (name : Text)
  | missingValue (name : Text)
  | blankDomain
  | maxAge (written : Text)
  | version (written : Text)
  | expires (written : Text)
  | port (written : Text)
  deriving DecidableEq, Repr

def Malformation.reason : Malformation → Text
  | .emptyName => "cookie name may not be empty"
  | .unrecognizedHeader name => "unrecognized cookie header " ++ name
  | .missingValue name => "missing value for " ++ name ++ " attribute"
  | .blankDomain => "blank value for domain attribute"
  | .maxAge written => "invalid max-age attribute: " ++ written
  | .version written => "invalid cookie version: " ++ written
  | .expires written => "unable to parse expires attribute: " ++ written
  | .port written => "invalid port attribute: " ++ written

inductive Rejection
  | emptyDomain
  | foreignDomain (domain host : Text)
  | foreignPath (path origin : Text)
  | unversioned
  | dotless (domain : Text)
  | noEmbeddedDot (domain : Text)
  | outsideDomain (domain host : Text)
  | dotsBeforeDomain (domain : Text)
  | foreignPort
  deriving DecidableEq, Repr

def violation (domain fault : Text) : Text :=
  "domain attribute \"" ++ domain ++ "\" violates RFC 2965: " ++ fault

def Rejection.reason : Rejection → Text
  | .emptyDomain => "cookie domain may not be empty"
  | .foreignDomain domain host =>
    "illegal domain attribute \"" ++ domain ++ "\"; domain of origin: \"" ++ host ++ "\""
  | .foreignPath path origin =>
    "illegal path attribute \"" ++ path ++ "\"; path of origin: \"" ++ origin ++ "\""
  | .unversioned => "violates RFC 2965: version attribute is required"
  | .dotless domain => violation domain "must start with a dot"
  | .noEmbeddedDot domain => violation domain "no embedded dots and not .local"
  | .outsideDomain domain host =>
    violation domain ("effective host \"" ++ host ++ "\" does not domain-match")
  | .dotsBeforeDomain domain => violation domain "effective host minus domain may not contain dots"
  | .foreignPort => "port attribute violates RFC 2965: request port not in the cookie's port list"

def Malformation.message (m : Malformation) : Text := "malformed cookie header: " ++ m.reason

def Rejection.message (r : Rejection) : Text := "cookie rejected: " ++ r.reason

end HttpSession.Cookie
