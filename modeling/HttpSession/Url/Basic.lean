import HttpSession.Url.Host

/-!
# URLs

URLs after the URL Standard, as browsers read and write them. A URL has a scheme, perhaps an authority, a
path, and perhaps a query and a fragment. The path is kept as it is written, already encoded; without an
authority, a path that does not begin with a slash is an uninterpreted one, to which nothing is relative.
A port equal to the default of the scheme is not kept, so equal URLs are written alike (`href`).
-/

namespace HttpSession

structure Url.Authority where
  username : Text
  password : Text
  host : Option Url.Host
  port : Option Nat
  deriving DecidableEq, Repr

structure Url where
  scheme : Text
  authority : Option Url.Authority
  path : Text
  query : Option Text
  fragment : Option Text
  deriving DecidableEq, Repr

namespace Url

/-- Schemes whose backslashes are slashes and whose hosts are read as domain names. -/
def isSpecial (scheme : Text) : Bool :=
  (["http", "https", "ws", "wss", "ftp", "file"] : List Text).contains scheme

def defaultPort? (scheme : Text) : Option Nat :=
  if scheme = "http" ∨ scheme = "ws" then some 80
  else if scheme = "https" ∨ scheme = "wss" then some 443
  else if scheme = "ftp" then some 21
  else none

/-- The host as text; there is none without an authority or with an empty host. -/
def host? (u : Url) : Option Text := (u.authority.bind (·.host)).map Host.text

def port? (u : Url) : Option Nat := u.authority.bind (·.port)

def knownPort? (u : Url) : Option Nat := u.port? <|> defaultPort? u.scheme

def target (u : Url) : Text := u.path ++ Text.optional u.query ("?" ++ ·)

def isBase (u : Url) : Bool := u.authority.isSome || u.path.head? = some '/'

def Authority.credentials (a : Authority) : Text :=
  let password : Text := if a.password = [] then [] else ":" ++ a.password
  if a.username = [] ∧ a.password = [] then [] else a.username ++ password ++ "@"

def Authority.text (a : Authority) : Text :=
  "//" ++ a.credentials ++ Text.optional a.host Host.text ++
    Text.optional a.port fun port => ":" ++ Text.ofNat port

/-- What stands before the path. A path that begins with two slashes is kept apart from an authority
by a dot segment. -/
def beforePath (u : Url) : Text :=
  match u.authority with
  | some authority => authority.text
  | none => if "//".toList.isPrefixOf u.path then "/." else []

def href (u : Url) : Text :=
  u.scheme ++ ":" ++ u.beforePath ++ u.target ++ Text.optional u.fragment ("#" ++ ·)

/-- Drops the fragment. An uninterpreted path that ends the URL then loses its trailing spaces. -/
def withoutFragment (u : Url) : Url :=
  let path :=
    if u.isBase ∨ u.query.isSome then u.path else (u.path.reverse.dropWhile (· = ' ')).reverse
  { u with path, fragment := none }

end Url

end HttpSession
