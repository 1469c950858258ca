import HttpSession.Auth.Challenge
import HttpSession.Auth.Credentials
import HttpSession.Auth.Draws
import HttpSession.Auth.Fault
import HttpSession.Hash.Md5
import HttpSession.Hash.Sha256

/-!
# The Digest scheme

RFC 2617, with the algorithms of RFC 7616: the answer holds a digest of the password, of what the
challenge said and of the request, and everything else that the digest is made of. A nonce that is
answered again gets a higher count.
-/

namespace HttpSession.Auth

namespace Digest

/-! ## The response -/

/-- A hash, and whether it is applied once more for a session. -/
structure Algorithm where
  hash : Bytes → Bytes
  session : Bool

def algorithm? (name : Text) : Option Algorithm :=
  let name := name.upper
  if name = "MD5" then some ⟨Hash.Md5.digest, false⟩
  else if name = "MD5-SESS" then some ⟨Hash.Md5.digest, true⟩
  else if name = "SHA-256" then some ⟨Hash.Sha256.digest, false⟩
  else if name = "SHA-256-SESS" then some ⟨Hash.Sha256.digest, true⟩
  else none

def Algorithm.over (a : Algorithm) (parts : List Text) : Text :=
  Bytes.hex (a.hash (Utf8.encode (Text.join ":" parts)))

def usual : Text := "MD5"

/-- How the request is protected: nothing but the count and the number of the client go along. -/
def protection : Text := "auth"

structure Directives where
  username : Text
  realm : Text
  nonce : Text
  uri : Text
  response : Text
  /-- The count of the nonce in hexadecimal digits, where the challenge offers protection. -/
  count : Option Text
  /-- The number of the client, which goes along with the count. -/
  cnonce : Text
  algorithm : Option Text
  /-- What the challenge wants back as it is. -/
  returned : Option Text
  deriving DecidableEq, Repr

def Directives.responseFor (d : Directives) (a : Algorithm) (password method : Text) : Text :=
  let first := a.over [d.username, d.realm, password]
  let first := if a.session then a.over [first, d.nonce, d.cnonce] else first
  let second := a.over [method, d.uri]
  match d.count with
  | some count => a.over [first, d.nonce, count, d.cnonce, protection, second]
  | none => a.over [first, d.nonce, second]

def quoted (name value : Text) : Text := name ++ "=\"" ++ value ++ "\""

def Directives.text (d : Directives) : Text :=
  let always : List Text :=
    [quoted "username" d.username, quoted "realm" d.realm, quoted "nonce" d.nonce, quoted "uri" d.uri,
      quoted "response" d.response]
  let counted : List Text :=
    match d.count with
    | some count => ["qop=" ++ protection, "nc=" ++ count, quoted "cnonce" d.cnonce]
    | none => []
  let algorithm : List Text := d.algorithm.toList.map fun name => "algorithm=" ++ name
  let returned : List Text := d.returned.toList.map (quoted "opaque")
  "Digest " ++ Text.join ", " (always ++ counted ++ algorithm ++ returned)

/-! ## Nonces -/

/-- How often a nonce was answered, in 32 bits. -/
structure Counter where
  nonce : Option Text := none
  count : UInt32 := 0
  deriving DecidableEq, Repr

/-- Counts an answer to a nonce; another nonce begins at one. Behind the last number comes zero. -/
def Counter.tick (c : Counter) (nonce : Text) : Counter :=
  if c.nonce = some nonce then { c with count := c.count + 1 } else ⟨some nonce, 1⟩

def countText (count : UInt32) : Text := Text.padded 8 (Nat.toDigits 16 count.toNat)

end Digest

structure Digest where
  side : Option Side := none
  params : List (Text × Text) := []
  complete : Bool := false
  counter : Digest.Counter := {}
  deriving DecidableEq, Repr

namespace Digest

def param? (d : Digest) (name : Text) : Option Text := d.params.lookup name

def take (d : Digest) (c : Challenge) : Except ChallengeFault Digest :=
  if c.params = [] then .error .noParameters
  else .ok { d with side := some c.side, params := c.params, complete := true }

/-- A nonce that is out of date says nothing against the credentials. -/
def isStale (d : Digest) : Bool := (d.param? "stale").any (Text.sameLetters "true")

def isComplete (d : Digest) : Bool := d.complete && !d.isStale

/-- Whether the challenge offers protection; it may not offer other kinds alone. -/
def isProtected (d : Digest) : Except Fault Bool :=
  match d.param? "qop" with
  | none => .ok false
  | some offered =>
    if (offered.pieces ',').any fun method => method.trim.sameLetters protection then .ok true
    else .error (.qop offered)

structure Basis where
  realm : Text
  nonce : Text
  isProtected : Bool

def basis (d : Digest) : Except Fault Basis := do
  let realm ← (d.param? "realm").elim (.error .missingRealm) .ok
  let nonce ← (d.param? "nonce").elim (.error .missingNonce) .ok
  .ok ⟨realm, nonce, ← d.isProtected⟩

def directives (d : Digest) (b : Basis) (count : UInt32) (cnonce : Text) (credentials : Credentials)
    (request : Request) : Directives :=
  { username := credentials.principal, realm := b.realm, nonce := b.nonce, uri := request.target,
    response := [], count := if b.isProtected then some (countText count) else none, cnonce,
    algorithm := d.param? "algorithm", returned := d.param? "opaque" }

def complete? (d : Directives) (password method : Text) : Except Fault Directives :=
  let name := d.algorithm.getD usual
  match algorithm? name with
  | none => .error (.algorithm name)
  | some a => .ok { d with response := d.responseFor a password method }

/-- Answers for a request. The nonce is counted and a number drawn as soon as the challenge is known to
be answerable, before the algorithm is looked at. -/
def answer (d : Digest) (draws : Draws) (credentials : Credentials) (request : Request) :
    Except Fault Text × Digest × Draws :=
  match d.basis with
  | .error fault => (.error fault, d, draws)
  | .ok b =>
    let counter := d.counter.tick b.nonce
    let (draw, rest) := draws.next
    let cnonce := Bytes.hex (Draws.bytes draw)
    let directives := d.directives b counter.count cnonce credentials request
    let completed := complete? directives credentials.password request.method
    (completed.map Directives.text, { d with counter }, rest)

end Digest

end HttpSession.Auth
