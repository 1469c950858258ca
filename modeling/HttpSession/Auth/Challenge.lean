import HttpSession.Message.Request
import HttpSession.Text.Quotes

/-!
# Challenges

A party asks for authentication with challenges: a scheme, and then either one token or parameters
`name=value` between commas. Names of schemes and parameters are kept in lower case; a quoted value is
kept without its quotes and escapes.
-/

namespace HttpSession.Auth

inductive Side
  | target
  | proxy
  deriving DecidableEq, Repr

namespace Side

def status : Side → Nat
  | .target => 401
  | .proxy => 407

def challengeHeader : Side → Text
  | .target => HeaderName.wwwAuthenticate
  | .proxy => HeaderName.proxyAuthenticate

def answerHeader : Side → Text
  | .target => HeaderName.authorization
  | .proxy => HeaderName.proxyAuthorization

def text : Side → Text
  | .target => "target"
  | .proxy => "proxy"

end Side

inductive ChallengeFault
  | scheme (written : Text)
  | parameter (written : Text)
  | noParameters
  | outOfSequence
  | notText
  deriving DecidableEq, Repr

def ChallengeFault.message : ChallengeFault → Text
  | .scheme written => "malformed challenge: invalid scheme identifier: " ++ written
  | .parameter written => "malformed challenge: invalid auth parameter: " ++ written
  | .noParameters => "malformed challenge: digest challenge carries no parameters"
  | .outOfSequence => "malformed challenge: out of sequence NTLM response message"
  | .notText => "malformed challenge: challenge header is not valid text"

structure Challenge where
  side : Side
  scheme : Text
  token : Option Text := none
  params : List (Text × Text) := []
  deriving DecidableEq, Repr

namespace Challenge

/-- Whether a text is a token: letters, digits and some signs, and padding behind them. -/
def isToken68 (t : Text) : Bool :=
  let body := (t.reverse.dropWhile (· = '=')).reverse
  body ≠ [] && body.all fun c => c.isAlphanum || "-._~+/".toList.contains c

def readValue (t : Text) : Text :=
  match t.quoted? with
  | some inner => inner.unescape
  | none => t

def readParam (t : Text) : Except ChallengeFault (Text × Text) :=
  match t.cut? (· = '=') with
  | none => .error (.parameter t)
  | some (name, value) =>
    if name.trim = [] then .error (.parameter t) else .ok (name.trim.lower, readValue value.trim)

/-- Reads parameters between commas; blank ones do not count. -/
def readParams (t : Text) : Except ChallengeFault (List (Text × Text)) :=
  (((t.splitUnquoted ',').map Text.trim).filter (· ≠ [])).mapM readParam

def read (side : Side) (value : Text) : Except ChallengeFault Challenge :=
  let value := value.trim
  let (scheme, rest) :=
    match value.cut? Text.isBlank with
    | some (scheme, rest) => (scheme, rest.trim)
    | none => (value, [])
  if scheme = [] ∨ ¬ scheme.all isTokenChar then .error (.scheme value)
  else
    let challenge : Challenge := { side, scheme := scheme.lower }
    if rest = [] then .ok challenge
    else if isToken68 rest then .ok { challenge with token := some rest }
    else (readParams rest).map fun params => { challenge with params }

/-- The first value of a parameter; the case of its name does not count. -/
def param? (c : Challenge) (name : Text) : Option Text := c.params.lookup name.lower

end Challenge

end HttpSession.Auth
