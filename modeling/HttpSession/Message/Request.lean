import HttpSession.Message.Endpoint
import HttpSession.Message.Header
import HttpSession.Text.Shown

/-!
# Requests and responses

A request names a method and a URL and carries headers and perhaps a body. The body of a response is
read at most once, and reading it may fail; which reply a body came with stays known, so that it can
be said of each whether it was read.
-/

namespace HttpSession

namespace Method

def get : Text := "GET"
def head : Text := "HEAD"
def post : Text := "POST"
def delete : Text := "DELETE"
def connect : Text := "CONNECT"

def read? (t : Text) : Option Text := if t ≠ [] ∧ t.all isTokenChar then some t else none

def complaint : Text := "invalid HTTP method"

end Method

structure Request where
  method : Text
  url : Url
  headers : Headers := []
  body : Option Bytes := none
  deriving DecidableEq, Repr

namespace Request

def connect (target : Endpoint) : Except Url.Error Request :=
  let target := target.normalized
  (Url.read (target.scheme ++ "://" ++ target.hostText ++ "/")).map fun url =>
    { method := Method.connect, url }

/-- What the request line names: path and query, or host and port for a tunnel. -/
def target (r : Request) : Text :=
  if r.method = Method.connect then
    r.url.host?.getD [] ++ ":" ++ Text.ofNat (r.url.knownPort?.getD 0)
  else r.url.target

def shown (r : Request) : Text :=
  Text.shownRecord "HttpRequest"
    [("method", r.method), ("uri", Text.shown r.url.href),
      ("headers", Text.ofNat r.headers.length),
      ("body", Text.shownOption (r.body.map fun body => Text.ofNat body.length))]
    false

end Request

/-- Why a body cannot be read. A client that reads it for a URL reports its own faults and time-outs. -/
inductive BodyFailure
  | io (reason : Text)
  | transport (url reason : Text)
  | timeout (url : Text)
  deriving DecidableEq, Repr

/-- The body of the reply with a number, counted from one: its bytes, or why they cannot be read. -/
structure Body where
  reply : Nat
  content : Except BodyFailure Bytes

structure Response where
  status : Nat
  headers : Headers
  body : Option Body

end HttpSession
