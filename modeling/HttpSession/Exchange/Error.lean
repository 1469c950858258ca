import HttpSession.Auth.Fault
import HttpSession.Message.Request
import HttpSession.Message.Status

/-!
# What ends an exchange

Only what is fatal ends an exchange. A violation of the protocol leaves the connection usable, so what
is left of a response is read; where the connection itself failed, it is closed.
-/

namespace HttpSession

inductive Violation
  | noHost (url : Text)
  | emptyHostName
  | noLocation (status : Nat)
  | relativeLocation (written : Text)
  | location (written : Text) (error : Url.Error)
  | tunnelTarget (target : Endpoint) (error : Url.Error)
  | connectReply (status : Nat)
  /-- What the connection reports. -/
  | reported (message : Text)
  deriving DecidableEq, Repr

def Violation.reason : Violation → Text
  | .noHost url => "no target host in " ++ url
  | .emptyHostName => "target host name is empty"
  | .noLocation status =>
    "received redirect response " ++ Status.text status ++ " but no location header"
  | .relativeLocation written => "relative redirect location '" ++ written ++ "' not allowed"
  | .location written error => "invalid redirect URI " ++ written ++ ": " ++ error.message
  | .tunnelTarget target error => "invalid tunnel target " ++ target.text ++ ": " ++ error.message
  | .connectReply status => "unexpected response to CONNECT request: " ++ Status.text status
  | .reported message => message

inductive Doing
  | sending
  | reading
  | requesting (url : Text)
  deriving DecidableEq, Repr

def Doing.fault : Doing → Text
  | .sending => "I/O error sending request"
  | .reading => "I/O error reading body"
  | .requesting url => "transport error requesting " ++ url

inductive ExchangeError
  | unsupportedPolicy (policy : Text)
  | redirectLimit (bound : Nat)
  | redirectWithoutHost (url : Text)
  | circularRedirect (url : Text)
  | protocol (violation : Violation)
  | tunnelRefused (status : Nat)
  | auth (fault : Auth.Fault)
  | timeout (url : Text)
  | io (doing : Doing) (reason : Text)
  deriving DecidableEq, Repr

namespace ExchangeError

def message : ExchangeError → Text
  | .unsupportedPolicy policy => "unsupported cookie policy: " ++ policy
  | .redirectLimit bound => "maximum redirects (" ++ Text.ofNat bound ++ ") exceeded"
  | .redirectWithoutHost url => "redirect URI does not specify a valid host name: " ++ url
  | .circularRedirect url => "circular redirect to '" ++ url ++ "'"
  | .protocol violation => "protocol error: " ++ violation.reason
  | .tunnelRefused status => "CONNECT refused by proxy: HTTP " ++ Text.ofNat status
  | .auth fault => fault.message
  | .timeout url => "timeout requesting " ++ url
  | .io doing reason => doing.fault ++ ": " ++ reason

/-- Whether the connection is still usable. -/
def isProtocol : ExchangeError → Bool
  | .timeout _ | .io _ _ => false
  | _ => true

end ExchangeError

def BodyFailure.error : BodyFailure → ExchangeError
  | .io reason => .io .reading reason
  | .transport url reason => .io (.requesting url) reason
  | .timeout url => .timeout url

@[simp] theorem BodyFailure.isProtocol_error (failure : BodyFailure) : failure.error.isProtocol = false := by
  cases failure <;> rfl

end HttpSession
