import HttpSession.Auth.Challenge
import HttpSession.Auth.Credentials
import HttpSession.Bytes.Base64

/-!
# The Basic scheme

RFC 7617: the answer is the principal and the password in Base64, whatever was asked.
-/

namespace HttpSession.Auth

structure Basic where
  side : Option Side := none
  realm : Option Text := none
  complete : Bool := false
  deriving DecidableEq, Repr

namespace Basic

/-- Takes a challenge; there is nothing more to negotiate behind it. -/
def take (c : Challenge) : Basic := ⟨some c.side, c.param? "realm", true⟩

def answer (c : Credentials) : Text :=
  "Basic " ++ Base64.encode (Utf8.encode (c.principal ++ ":" ++ c.password))

end Basic

end HttpSession.Auth
