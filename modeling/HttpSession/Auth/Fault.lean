import HttpSession.Bytes.Base64

/-!
# Why a scheme has no answer

The reasons for which a scheme cannot answer a challenge with the credentials at hand.
-/

namespace HttpSession.Auth

/-- Where an NTLM handshake stands, in the order of a handshake that goes well. -/
inductive Stage
  | uninitiated
  | challengeReceived
  | type1Sent
  | type2Received
  | type3Sent
  | failed
  deriving DecidableEq, Repr

def Stage.text : Stage → Text
  | .uninitiated => "UNINITIATED"
  | .challengeReceived => "CHALLENGE_RECEIVED"
  | .type1Sent => "TYPE1_SENT"
  | .type2Received => "TYPE2_RECEIVED"
  | .type3Sent => "TYPE3_SENT"
  | .failed => "FAILED"

inductive Fault
  | headerCharacters
  | missingRealm
  | missingNonce
  | qop (offered : Text)
  | algorithm (name : Text)
  | foreignCredentials
  | handshakeFailed
  | handshakeStage (stage : Stage)
  | encoding (error : Base64.Error)
  | notType2
  | targetInfo
  | fieldSize
  | noScheme
  deriving DecidableEq, Repr

def Fault.isOfCredentials (f : Fault) : Bool := f = .foreignCredentials

def Fault.reason : Fault → Text
  | .headerCharacters => "credential contains invalid header characters"
  | .missingRealm => "missing realm in challenge"
  | .missingNonce => "missing nonce in challenge"
  | .qop offered => "none of the qop methods is supported: " ++ offered
  | .algorithm name => "unsupported digest algorithm: " ++ name
  | .foreignCredentials => "credentials cannot be used for NTLM authentication"
  | .handshakeFailed => "NTLM authentication failed"
  | .handshakeStage stage => "unexpected NTLM state: " ++ stage.text
  | .encoding error => "invalid NTLM challenge encoding: " ++ error.message
  | .notType2 => "NTLM challenge is not a Type 2 message"
  | .targetInfo => "NTLM target info out of bounds"
  | .fieldSize => "NTLM message field too large"
  | .noScheme => "auth scheme is not set"

def Fault.message (f : Fault) : Text :=
  (if f.isOfCredentials then "invalid credentials: " else "authentication error: " : String).toList ++
    f.reason

end HttpSession.Auth
