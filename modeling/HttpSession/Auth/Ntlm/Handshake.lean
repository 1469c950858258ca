import HttpSession.Auth.Challenge
import HttpSession.Auth.Credentials
import HttpSession.Auth.Draws
import HttpSession.Auth.Ntlm.Message

/-!
# The NTLM handshake

An empty challenge asks for the first message, a challenge with a token for the last one. Servers behind
others may send either out of turn: a token is taken at any stage as long as the bound on challenges
allows, and a failed handshake begins anew as long as the bound on restarts allows. What the messages
say is the matter of an engine.
-/

namespace HttpSession.Auth

namespace Ntlm

/-- The bounds on challenges taken out of turn and on restarts. -/
structure Limits where
  challenges : Nat := 10
  restarts : Nat := 10
  deriving DecidableEq, Repr

structure Engine where
  /-- The first message, of a domain and a workstation. -/
  negotiate : Option Text → Option Text → Except Fault Text
  /-- The last message, of credentials and the token of the server, at some moment. -/
  respond : Credentials → Text → Instant → Draws → Except Fault Text × Draws

/-- The messages of NTLM version 2, in Base64. A number is drawn once the token is read. -/
def version2 : Engine where
  negotiate domain workstation := (type1 domain workstation).map Base64.encode
  respond credentials token now draws :=
    match Type2.decode token with
    | .error fault => (.error fault, draws)
    | .ok server =>
      let network := credentials.network.getD ⟨none, none⟩
      let who : Identity :=
        ⟨credentials.user, credentials.password, network.domain.getD [], network.workstation.getD []⟩
      let (draw, rest) := draws.next
      ((type3 who server (Draws.bytes draw) now).map Base64.encode, rest)

end Ntlm

structure Ntlm where
  limits : Ntlm.Limits
  side : Option Side := none
  stage : Stage := .uninitiated
  token : Text := []
  challenges : Nat := 0
  restarts : Nat := 0
  deriving DecidableEq, Repr

namespace Ntlm

/-- The stage behind an empty challenge, which is in turn only at the beginning. -/
def askedStage : Stage → Stage
  | .uninitiated => .challengeReceived
  | _ => .failed

/-- The stage behind a token past the bound on challenges; it is out of sequence before the first
message was sent. -/
def lateStage : Stage → Option Stage
  | .uninitiated | .challengeReceived => none
  | .type1Sent => some .type2Received
  | stage => some stage

def take (n : Ntlm) (c : Challenge) : Except ChallengeFault Unit × Ntlm :=
  let token := c.token.getD []
  let heard := { n with side := some c.side, token }
  if token = [] then (.ok (), { heard with stage := askedStage n.stage })
  else
    let counted := { heard with challenges := n.challenges + 1 }
    if n.challenges < n.limits.challenges then (.ok (), { counted with stage := .type2Received })
    else
      match lateStage n.stage with
      | some stage => (.ok (), { counted with stage })
      | none => (.error .outOfSequence, { counted with stage := .failed })

def restart (n : Ntlm) : Ntlm :=
  if n.stage = .failed ∧ n.restarts < n.limits.restarts then
    { n with stage := .challengeReceived, restarts := n.restarts + 1 }
  else n

def send (engine : Engine) (n : Ntlm) (c : Credentials) (network : Network) (now : Instant)
    (draws : Draws) : Except Fault Text × Ntlm × Draws :=
  match n.stage with
  | .failed => (.error .handshakeFailed, n, draws)
  | .challengeReceived =>
    match engine.negotiate network.domain network.workstation with
    | .error fault => (.error fault, n, draws)
    | .ok message => (.ok ("NTLM " ++ message), { n with stage := .type1Sent }, draws)
  | .type2Received =>
    match engine.respond c n.token now draws with
    | (.error fault, rest) => (.error fault, n, rest)
    | (.ok message, rest) => (.ok ("NTLM " ++ message), { n with stage := .type3Sent }, rest)
  | stage => (.error (.handshakeStage stage), n, draws)

def answer (engine : Engine) (n : Ntlm) (c : Credentials) (now : Instant) (draws : Draws) :
    Except Fault Text × Ntlm × Draws :=
  match c.network with
  | none => (.error .foreignCredentials, n, draws)
  | some network => n.restart.send engine c network now draws

def isComplete (n : Ntlm) : Bool := n.stage = .type3Sent || n.stage = .failed

end Ntlm

end HttpSession.Auth
