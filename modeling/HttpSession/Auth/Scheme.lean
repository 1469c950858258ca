import HttpSession.Auth.Basic
import HttpSession.Auth.Digest
import HttpSession.Auth.Ntlm.Handshake

/-!
# Schemes

A scheme takes challenges and answers them with credentials. Basic and Digest answer every request anew;
NTLM authenticates a connection. Schemes are found by name, whose case does not count.
-/

namespace HttpSession.Auth

inductive Kind
  | basic
  | digest
  | ntlm (limits : Ntlm.Limits)
  deriving DecidableEq, Repr

inductive Scheme
  | basic (state : Basic)
  | digest (state : Digest)
  | ntlm (state : Ntlm)
  deriving DecidableEq, Repr

/-- What is sent in answer to challenges: a value for the header of a side, with the scheme and the
credentials it was made from. -/
structure Answer where
  side : Side
  value : Bytes
  scheme : Text
  credentials : Credentials
  deriving DecidableEq, Repr

def Answer.shown (a : Answer) : Text :=
  Text.shownRecord "AuthHeader"
    [("name", Text.shown a.side.answerHeader), ("value", Text.redacted)] false

namespace Scheme

def new : Kind → Scheme
  | .basic => .basic {}
  | .digest => .digest {}
  | .ntlm limits => .ntlm { limits }

def name : Scheme → Text
  | .basic _ => "basic"
  | .digest _ => "digest"
  | .ntlm _ => "ntlm"

/-- Takes a challenge. A scheme that refuses one may still have noticed it. -/
def take (s : Scheme) (c : Challenge) : Except ChallengeFault Unit × Scheme :=
  match s with
  | .basic _ => (.ok (), .basic (Basic.take c))
  | .digest d =>
    match d.take c with
    | .ok d => (.ok (), .digest d)
    | .error fault => (.error fault, s)
  | .ntlm n =>
    let (result, n) := n.take c
    (result, .ntlm n)

/-- The side that sent the last challenge; the target if there was none. -/
def side (s : Scheme) : Side :=
  (match s with
    | .basic b => b.side
    | .digest d => d.side
    | .ntlm n => n.side).getD .target

def answerText (s : Scheme) (credentials : Credentials) (request : Request) (now : Instant)
    (draws : Draws) : Except Fault Text × Scheme × Draws :=
  match s with
  | .basic b => (.ok (Basic.answer credentials), .basic b, draws)
  | .digest d =>
    let (result, d, draws) := d.answer draws credentials request
    (result, .digest d, draws)
  | .ntlm n =>
    let (result, n, draws) := n.answer Ntlm.version2 credentials now draws
    (result, .ntlm n, draws)

def pack (s : Scheme) (credentials : Credentials) (text : Text) : Except Fault Answer :=
  match HeaderValue.ofText? text with
  | some value => .ok ⟨s.side, value, s.name, credentials⟩
  | none => .error .headerCharacters

def answer (s : Scheme) (credentials : Credentials) (request : Request) (now : Instant)
    (draws : Draws) : Except Fault Answer × Scheme × Draws :=
  let (result, next, draws) := s.answerText credentials request now draws
  (result.bind (s.pack credentials), next, draws)

/-- Whether there is nothing more to negotiate: a further challenge means a refusal. -/
def isComplete : Scheme → Bool
  | .basic b => b.complete
  | .digest d => d.isComplete
  | .ntlm n => n.isComplete

/-- Whether success holds for the connection rather than for one request. -/
def isConnectionBased : Scheme → Bool
  | .ntlm _ => true
  | .basic _ | .digest _ => false

def realm? : Scheme → Option Text
  | .basic b => b.realm
  | .digest d => d.param? "realm"
  | .ntlm _ => none

def stage? : Scheme → Option Stage
  | .ntlm n => some n.stage
  | .basic _ | .digest _ => none

end Scheme

/-- Makes the scheme for a name, if there is one, as one of the three of this library that has not begun. -/
structure Registry where
  create? : Text → Option Scheme
  isNew : ∀ name scheme, create? name = some scheme → ∃ kind, scheme = .new kind

abbrev Schemes := List (Text × Kind)

namespace Schemes

def register (s : Schemes) (name : Text) (kind : Kind) : Schemes :=
  s.filter (·.1 ≠ name.lower) ++ [(name.lower, kind)]

def create? (s : Schemes) (name : Text) : Option Scheme := (s.lookup name.lower).map Scheme.new

def known (limits : Ntlm.Limits) : Schemes :=
  [("basic", .basic), ("digest", .digest), ("ntlm", .ntlm limits)]

def registry (s : Schemes) : Registry where
  create? := s.create?
  isNew _ _ h := by
    obtain ⟨kind, -, hkind⟩ := Option.map_eq_some_iff.mp h
    exact ⟨kind, hkind.symm⟩

instance : Coe Schemes Registry := ⟨registry⟩

end Schemes

end HttpSession.Auth
