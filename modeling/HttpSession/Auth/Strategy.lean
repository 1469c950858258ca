import HttpSession.Auth.Scheme
import HttpSession.Auth.Vault

/-!
# Choosing schemes

Of the challenges in a response, those are taken up whose scheme is known and for which there are
credentials, in an order of preference. The scheme that succeeded last with a host comes first.
-/

namespace HttpSession.Auth

structure Candidate where
  scheme : Scheme
  credentials : Credentials
  deriving DecidableEq, Repr

inductive Notice
  | succeeded (scheme : Scheme)
  | failed (scheme : Option Scheme)
  deriving DecidableEq, Repr

/-- How a side is answered: what makes schemes, what has credentials, and the scheme that succeeded last with
each host. -/
structure Strategy where
  side : Side
  schemes : Registry
  vault : Provider
  cache : List (Endpoint × Text) := []

namespace Strategy

/-! ## What succeeded before -/

def cachedScheme (s : Strategy) (host : Endpoint) : Option Text := s.cache.lookup host.normalized

def forget (s : Strategy) (host : Endpoint) : Strategy :=
  { s with cache := s.cache.filter (·.1 ≠ host.normalized) }

/-- Takes note of what was learned about a host. Only a scheme that has nothing more to negotiate and
answers every request anew is remembered. -/
def note (s : Strategy) (host : Endpoint) : Notice → Strategy
  | .succeeded scheme =>
    if scheme.isComplete ∧ ¬ scheme.isConnectionBased then
      { s with cache := (host.normalized, scheme.name) :: (s.forget host).cache }
    else s
  | .failed _ => s.forget host

def noteAll (s : Strategy) (host : Endpoint) (notices : List Notice) : Strategy :=
  notices.foldl (·.note host) s

/-- What is learned changes nothing but what is remembered. -/
theorem note_books (s : Strategy) (host : Endpoint) (notice : Notice) :
    { s.note host notice with cache := [] } = { s with cache := [] } := by
  cases notice with
  | succeeded scheme => simp only [note]; split <;> rfl
  | failed scheme => rfl

/-! ## Challenges -/

def firstOfEach : List Challenge → List Challenge
  | [] => []
  | c :: rest => c :: (firstOfEach rest).filter (·.scheme ≠ c.scheme)

/-- The challenges of a response, the first of each scheme; those that cannot be read are passed over.
It is an error if some value is not text. -/
def challenges (s : Strategy) (h : Headers) : Except ChallengeFault (List Challenge) :=
  match (h.values s.side.challengeHeader).mapM HeaderValue.text? with
  | none => .error .notText
  | some values =>
    .ok (firstOfEach (values.filterMap fun value => (Challenge.read s.side value).toOption))

def challengeOf? (challenges : List Challenge) (name : Text) : Option Challenge :=
  challenges.find? (·.scheme = name)

/-! ## Selection -/

/-- The order of preference when none is configured: the strongest scheme first. -/
def usualOrder : List Text := ["ntlm", "digest", "basic"]

def toFront (name : Text) (order : List Text) : List Text :=
  if name ∈ order then name :: order.erase name else order

def order (s : Strategy) (host : Endpoint) (preferred : Option (List Text)) : List Text :=
  let order : List Text := (preferred.map (·.map Text.lower)).getD usualOrder
  match s.cachedScheme host with
  | some name => toFront name order
  | none => order

def scopeFor (host : Endpoint) (scheme : Scheme) : Scope :=
  .of (some host.hostname) (some host.effectivePort) scheme.realm? (some scheme.name)

def candidate? (s : Strategy) (host : Endpoint) (c : Challenge) : Option Candidate := do
  let scheme ← s.schemes.create? c.scheme
  let (taken, scheme) := scheme.take c
  let _ ← taken.toOption
  let credentials ← s.vault.find? (scopeFor host scheme)
  some ⟨scheme, credentials⟩

def select (s : Strategy) (host : Endpoint) (preferred : Option (List Text))
    (challenges : List Challenge) : List Candidate :=
  (s.order host preferred).filterMap fun name =>
    (challengeOf? challenges name).bind (s.candidate? host)

end Strategy

end HttpSession.Auth
