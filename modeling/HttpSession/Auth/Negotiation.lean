import HttpSession.Auth.Strategy

/-!
# Negotiations

A negotiation with one side goes through phases. A response either asks for authentication or settles
what went before (`hear`); its challenges are taken up or end the negotiation (`react`); and a request
gets an answer if one is due (`answer`).

By its type, a negotiation holds nothing, or a scheme with its credentials, or candidates to choose from,
and never two of these. A record with an optional field for each of them (`Auth.State`) goes through the same
states.
-/

namespace HttpSession.Auth

inductive Phase
  | unchallenged
  | challenged
  | handshake
  | failure
  | success
  deriving DecidableEq, Repr

def Phase.text : Phase → Text
  | .unchallenged => "UNCHALLENGED"
  | .challenged => "CHALLENGED"
  | .handshake => "HANDSHAKE"
  | .failure => "FAILURE"
  | .success => "SUCCESS"

/-- What a negotiation holds. Making a candidate active drops the others, and selecting new candidates drops
the active one. -/
inductive Holding
  | idle
  | active (candidate : Candidate)
  | pending (candidates : List Candidate)
  deriving DecidableEq, Repr

structure Negotiation where
  phase : Phase := .unchallenged
  holding : Holding := .idle
  deriving DecidableEq, Repr

namespace Negotiation

/-! ## Views -/

def active? (n : Negotiation) : Option Candidate :=
  match n.holding with
  | .active candidate => some candidate
  | .idle | .pending _ => none

def scheme? (n : Negotiation) : Option Scheme := n.active?.map (·.scheme)

def pending? (n : Negotiation) : Option (List Candidate) :=
  match n.holding with
  | .pending candidates => some candidates
  | .idle | .active _ => none

def isConnectionBased (n : Negotiation) : Bool := n.scheme?.any Scheme.isConnectionBased

def text (n : Negotiation) : Text :=
  "state:" ++ n.phase.text ++
    Text.optional n.scheme? fun scheme => ";auth scheme:" ++ scheme.name ++ ";credentials present"

def failed : Negotiation := { phase := .failure }

def install (n : Negotiation) (candidate : Candidate) : Negotiation :=
  { n with holding := .active candidate }

/-! ## Responses -/

/-- Notes whether a response asks for authentication. If it does after a success, what succeeded has
failed; if it does not, what was under way has succeeded. -/
def hear (n : Negotiation) (side : Side) (status : Nat) : Bool × Negotiation × List Notice :=
  if status = side.status then
    (true, n, if n.phase = .success then [.failed n.scheme?] else [])
  else
    match n.phase with
    | .challenged | .handshake =>
      (false, { n with phase := .success }, n.scheme?.toList.map Notice.succeeded)
    | .success => (false, n, [])
    | .unchallenged | .failure => (false, { n with phase := .unchallenged }, [])

/-- What a host is answered with: its strategy, and the configured order of preference. -/
structure Env where
  strategy : Strategy
  host : Endpoint
  preferred : Option (List Text)

def choose (n : Negotiation) (env : Env) (challenges : List Challenge) :
    Bool × Negotiation × List Notice :=
  match env.strategy.select env.host env.preferred challenges with
  | [] => (false, n, [])
  | candidates => (true, ⟨.challenged, .pending candidates⟩, [])

/-- Goes on with the active scheme: its next challenge is either a refusal or one more round. A challenge
that it cannot take ends the negotiation. -/
def proceed (candidate : Candidate) (challenge : Challenge) : Bool × Negotiation × List Notice :=
  match candidate.scheme.take challenge with
  | (.error _, _) => (false, {}, [])
  | (.ok _, scheme) =>
    if scheme.isComplete then (false, failed, [.failed (some scheme)])
    else (true, ⟨.handshake, .active { candidate with scheme }⟩, [])

def takeUp (n : Negotiation) (env : Env) (challenges : List Challenge) :
    Bool × Negotiation × List Notice :=
  match n.active? with
  | none => n.choose env challenges
  | some candidate =>
    match Strategy.challengeOf? challenges candidate.scheme.name with
    | some challenge => proceed candidate challenge
    | none => choose {} env challenges

/-- Takes up the challenges of a response, and says whether the request is to be sent again. A success
that is challenged begins anew; a negotiation under way without a scheme has failed; one that failed
stays so. -/
def react (n : Negotiation) (env : Env) (h : Headers) : Bool × Negotiation × List Notice :=
  match env.strategy.challenges h with
  | .error _ => (false, {}, [])
  | .ok [] => (false, n, [])
  | .ok challenges =>
    match n.phase with
    | .failure => (false, n, [])
    | .success => takeUp {} env challenges
    | .challenged | .handshake =>
      if n.active?.isNone then (false, failed, [.failed none]) else n.takeUp env challenges
    | .unchallenged => n.takeUp env challenges

/-! ## Requests -/

structure Outcome where
  answer : Except Fault (Option Answer)
  negotiation : Negotiation
  draws : Draws

def answerActive (n : Negotiation) (candidate : Candidate) (request : Request) (now : Instant)
    (draws : Draws) : Outcome :=
  let (result, scheme, draws) := candidate.scheme.answer candidate.credentials request now draws
  ⟨.ok result.toOption, n.install { candidate with scheme }, draws⟩

/-- Answers with the first candidate that can; one that cannot is passed over, and the last of them
stays. -/
def answerFirst (request : Request) (now : Instant) (held : Holding) :
    List Candidate → Draws → Option Answer × Holding × Draws
  | [], draws => (none, held, draws)
  | candidate :: rest, draws =>
    match candidate.scheme.answer candidate.credentials request now draws with
    | (.ok answer, scheme, draws) => (some answer, .active { candidate with scheme }, draws)
    | (.error _, scheme, draws) => answerFirst request now (.active { candidate with scheme }) rest draws

/-- The answer for a request, if one is due. A connection that is authenticated needs none. -/
def answer (n : Negotiation) (request : Request) (now : Instant) (draws : Draws) : Outcome :=
  match n.phase, n.holding with
  | .failure, _ => ⟨.ok none, n, draws⟩
  | .success, .active candidate =>
    if candidate.scheme.isConnectionBased then ⟨.ok none, n, draws⟩
    else n.answerActive candidate request now draws
  | .success, _ => ⟨.error .noScheme, n, draws⟩
  | .challenged, .pending candidates =>
    let (answer, holding, draws) := answerFirst request now .idle candidates draws
    ⟨.ok answer, { n with holding }, draws⟩
  | .challenged, .idle => ⟨.error .noScheme, n, draws⟩
  | _, .active candidate => n.answerActive candidate request now draws
  | _, _ => ⟨.ok none, n, draws⟩

def attach (h : Headers) : Option Answer → Headers
  | some answer => h.replace answer.side.answerHeader answer.value
  | none => h

end Negotiation

end HttpSession.Auth
