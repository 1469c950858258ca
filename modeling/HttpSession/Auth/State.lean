import HttpSession.Auth.Negotiation

/-!
# Negotiations as records

A negotiation kept as a record: its phase, and three fields each of which may be empty. Nothing in the type
says which of them go together; every change goes through the few operations below. What comes of a response
or a request is worked out on the record in the order in which the fields are read and written.
-/

namespace HttpSession.Auth

structure State where
  phase : Phase := .unchallenged
  scheme : Option Scheme := none
  credentials : Option Credentials := none
  options : Option (List Candidate) := none
  deriving DecidableEq, Repr

namespace State

open Negotiation (Env)

/-! ## Changes -/

def reset (_ : State) : State := {}

def setPhase (s : State) (phase : Phase) : State := { s with phase }

def update (s : State) (scheme : Scheme) (credentials : Credentials) : State :=
  { s with scheme := some scheme, credentials := some credentials, options := none }

def updateOptions (s : State) (options : List Candidate) : State :=
  { s with options := some options, scheme := none, credentials := none }

def takeOptions (s : State) : Option (List Candidate) × State := (s.options, { s with options := none })

def setScheme (s : State) (scheme : Scheme) : State := { s with scheme := some scheme }

def schemeAndCredentials? (s : State) : Option (Scheme × Credentials) :=
  match s.scheme, s.credentials with
  | some scheme, some credentials => some (scheme, credentials)
  | _, _ => none

/-! ## Responses -/

def hear (s : State) (side : Side) (status : Nat) : Bool × State × List Notice :=
  if status = side.status then (true, s, if s.phase = .success then [.failed s.scheme] else [])
  else
    match s.phase with
    | .challenged | .handshake =>
      let s := s.setPhase .success
      (false, s, s.scheme.toList.map Notice.succeeded)
    | .success => (false, s, [])
    | .unchallenged | .failure => (false, s.setPhase .unchallenged, [])

/-- What comes of challenges. One that the active scheme cannot take is an error. -/
abbrev Processed := Except ChallengeFault Bool × State × List Notice

def choose (s : State) (env : Env) (challenges : List Challenge) : Processed :=
  match env.strategy.select env.host env.preferred challenges with
  | [] => (.ok false, s, [])
  | options => (.ok true, (s.updateOptions options).setPhase .challenged, [])

def takeUp (s : State) (env : Env) (challenges : List Challenge) : Processed :=
  match s.scheme with
  | none => s.choose env challenges
  | some scheme =>
    match Strategy.challengeOf? challenges scheme.name.lower with
    | none => s.reset.choose env challenges
    | some challenge =>
      match scheme.take challenge with
      | (.error fault, scheme) => (.error fault, s.setScheme scheme, [])
      | (.ok _, scheme) =>
        let s := s.setScheme scheme
        if scheme.isComplete then (.ok false, s.reset.setPhase .failure, [.failed s.scheme])
        else (.ok true, s.setPhase .handshake, [])

def process (s : State) (env : Env) (h : Headers) : Processed :=
  match env.strategy.challenges h with
  | .error fault => (.error fault, s, [])
  | .ok [] => (.ok false, s, [])
  | .ok challenges =>
    match s.phase with
    | .failure => (.ok false, s, [])
    | .success => s.reset.takeUp env challenges
    | .challenged | .handshake =>
      if s.scheme.isNone then (.ok false, s.reset.setPhase .failure, [.failed none])
      else s.takeUp env challenges
    | .unchallenged => s.takeUp env challenges

/-- An error ends the negotiation; it is not passed on. -/
def Processed.settled : Processed → Bool × State × List Notice
  | (.ok again, s, notices) => (again, s, notices)
  | (.error _, s, notices) => (false, s.reset, notices)

def react (s : State) (env : Env) (h : Headers) : Bool × State × List Notice :=
  (s.process env h).settled

/-! ## Requests -/

def answerActive (s : State) (request : Request) (now : Instant) (draws : Draws) :
    Except Fault (Option Answer) × State × Draws :=
  match s.schemeAndCredentials? with
  | none => (.ok none, s, draws)
  | some (scheme, credentials) =>
    let (result, scheme, draws) := scheme.answer credentials request now draws
    (.ok result.toOption, s.setScheme scheme, draws)

/-- Tries options one after the other; each becomes active before it is asked. -/
def answerFirst (s : State) (request : Request) (now : Instant) :
    List Candidate → Draws → Except Fault (Option Answer) × State × Draws
  | [], draws => (.ok none, s, draws)
  | option :: rest, draws =>
    let s := s.update option.scheme option.credentials
    match option.scheme.answer option.credentials request now draws with
    | (.ok answer, scheme, draws) => (.ok (some answer), s.setScheme scheme, draws)
    | (.error _, scheme, draws) => answerFirst (s.setScheme scheme) request now rest draws

def answer (s : State) (request : Request) (now : Instant) (draws : Draws) :
    Except Fault (Option Answer) × State × Draws :=
  match s.phase with
  | .failure => (.ok none, s, draws)
  | .success =>
    match s.scheme with
    | none => (.error .noScheme, s, draws)
    | some scheme =>
      if scheme.isConnectionBased then (.ok none, s, draws) else s.answerActive request now draws
  | .challenged =>
    match s.takeOptions with
    | (some options, s) => s.answerFirst request now options draws
    | (none, s) =>
      if s.scheme.isNone then (.error .noScheme, s, draws) else s.answerActive request now draws
  | .unchallenged | .handshake => s.answerActive request now draws

end State

end HttpSession.Auth
