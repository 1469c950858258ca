import HttpSession.Url.Reading

/-!
# Endpoints and routes

An endpoint is what an exchange talks to: a scheme, a host name, and the port if it was given. A route
leads to a target, perhaps by way of a proxy, which then either forwards requests or tunnels them.
-/

namespace HttpSession

structure Endpoint where
  scheme : Text
  hostname : Text
  port : Option Nat
  deriving DecidableEq, Repr

namespace Endpoint

def of (scheme hostname : Text) (port : Option Nat) : Endpoint := ⟨scheme.lower, hostname.lower, port⟩

def ofUrl? (url : Url) : Option Endpoint := url.host?.map fun host => of url.scheme host url.port?

/-- The port of a scheme: 443 for `https`, 80 for all others. -/
def portOf (scheme : Text) : Nat := if scheme.lower = "https" then 443 else 80

def effectivePort (e : Endpoint) : Nat := e.port.getD (portOf e.scheme)

def normalized (e : Endpoint) : Endpoint := { e with port := some e.effectivePort }

def sameAs (e f : Endpoint) : Bool :=
  e.scheme = f.scheme && e.hostname = f.hostname && e.effectivePort = f.effectivePort

def isSecure (e : Endpoint) : Bool := e.scheme = "https"

def hostText (e : Endpoint) : Text :=
  e.hostname ++ Text.optional e.port fun port => ":" ++ Text.ofNat port

def text (e : Endpoint) : Text := e.scheme ++ "://" ++ e.hostText

theorem sameAs_iff_normalized_eq (e f : Endpoint) : e.sameAs f = true ↔ e.normalized = f.normalized := by
  simp [sameAs, normalized, and_assoc]

end Endpoint

structure Route where
  target : Endpoint
  proxy : Option Endpoint
  secure : Bool
  tunnelled : Bool
  deriving DecidableEq, Repr

namespace Route

def direct (target : Endpoint) : Route := ⟨target, none, target.isSecure, false⟩

/-- Through a proxy, which tunnels to secure targets and forwards to others. -/
def via (target proxy : Endpoint) : Route := ⟨target, some proxy, target.isSecure, target.isSecure⟩

/-- The route to a target with one proxy, or without; none leads to an empty name. -/
def resolve? (proxy : Option Endpoint) (target : Endpoint) : Option Route :=
  if target.hostname = [] then none
  else
    match proxy with
    | some proxy => some (via target.normalized proxy.normalized)
    | none => some (direct target.normalized)

def text (r : Route) : Text :=
  match r.proxy with
  | some proxy => proxy.text ++ (if r.tunnelled then " -> (tunnel) " else " -> " : Text) ++ r.target.text
  | none => r.target.text

end Route

end HttpSession
