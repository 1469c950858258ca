import HttpSession.Text.Basic

/-!
# Configuration of exchanges

The switches and bounds of an exchange. Every logical request is sent at least once, so the bound on
rounds is at least one.
-/

namespace HttpSession

structure Config where
  /-- The cookie policy, in place of the usual one. -/
  cookiePolicy : Option Text := none
  followsRedirects : Bool := true
  maxRedirects : Nat := 50
  relativeRedirects : Bool := true
  circularRedirects : Bool := false
  authenticates : Bool := true
  /-- How often a request is sent, at most, while challenges are answered. -/
  maxRounds : Nat := 10
  /-- The orders of preference among schemes, in place of the usual one. -/
  targetSchemes : Option (List Text) := none
  proxySchemes : Option (List Text) := none
  deriving DecidableEq, Repr

namespace Config

def withMaxRounds (c : Config) (rounds : Nat) : Config := { c with maxRounds := max 1 rounds }

def furtherRounds (c : Config) : Nat := c.maxRounds - 1

end Config

end HttpSession
