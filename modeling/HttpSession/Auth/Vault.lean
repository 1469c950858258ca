import HttpSession.Auth.Credentials

/-!
# Scopes and the vault

Credentials are kept for scopes: a host, a port, a realm and a scheme, of which each may be left open. A
request asks with a scope of its own and gets the credentials of the scope that names most of what it
asks for.

Main statement: a score counts which parts agree, the host before the port, the realm and the scheme
(`score?`).
-/

namespace HttpSession.Auth

/-- Where credentials apply; what is left open applies to anything. -/
structure Scope where
  host : Option Text := none
  port : Option Nat := none
  realm : Option Text := none
  scheme : Option Text := none
  deriving DecidableEq, Repr

namespace Scope

def of (host : Option Text) (port : Option Nat) (realm scheme : Option Text) : Scope :=
  ⟨host.map Text.lower, port, realm, scheme.map Text.lower⟩

def forHost (host : Text) (port : Option Nat) : Scope := { host := some host.lower, port }

/-- What a part of a scope counts: its weight if it is what is asked for, nothing if one of both is
open; `none` if they differ. -/
def part {α : Type} [DecidableEq α] (kept asked : Option α) (weight : Nat) : Option Nat :=
  match kept, asked with
  | some a, some b => if a = b then some weight else none
  | _, _ => some 0

/-- How much of what is asked for a scope names; `none` if they differ in some part. -/
def score? (kept asked : Scope) : Option Nat := do
  let host ← part kept.host asked.host 8
  let port ← part kept.port asked.port 4
  let realm ← part kept.realm asked.realm 2
  let scheme ← part kept.scheme asked.scheme 1
  some (host + port + realm + scheme)

def text (s : Scope) : Text :=
  Text.optional s.scheme (fun scheme => scheme.upperCase ++ " ") ++
    (match s.realm with
      | some realm => "'" ++ realm ++ "'"
      | none => "<any realm>" : Text) ++
    Text.optional s.host fun host =>
      "@" ++ host ++ Text.optional s.port fun port => ":" ++ Text.ofNat port

end Scope

structure Provider where
  find? : Scope → Option Credentials

abbrev Vault := List (Scope × Credentials)

namespace Vault

def set (v : Vault) (scope : Scope) (credentials : Credentials) : Vault :=
  v.filter (·.1 ≠ scope) ++ [(scope, credentials)]

/-- The better of two scored credentials; of equals the first. -/
def better (best : Option (Nat × Credentials)) (next : Nat × Credentials) : Option (Nat × Credentials) :=
  match best with
  | none => some next
  | some best => if best.1 < next.1 then some next else some best

/-- The credentials for a scope that is asked for: those of that very scope, else those of the scope
with the highest score. -/
def find? (v : Vault) (asked : Scope) : Option Credentials :=
  match v.lookup asked with
  | some credentials => some credentials
  | none =>
    let scored := v.filterMap fun (kept, credentials) => (kept.score? asked).map (·, credentials)
    (scored.foldl better none).map (·.2)

instance : Coe Vault Provider := ⟨fun vault => ⟨vault.find?⟩⟩

end Vault

end HttpSession.Auth
