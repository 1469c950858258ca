import HttpSession.Text.Shown
import HttpSession.Text.Uppercase

/-!
# Credentials

A user name and a password, and for Windows networks perhaps a domain and a workstation, which are kept
in upper case. Passwords are not shown.
-/

namespace HttpSession.Auth

structure Network where
  domain : Option Text
  workstation : Option Text
  deriving DecidableEq, Repr

structure Credentials where
  user : Text
  password : Text
  network : Option Network := none
  deriving DecidableEq, Repr

namespace Credentials

def windows (user password : Text) (domain workstation : Option Text) : Credentials :=
  { user, password,
    network := some ⟨domain.map Text.upperCase, workstation.map Text.upperCase⟩ }

/-- The user, behind the domain and a backslash if there is a domain. -/
def principal (c : Credentials) : Text :=
  match c.network.bind (·.domain) with
  | some domain => domain ++ "\\" ++ c.user
  | none => c.user

/-- The credentials as a record, without the password. -/
def shown (c : Credentials) : Text :=
  match c.network with
  | none =>
    Text.shownRecord "UsernamePassword" [("user", Text.shown c.user), ("password", Text.redacted)] false
  | some network =>
    Text.shownRecord "Nt"
      [("user", Text.shown c.user), ("password", Text.redacted),
        ("domain", Text.shownOption (network.domain.map Text.shown)),
        ("workstation", Text.shownOption (network.workstation.map Text.shown))]
      false

end Credentials

end HttpSession.Auth
