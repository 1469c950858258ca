import HttpSession.Cookie.Element
import HttpSession.Text.Integer
import HttpSession.Time.Instant

/-!
# Values of attributes

The attributes that several policies read alike: ages and versions.
-/

namespace HttpSession.Cookie

def valueOf (name : Text) (value : Option Text) : Except Malformation Text :=
  match value.map Text.unquote with
  | none | some [] => .error (.missingValue name)
  | some written => .ok written

/-- The expiry of a cookie that may grow so many seconds old from now on. One that may not grow older is
expired; one that may outlive all instants has no expiry. -/
def readMaxAge (now : Instant) (value : Option Text) : Except Malformation (Option Instant) := do
  let written ← valueOf "max-age" value
  match Text.Width.signedDouble.read written with
  | .error _ => .error (.maxAge written)
  | .ok seconds => .ok (if seconds ≤ 0 then some .epoch else now.later? seconds.toNat)

def readVersion (value : Option Text) : Except Malformation Nat := do
  let written ← valueOf "version" value
  match Text.Width.word.readNat? written with
  | none => .error (.version written)
  | some version => .ok version

end HttpSession.Cookie
