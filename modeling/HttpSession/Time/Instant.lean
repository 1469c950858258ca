import HttpSession.Text.Basic

/-!
# Instants

A moment is a number of seconds since 1970-01-01T00:00:00Z and a fraction in nanoseconds, which is added
to them also before that date. Seconds are kept in 64 bits with a sign, as the clocks of operating systems
keep them, so adding to an instant can leave the range.
-/

namespace HttpSession

structure Instant where
  seconds : Int
  nanos : Nat := 0
  deriving DecidableEq, Repr, Inhabited

namespace Instant

def epoch : Instant := ⟨0, 0⟩

def lastSecond : Int := 0x7FFFFFFFFFFFFFFF

def notAfter (s t : Instant) : Bool :=
  s.seconds < t.seconds || (s.seconds = t.seconds && s.nanos ≤ t.nanos)

/-- Later by whole seconds, unless that leaves the range. -/
def later? (t : Instant) (seconds : Nat) : Option Instant :=
  if t.seconds + seconds ≤ lastSecond then some { t with seconds := t.seconds + seconds } else none

theorem notAfter_trans {s t u : Instant} (h : s.notAfter t = true) (k : t.notAfter u = true) :
    s.notAfter u = true := by
  simp only [notAfter, Bool.or_eq_true, decide_eq_true_eq, Bool.and_eq_true] at *
  omega

end Instant

end HttpSession
