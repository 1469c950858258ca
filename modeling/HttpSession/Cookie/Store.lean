import HttpSession.Cookie.Basic

/-!
# The cookie store

A store holds at most one cookie of each identity, in the order of their keys. Adding a cookie that is
expired takes away the one it would replace.
-/

namespace HttpSession.Cookie

structure Store where
  toList : List Cookie := []
  deriving DecidableEq, Repr

namespace Store

/-- Puts a cookie where its key belongs, in place of one with the same key. -/
def insertSorted (c : Cookie) : List Cookie → List Cookie
  | [] => [c]
  | d :: rest =>
    if c.key.before d.key then c :: d :: rest
    else if c.key = d.key then c :: rest
    else d :: insertSorted c rest

def add (s : Store) (now : Instant) (c : Cookie) : Store :=
  if c.expiredAt now then ⟨s.toList.filter (·.key ≠ c.key)⟩ else ⟨insertSorted c s.toList⟩

def addAll (s : Store) (now : Instant) (cookies : List Cookie) : Store :=
  cookies.foldl (·.add now) s

/-- Takes away what is expired at some moment, and counts it. -/
def clearExpired (s : Store) (now : Instant) : Nat × Store :=
  let kept := s.toList.filter (!·.expiredAt now)
  (s.toList.length - kept.length, ⟨kept⟩)

def purge (s : Store) (now : Instant) : Store := (s.clearExpired now).2

def expiredCount (s : Store) (now : Instant) : Nat := (s.clearExpired now).1

@[simp] theorem toList_purge (s : Store) (now : Instant) :
    (s.purge now).toList = s.toList.filter (!·.expiredAt now) := rfl

end Store

end HttpSession.Cookie
