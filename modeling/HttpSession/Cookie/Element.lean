import HttpSession.Cookie.Error
import HttpSession.Text.Quotes

/-!
# Elements of cookie headers

An element is `name=value` and attributes behind semicolons; some headers hold several elements between
commas. Separators inside double quotes are part of the value.
-/

namespace HttpSession.Cookie

structure Attribute where
  name : Text
  value : Option Text
  deriving DecidableEq, Repr

structure Element where
  name : Text
  value : Text
  attributes : List Attribute
  deriving DecidableEq, Repr

namespace Element

def readAttribute (t : Text) : Attribute :=
  match t.cut? (· = '=') with
  | some (name, value) => ⟨name.trim.lower, some value.trim⟩
  | none => ⟨t.lower, none⟩

def readAttributes (parts : List Text) : List Attribute :=
  ((parts.map Text.trim).filter (· ≠ [])).map readAttribute

def readPair (t : Text) : Text × Text :=
  match t.cut? (· = '=') with
  | some (name, value) => (name.trim, value.trim)
  | none => (t, [])

def read (t : Text) : Except Malformation Element :=
  match t.splitUnquoted ';' with
  | [] => .error .emptyName
  | first :: rest =>
    let (name, value) := readPair first.trim
    if name = [] then .error .emptyName else .ok ⟨name, value, readAttributes rest⟩

def readAll (t : Text) : Except Malformation (List Element) :=
  ((t.splitUnquoted ',').filter (·.trim ≠ [])).mapM read

def has (e : Element) (name : Text) : Bool := e.attributes.any (·.name = name)

/-- Whether an element is one of versioned cookies: it names its version, and no date, whose commas
would cut it. -/
def isVersioned (e : Element) : Bool := e.has "version" && !e.has "expires"

end Element

end HttpSession.Cookie
