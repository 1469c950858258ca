import HttpSession.Text.Basic

/-!
# Cookie paths

A cookie belongs to a path and to everything below it, where a slash begins what is below.
-/

namespace HttpSession.Cookie

/-- The path of a request up to its last slash, which is left out unless it is the root. -/
def defaultPath (request : Text) : Text :=
  match request.cutLast? (· = '/') with
  | none | some ([], _) => "/"
  | some (before, _) => before

/-- A path without the slash at its end; an empty path is the root. -/
def folder (path : Text) : Text :=
  if path = [] ∨ path = ['/'] then ['/'] else (path.before? ['/']).getD path

def pathMatch (request path : Text) : Bool :=
  match request.after? (folder path) with
  | none => false
  | some rest => rest = [] || (folder path).getLast? = some '/' || rest.head? = some '/'

end HttpSession.Cookie
