import HttpSession.Cookie.Basic
import HttpSession.Text.Json

/-!
# Reports

What is told of an exchange when it is over: how it ended and where, the redirects on the way, the cookies
that are kept, and the body. A report is written as text or as JSON.
-/

namespace HttpSession

namespace Report

structure Entry where
  name : Text
  value : Text
  domain : Text
  path : Text
  secure : Bool
  expires : Option Text
  deriving DecidableEq, Repr

/-- What is told of a cookie; nothing can be told if its expiry has no date. -/
def Entry.of? (c : Cookie) : Option Entry := do
  let expires ←
    match c.expiry with
    | none => some none
    | some expiry => (HttpDate.format? expiry).map some
  some ⟨c.name, c.value, c.domain, c.path, c.secure, expires⟩

def Entry.text (e : Entry) : Text :=
  "cookie: " ++ e.name ++ "=" ++ e.value ++ " (domain=" ++ e.domain ++ ", path=" ++ e.path ++ ")\n"

def Entry.json (e : Entry) : Json :=
  .object
    [("name", .text e.name), ("value", .text e.value), ("domain", .text e.domain), ("path", .text e.path),
      ("secure", .bool e.secure),
      ("expires",
        match e.expires with
        | some date => .text date
        | none => .null)]

end Report

structure Report where
  status : Nat
  url : Text
  redirects : List Text
  cookies : List Report.Entry
  body : Text
  deriving DecidableEq, Repr

namespace Report

/-- The report of an exchange; there is none if the expiry of a cookie has no date. -/
def of? (status : Nat) (url : Text) (redirects : List Text) (cookies : List Cookie) (body : Text) :
    Option Report :=
  (cookies.mapM Entry.of?).map fun cookies => { status, url, redirects, cookies, body }

def redirectText (url : Text) : Text := "redirect: " ++ url ++ "\n"

def text (r : Report) : Text :=
  "status: " ++ Text.ofNat r.status ++ "\nurl: " ++ r.url ++ "\n" ++ r.redirects.flatMap redirectText ++
    r.cookies.flatMap Entry.text ++ "\n" ++ r.body ++ "\n"

def json (r : Report) : Json :=
  .object
    [("status", .number r.status), ("url", .text r.url), ("redirects", .array (r.redirects.map .text)),
      ("cookies", .array (r.cookies.map Entry.json)), ("body", .text r.body)]

end Report

end HttpSession
