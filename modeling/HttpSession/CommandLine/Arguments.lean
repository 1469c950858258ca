import HttpSession.Text.Integer

/-!
# Arguments

What a command line can say: one URL, switches, and parameters with one value each. Most of them may be
given once.
-/

namespace HttpSession.CommandLine

/-! ## Flags -/

inductive Switch
  | noRedirects
  | json
  | verbose
  | quiet
  | help
  | version
  deriving DecidableEq, Repr

inductive Parameter
  | method
  | header
  | data
  | user
  | ntlmDomain
  | proxy
  | proxyUser
  | cookies
  | cookiePolicy
  | maxRedirects
  | settings
  deriving DecidableEq, Repr

inductive Flag
  | switch (s : Switch)
  | parameter (p : Parameter)
  deriving DecidableEq, Repr

namespace Flag

def all : List Flag :=
  [.switch .noRedirects, .switch .json, .switch .verbose, .switch .quiet, .switch .help,
    .switch .version, .parameter .method, .parameter .header, .parameter .data, .parameter .user,
    .parameter .ntlmDomain, .parameter .proxy, .parameter .proxyUser, .parameter .cookies,
    .parameter .cookiePolicy, .parameter .maxRedirects, .parameter .settings]

def long : Flag → Text
  | .switch .noRedirects => "no-redirects"
  | .switch .json => "json"
  | .switch .verbose => "verbose"
  | .switch .quiet => "quiet"
  | .switch .help => "help"
  | .switch .version => "version"
  | .parameter .method => "method"
  | .parameter .header => "header"
  | .parameter .data => "data"
  | .parameter .user => "user"
  | .parameter .ntlmDomain => "ntlm-domain"
  | .parameter .proxy => "proxy"
  | .parameter .proxyUser => "proxy-user"
  | .parameter .cookies => "cookies"
  | .parameter .cookiePolicy => "cookie-policy"
  | .parameter .maxRedirects => "max-redirects"
  | .parameter .settings => "config"

def short? : Flag → Option Char
  | .switch .verbose => some 'v'
  | .switch .quiet => some 'q'
  | .switch .help => some 'h'
  | .switch .version => some 'V'
  | .parameter .method => some 'X'
  | .parameter .header => some 'H'
  | .parameter .data => some 'd'
  | .parameter .user => some 'u'
  | _ => none

def ofLong? (name : Text) : Option Flag := all.find? (·.long = name)

def ofShort? (letter : Char) : Option Flag := all.find? (·.short? = some letter)

end Flag

inductive Refusal
  | helpWanted
  | versionWanted
  | noUrl
  | unknownArgument
  | noValue
  | unfitValue
  | repeated
  | needlessValue
  deriving DecidableEq, Repr

def Refusal.message : Refusal → Text
  | .helpWanted => "usage: http-exchange [FLAGS] URL"
  | .versionWanted => "http-exchange"
  | .noUrl => "a URL is required"
  | .unknownArgument => "unexpected argument"
  | .noValue => "a value is required"
  | .unfitValue => "invalid value"
  | .repeated => "the argument cannot be used multiple times"
  | .needlessValue => "unexpected value"

/-- Showing help or the version is a success. -/
def Refusal.exitStatus : Refusal → UInt32
  | .helpWanted | .versionWanted => 0
  | _ => 2

/-! ## Options -/

structure Options where
  method : Option Text := none
  headers : List Text := []
  data : Option Text := none
  user : Option Text := none
  ntlmDomain : Option Text := none
  proxy : Option Text := none
  proxyUser : Option Text := none
  cookies : Option Text := none
  cookiePolicy : Option Text := none
  maxRedirects : Option Nat := none
  noRedirects : Bool := false
  /-- The file of settings, in place of the usual one. -/
  settings : Option Text := none
  json : Bool := false
  verbosity : Nat := 0
  quiet : Bool := false
  deriving DecidableEq, Repr

structure Arguments extends Options where
  url : Text
  deriving DecidableEq, Repr

namespace Options

def once {α : Type} (given : Option α) (value : α) : Except Refusal (Option α) :=
  if given.isSome then .error .repeated else .ok (some value)

/-- A path that may be given once; the empty path counts as none. -/
def pathOnce (given : Option Text) (path : Text) : Except Refusal (Option Text) := do
  let value ← once given path
  if path = [] then .error .noValue else .ok value

def redirectBound : Nat := 1000

def readRedirects (value : Text) : Except Refusal Nat :=
  match Text.Width.signedDouble.read value with
  | .error _ => .error .unfitValue
  | .ok n => if 0 ≤ n ∧ n ≤ redirectBound then .ok n.toNat else .error .unfitValue

def redirectsOnce (given : Option Nat) (value : Text) : Except Refusal (Option Nat) := do
  if given.isSome then .error .repeated else (readRedirects value).map some

def give (o : Options) (p : Parameter) (value : Text) : Except Refusal Options :=
  match p with
  | .method => (once o.method value).map ({ o with method := · })
  | .header => .ok { o with headers := o.headers ++ [value] }
  | .data => (once o.data value).map ({ o with data := · })
  | .user => (once o.user value).map ({ o with user := · })
  | .ntlmDomain => (once o.ntlmDomain value).map ({ o with ntlmDomain := · })
  | .proxy => (once o.proxy value).map ({ o with proxy := · })
  | .proxyUser => (once o.proxyUser value).map ({ o with proxyUser := · })
  | .cookies => (pathOnce o.cookies value).map ({ o with cookies := · })
  | .cookiePolicy => (once o.cookiePolicy value).map ({ o with cookiePolicy := · })
  | .maxRedirects => (redirectsOnce o.maxRedirects value).map ({ o with maxRedirects := · })
  | .settings => (pathOnce o.settings value).map ({ o with settings := · })

def turnOnce (given : Bool) : Except Refusal Bool := if given then .error .repeated else .ok true

/-- Turns a switch. Verbosity grows with each turn as long as it fits into a byte. -/
def turn (o : Options) : Switch → Except Refusal Options
  | .noRedirects => (turnOnce o.noRedirects).map ({ o with noRedirects := · })
  | .json => (turnOnce o.json).map ({ o with json := · })
  | .verbose => .ok { o with verbosity := min 255 (o.verbosity + 1) }
  | .quiet => (turnOnce o.quiet).map ({ o with quiet := · })
  | .help => .error .helpWanted
  | .version => .error .versionWanted

def methodText (o : Options) : Text := o.method.getD "GET"

end Options

/-! ## Pairs -/

/-- The name and the password in `user:password`; without a colon all of it is the name. -/
def splitUser (value : Text) : Text × Text := value.cutOr (· = ':')

def splitHeader (value : Text) : Option (Text × Text) :=
  match value.cut? (· = ':') with
  | none => none
  | some (name, value) => if name.trim = [] then none else some (name.trim, value.trim)

end HttpSession.CommandLine
