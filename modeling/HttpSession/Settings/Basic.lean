import HttpSession.Text.Integer

/-!
# Settings

What a person sets once and for all in a file: defaults for what a command line leaves open. Numbers are
bounded, whether they were read or made otherwise (`Settings.check`).
-/

namespace HttpSession

structure Settings where
  cookiePolicy : Option Text := none
  maxRedirects : Option Nat := none
  followsRedirects : Option Bool := none
  proxy : Option Text := none
  cookieFile : Option Text := none
  /-- Times in seconds. -/
  connectTimeout : Option Nat := none
  requestTimeout : Option Nat := none
  userAgent : Option Text := none
  deriving DecidableEq, Repr

namespace Settings

/-! ## Keys -/

inductive Key
  | cookiePolicy
  | maxRedirects
  | followsRedirects
  | proxy
  | cookieFile
  | connectTimeout
  | requestTimeout
  | userAgent
  deriving DecidableEq, Repr

namespace Key

def text : Key → Text
  | .cookiePolicy => "cookie_policy"
  | .maxRedirects => "max_redirects"
  | .followsRedirects => "follow_redirects"
  | .proxy => "proxy"
  | .cookieFile => "cookies_file"
  | .connectTimeout => "connect_timeout_secs"
  | .requestTimeout => "request_timeout_secs"
  | .userAgent => "user_agent"

def all : List Key :=
  [.cookiePolicy, .maxRedirects, .followsRedirects, .proxy, .cookieFile, .connectTimeout,
    .requestTimeout, .userAgent]

def ofText? (t : Text) : Option Key := all.find? (·.text = t)

theorem mem_all (k : Key) : k ∈ all := by cases k <;> decide

end Key

/-! ## Single settings -/

inductive Setting
  | cookiePolicy (name : Text)
  | maxRedirects (bound : Nat)
  | followsRedirects (follows : Bool)
  | proxy (url : Text)
  | cookieFile (path : Text)
  | connectTimeout (seconds : Nat)
  | requestTimeout (seconds : Nat)
  | userAgent (text : Text)
  deriving DecidableEq, Repr

def apply (s : Settings) : Setting → Settings
  | .cookiePolicy name => { s with cookiePolicy := some name }
  | .maxRedirects bound => { s with maxRedirects := some bound }
  | .followsRedirects follows => { s with followsRedirects := some follows }
  | .proxy url => { s with proxy := some url }
  | .cookieFile path => { s with cookieFile := some path }
  | .connectTimeout seconds => { s with connectTimeout := some seconds }
  | .requestTimeout seconds => { s with requestTimeout := some seconds }
  | .userAgent text => { s with userAgent := some text }

/-! ## Errors -/

inductive Fault
  | notQuoted
  | noInteger
  | integer (error : Text.IntegerError)
  | negative
  | beyondRange
  | notBoolean
  deriving DecidableEq, Repr

def Fault.message : Fault → Text
  | .notQuoted => "Expected double-quoted string"
  | .noInteger => "Expected integer value"
  | .integer error => error.message
  | .negative => "Expected non-negative integer"
  | .beyondRange => "Integer value out of range for u64"
  | .notBoolean => "Expected 'true' or 'false'"

inductive Error
  | noAssignment (line : Nat)
  | unknownKey (written : Text) (line : Nat)
  | noValue (key : Key) (line : Nat) (fault : Fault)
  | tooManyRedirects
  | outOfBounds (key : Key) (value least greatest : Nat)
  deriving DecidableEq, Repr

def Error.message : Error → Text
  | .noAssignment line =>
    "Invalid config syntax on line " ++ Text.ofNat line ++ ": expected key = value"
  | .unknownKey written line =>
    "Unknown configuration key: '" ++ written ++ "' on line " ++ Text.ofNat line
  | .noValue key line fault =>
    "Invalid \x60" ++ key.text ++ "\x60 value on line " ++ Text.ofNat line ++ ": " ++ fault.message
  | .tooManyRedirects => "max_redirects out of range for u32"
  | .outOfBounds key value least greatest =>
    "Invalid config value for \x60" ++ key.text ++ "\x60: " ++ Text.ofNat value ++ ". Expected range: " ++
      Text.ofNat least ++ "..=" ++ Text.ofNat greatest

/-! ## Bounds -/

def checkBounds (key : Key) (least greatest : Nat) (value : Option Nat) : Except Error Unit :=
  match value with
  | none => .ok ()
  | some n =>
    if least ≤ n ∧ n ≤ greatest then .ok () else .error (.outOfBounds key n least greatest)

/-- Refuses settings with a number out of bounds, the first one in the order of the keys. -/
def check (s : Settings) : Except Error Unit := do
  checkBounds .maxRedirects 0 1000 s.maxRedirects
  checkBounds .connectTimeout 1 3600 s.connectTimeout
  checkBounds .requestTimeout 1 3600 s.requestTimeout

/-! ## The file -/

def below (path part : Text) : Text :=
  if path.getLast? = some '/' then path ++ part else path ++ "/" ++ part

/-- Where settings are kept when no place is named: in the directory for configurations, which is
`.config` in the home directory unless it is set. A directory that is set to nothing is not set. -/
def usualPath? (configurations home : Option Text) : Option Text :=
  let given := configurations.filter (· ≠ [])
  let directory := given <|> (home.filter (· ≠ [])).map (below · ".config")
  directory.map fun directory => below (below directory "http-exchange") "config.toml"

end Settings

end HttpSession
