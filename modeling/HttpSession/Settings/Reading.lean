import HttpSession.Settings.Basic
import HttpSession.Text.Quotes

/-!
# Reading settings

A file of settings has one `key = value` a line. Text stands in double quotes, without escapes; behind a
`#` outside of quotes follows a comment. A key that is set again gets the later value; bounds are
checked at the end.
-/

namespace HttpSession.Settings

def uncommented : Bool → Text → Text
  | _, [] => []
  | inside, c :: rest =>
    if c = '#' ∧ ¬ inside then [] else c :: uncommented (if c = '"' then !inside else inside) rest

/-! ## Values -/

def readText (value : Text) : Except Fault Text :=
  match value.quoted? with
  | some text => .ok text
  | none => .error .notQuoted

/-- Reads a number of at most 64 bits; it may have a sign. -/
def readNumber (value : Text) : Except Fault Nat :=
  if value = [] then .error .noInteger
  else
    match Text.Width.signedQuadruple.read value with
    | .error error => .error (.integer error)
    | .ok n =>
      if n < 0 then .error .negative
      else if n.toNat ≤ Text.Width.double.greatest then .ok n.toNat
      else .error .beyondRange

def readBoolean (value : Text) : Except Fault Bool :=
  if value = "true" then .ok true
  else if value = "false" then .ok false
  else .error .notBoolean

/-- Reads the value of a key; what it says about redirects has 32 bits. -/
def readSetting (line : Nat) (key : Key) (value : Text) : Except Error Setting :=
  let text (make : Text → Setting) := ((readText value).map make).mapError (Error.noValue key line)
  let number := (readNumber value).mapError (Error.noValue key line)
  match key with
  | .cookiePolicy => text .cookiePolicy
  | .maxRedirects => do
    let bound ← number
    if bound ≤ Text.Width.word.greatest then .ok (.maxRedirects bound) else .error .tooManyRedirects
  | .followsRedirects =>
    ((readBoolean value).map Setting.followsRedirects).mapError (Error.noValue key line)
  | .proxy => text .proxy
  | .cookieFile => text .cookieFile
  | .connectTimeout => number.map .connectTimeout
  | .requestTimeout => number.map .requestTimeout
  | .userAgent => text .userAgent

/-! ## Lines -/

def readLine (number : Nat) (line : Text) : Except Error (Option Setting) :=
  let line := (uncommented false line).trim
  if line = [] then .ok none
  else
    match line.cut? (· = '=') with
    | none => .error (.noAssignment number)
    | some (key, value) =>
      match Key.ofText? key.trim with
      | none => .error (.unknownKey key.trim number)
      | some key => (readSetting number key value.trim).map some

def readLines : Nat → List Text → Except Error (List Setting)
  | _, [] => .ok []
  | number, line :: rest => do
    let setting ← readLine number line
    let others ← readLines (number + 1) rest
    .ok (setting.toList ++ others)

def read (file : Text) : Except Error Settings := do
  let settings := (← readLines 1 file.lines).foldl apply {}
  settings.check
  .ok settings

end HttpSession.Settings
