import HttpSession.CommandLine.Reading
import HttpSession.CommandLine.Setup
import HttpSession.Exchange.Hops
import HttpSession.Settings.Reading
import Std.Time.DateTime.Timestamp

/-!
# The command

Reads the command line, the settings and the cookies to begin with, sets up the exchange, and shows the
first attempt that would be made. Nothing is sent.
-/

namespace HttpSession.CommandLine

abbrev Failing := ExceptT (Text × UInt32) IO

def fail {α : Type} (message : Text) : Failing α := throw (message, 1)

def contents {α : Type} (read : String → IO α) (complaint path : Text) : Failing α := do
  match ← (read (String.ofList path)).toBaseIO with
  | .ok content => pure content
  | .error e => fail (complaint ++ " '" ++ path ++ "': " ++ (toString e).toList)

/-- The settings in the file that was named, or in the usual one if it is there. -/
def loadSettings (a : Arguments) : Failing Settings := do
  let variable_ (name : String) : IO (Option Text) := do return (← IO.getEnv name).map String.toList
  let file ←
    match a.settings with
    | some path => contents (fun path => IO.FS.readFile path) "Failed to read config file" path
    | none =>
      match Settings.usualPath? (← variable_ "XDG_CONFIG_HOME") (← variable_ "HOME") with
      | none => pure ""
      | some path => return ← readUsual path
  parse file
where
  parse (file : String) : Failing Settings :=
    match Settings.read file.toList with
    | .ok settings => pure settings
    | .error e => fail ("Failed to parse config file: " ++ e.message)
  readUsual (path : Text) : Failing Settings := do
    match ← (IO.FS.readFile (String.ofList path)).toBaseIO with
    | .ok file => parse file
    | .error _ => pure {}

def loadCookies (a : Arguments) (s : Settings) : Failing (Option NamedFile) := do
  match Setup.cookieFile? a s with
  | none => pure none
  | some path =>
    let content ← contents (fun path => IO.FS.readBinFile path) "Failed to open cookies file" path
    pure (some ⟨path, content.toList⟩)

def randomNumber : IO UInt64 := do
  return (← IO.getRandomBytes 8).toList.foldl (fun n b => n * 256 + b.toUInt64) 0

def clock : IO Instant := do
  let now := (← Std.Time.Timestamp.now).toNanosecondsSinceUnixEpoch.val
  return ⟨now / 1000000000, (now % 1000000000).toNat⟩

/-- The first attempt of an exchange whose peer does not answer. -/
def firstAttempt (setup : Setup) (session : Session) : Except ExchangeError Attempt :=
  let client : Client := { peer := fun _ => .violation "nothing is sent", proxy := setup.proxy }
  let (result, after) := (Run.exchange client setup.request).run session
  let attempts := after.log.filterMap fun
    | .sent attempt => some attempt
    | _ => none
  match attempts, result with
  | attempt :: _, _ => .ok attempt
  | [], .error e => .error e
  | [], .ok _ => .error (.protocol (.reported "nothing to send"))

def perform (arguments : List String) : Failing Unit := do
  match Arguments.read (arguments.map String.toList) with
  | .error refusal => throw (refusal.message, refusal.exitStatus)
  | .ok a =>
    let settings ← loadSettings a
    let now ← clock
    match Setup.make now a settings (← loadCookies a settings) with
    | .error e => fail e.message
    | .ok setup =>
      let draws ← (List.replicate 64 ()).mapM fun _ => randomNumber
      match firstAttempt setup (setup.session now ⟨draws, 0⟩) with
      | .error e => fail e.message
      | .ok attempt =>
        IO.println (String.ofList (attempt.route.text ++ "\n" ++ attempt.request.shown))

end HttpSession.CommandLine

def main (arguments : List String) : IO UInt32 := do
  match ← (HttpSession.CommandLine.perform arguments).run with
  | .ok _ => return 0
  | .error (message, status) =>
    IO.eprintln (String.ofList message)
    return status
