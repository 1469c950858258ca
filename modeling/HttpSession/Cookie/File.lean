import HttpSession.Bytes.Utf8
import HttpSession.Cookie.Basic
import HttpSession.Text.Integer

/-!
# Cookie files

A cookie file has one cookie a line, in seven fields between tabs: domain, whether hosts below it count,
path, whether the way must be secure, the second of expiry or zero, name, and value. Lines that begin with
`#` are comments, but for the mark of cookies that scripts do not see. A line that is no cookie gives a
warning, in which no value appears.
-/

namespace HttpSession.Cookie.File

inductive Fault
  | fieldCount (count : Nat)
  | flag (field written : Text)
  | expires (written : Text)
  | emptyDomain
  | emptyName
  deriving DecidableEq, Repr

def Fault.reason : Fault → Text
  | .fieldCount count => "expected 7 TAB-separated fields, found " ++ Text.ofNat count
  | .flag field written => field ++ " field must be TRUE or FALSE, got '" ++ written ++ "'"
  | .expires written => "expires field must be a non-negative integer, got '" ++ written ++ "'"
  | .emptyDomain => "domain field is empty"
  | .emptyName => "cookie name field is empty"

inductive Error
  | unreadable
  | noCookies (faults : Nat)
  deriving DecidableEq, Repr

def Error.cause? : Error → Option Text
  | .unreadable => some "stream did not contain valid UTF-8"
  | .noCookies _ => none

def Error.message : Error → Text
  | .unreadable => "failed to read cookie file: stream did not contain valid UTF-8"
  | .noCookies faults =>
    "no valid cookies found in file (" ++ Text.ofNat faults ++ " lines failed to parse)"

def readFlag (field : Text) (written : Text) : Except Fault Bool :=
  if written = "TRUE" then .ok true
  else if written = "FALSE" then .ok false
  else .error (.flag field written)

/-- The expiry that a number of seconds names; zero and what is past all instants name none. -/
def expiryOf (seconds : Nat) : Option Instant :=
  if seconds = 0 then none else Instant.epoch.later? seconds

def readLine (line : Text) : Except Fault Cookie :=
  match line.pieces '\t' with
  | [domain, tailmatch, path, secure, expires, name, value] => do
    let domainGiven ← readFlag "tailmatch" tailmatch
    let secure ← readFlag "secure" secure
    let seconds ← (Text.Width.double.readNat? expires).elim (.error (.expires expires)) .ok
    if domain = [] then throw .emptyDomain
    if name = [] then throw .emptyName
    .ok { name, value, domain := domain.lower, path := if path = [] then ['/'] else path,
          expiry := expiryOf seconds, secure, domainGiven, pathGiven := true }
  | fields => .error (.fieldCount fields.length)

def redact (line : Text) : Text :=
  let fields := line.pieces '\t'
  if 7 ≤ fields.length then Text.join "\t" (fields.take 6) ++ "\t[REDACTED]" else line

def warning (number : Nat) (line : Text) (fault : Fault) : Text :=
  "line " ++ Text.ofNat number ++ ": " ++ fault.reason ++ " (got: " ++ redact line ++ ")"

/-- The part of a line that counts, if it is no comment and not blank. -/
def content? (line : Text) : Option Text :=
  let line := line.trimEnd
  let line := (line.after? "#HttpOnly_").getD line
  if line = [] ∨ line.head? = some '#' then none else some line

structure Reading where
  cookies : List Cookie
  warnings : List (Nat × Text)

def readLines : Nat → List Text → Reading
  | _, [] => ⟨[], []⟩
  | number, line :: rest =>
    let others := readLines (number + 1) rest
    match content? line with
    | none => others
    | some line =>
      match readLine line with
      | .ok cookie => { others with cookies := cookie :: others.cookies }
      | .error fault =>
        { others with warnings := (number, warning number line fault) :: others.warnings }

/-- Reads a file. Lines that are no cookies are left out, but one cookie must be there if any line is
no comment. -/
def read (bytes : Bytes) : Except Error Reading :=
  match (Pieces.lines 10 13 bytes).mapM Utf8.decode? with
  | none => .error .unreadable
  | some lines =>
    let reading := readLines 1 lines
    if reading.cookies = [] ∧ reading.warnings ≠ [] then .error (.noCookies reading.warnings.length)
    else .ok reading

end HttpSession.Cookie.File
