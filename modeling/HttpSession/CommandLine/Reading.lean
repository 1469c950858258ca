import HttpSession.CommandLine.Arguments

/-!
# Reading arguments

Arguments are read from the left. A flag is `--name`, `--name=value`, or a letter behind one dash, where
letters of switches may be followed by others and a parameter takes the rest as its value. Everything
that begins with a dash is a flag, and never the value of the parameter before it, up to `--`, behind
which nothing is.

What was read last stays open until something follows it, so that an argument that is no flag at all is
noticed before any fault of the one before it.
-/

namespace HttpSession.CommandLine

/-- What was read last and is not yet settled. -/
inductive Open
  | parameter (p : Parameter) (value : Option Text)
  | url (t : Text)
  deriving DecidableEq, Repr

structure Reading where
  options : Options := {}
  url : Option Text := none
  last : Option Open := none
  /-- Whether flags are over. -/
  ended : Bool := false
  deriving DecidableEq, Repr

namespace Reading

def give (r : Reading) (p : Parameter) (value : Option Text) : Except Refusal Reading :=
  match value with
  | none => .error .noValue
  | some value => (r.options.give p value).map fun options => { r with options }

def settle (r : Reading) : Except Refusal Reading :=
  let settled := { r with last := none }
  match r.last with
  | none => .ok settled
  | some (.parameter p value) => settled.give p value
  | some (.url t) => .ok { settled with url := some t }

def start (r : Reading) (next : Open) : Except Refusal Reading := do
  .ok { ← r.settle with last := some next }

def turn (r : Reading) (s : Switch) : Except Refusal Reading := do
  let r ← r.settle
  .ok { r with options := ← r.options.turn s }

def giveAttached (r : Reading) (p : Parameter) (value : Text) : Except Refusal Reading := do
  (← r.settle).give p (some value)

def long (r : Reading) (body : Text) : Except Refusal Reading :=
  match body.cut? (· = '=') with
  | some (name, value) =>
    match Flag.ofLong? name with
    | none => .error .unknownArgument
    | some (.switch _) => .error .needlessValue
    | some (.parameter p) => r.giveAttached p value
  | none =>
    match Flag.ofLong? body with
    | none => .error .unknownArgument
    | some (.switch s) => r.turn s
    | some (.parameter p) => r.start (.parameter p none)

def short (r : Reading) : Text → Except Refusal Reading
  | [] => .ok r
  | letter :: rest =>
    match Flag.ofShort? letter with
    | none => .error .unknownArgument
    | some (.switch s) =>
      match r.turn s with
      | .ok r => r.short rest
      | .error refusal => .error refusal
    | some (.parameter p) =>
      match rest with
      | [] => r.start (.parameter p none)
      | '=' :: value => r.giveAttached p value
      | value => r.giveAttached p value

def hasUrl (r : Reading) : Bool :=
  r.url.isSome ||
    match r.last with
    | some (.url _) => true
    | _ => false

/-- Reads an argument that is no flag: it belongs to no parameter, so it is the URL. -/
def plain (r : Reading) (argument : Text) : Except Refusal Reading :=
  if r.hasUrl then .error .unknownArgument else r.start (.url argument)

def next (r : Reading) (argument : Text) : Except Refusal Reading :=
  if r.ended then r.plain argument
  else
    match argument with
    | ['-', '-'] => .ok { r with ended := true }
    | '-' :: '-' :: body => r.long body
    | '-' :: letter :: letters => r.short (letter :: letters)
    | argument =>
      match r.last with
      | some (.parameter p none) => .ok { r with last := some (.parameter p (some argument)) }
      | _ => r.plain argument

def finish (r : Reading) : Except Refusal Arguments := do
  let r ← r.settle
  match r.url with
  | none => .error .noUrl
  | some url => .ok { r.options with url }

end Reading

def Arguments.read (arguments : List Text) : Except Refusal Arguments := do
  (← arguments.foldlM Reading.next {}).finish

end HttpSession.CommandLine
